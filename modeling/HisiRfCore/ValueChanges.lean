import Mathlib.Data.List.Destutter
import Mathlib.Data.List.ReduceOption

/-!
# Changes of a value

A list of successive values, seen from the value before it, changes where an entry
differs from the one in front of it. The changes are the list without its stutters.
-/

namespace HisiRfCore.ValueChanges

variable {α : Type*} [DecidableEq α]

/-- Entries that differ from the value in front of them. -/
def changes (last : α) (values : List α) : List α := (values.destutter' (· ≠ ·) last).tail

@[simp] theorem changes_nil (last : α) : changes last [] = [] := rfl

/-- Destuttering keeps the value in front. -/
theorem destutter_eq (last : α) (values : List α) :
    values.destutter' (· ≠ ·) last = last :: changes last values := by
  induction values generalizing last with
  | nil => rfl
  | cons value rest ih =>
    by_cases h : last ≠ value
    · rw [changes, List.destutter'_cons_pos _ h, List.tail_cons]
    · rw [changes, List.destutter'_cons_neg _ h, ih, List.tail_cons]

/-- A first entry that repeats the value is no change. -/
theorem changes_cons (last value : α) (values : List α) :
    changes last (value :: values) =
      if value = last then changes last values else value :: changes value values := by
  by_cases h : value = last
  · have hsame : ¬ last ≠ value := fun hn => hn h.symm
    rw [if_pos h, changes, List.destutter'_cons_neg _ hsame, destutter_eq, List.tail_cons]
  · have hnew : last ≠ value := fun hs => h hs.symm
    rw [if_neg h, changes, List.destutter'_cons_pos _ hnew, List.tail_cons, destutter_eq]

/-- A last entry is a change when it differs from the latest value. -/
theorem changes_concat (last value : α) (values : List α) :
    changes last (values ++ [value]) =
      changes last values ++ if value = values.getLastD last then [] else [value] := by
  induction values generalizing last with
  | nil =>
    rw [List.nil_append, changes_cons]
    by_cases h : value = last
    · rw [if_pos h, List.getLastD_nil, if_pos h]
      rfl
    · rw [if_neg h, List.getLastD_nil, if_neg h]
      rfl
  | cons first rest ih =>
    rw [List.cons_append, changes_cons, changes_cons, List.getLastD_cons]
    by_cases h : first = last
    · rw [if_pos h, if_pos h, ih, h]
    · rw [if_neg h, if_neg h, ih, List.cons_append]

/-- A value that comes and goes is entered at most once more than it is left. -/
theorem length_reduceOption_changes_le (a : α) (last : Option α) (values : List (Option α))
    (hall : ∀ value ∈ values, value = some a ∨ value = none) :
    (changes last values).reduceOption.length ≤
      values.count none + if last = some a then 0 else 1 := by
  induction values generalizing last with
  | nil => exact Nat.zero_le _
  | cons value rest ih =>
    have hall' : ∀ value ∈ rest, value = some a ∨ value = none :=
      fun other hm => hall other (List.mem_cons_of_mem _ hm)
    have hrest := ih last hall'
    have hnext := ih value hall'
    rw [changes_cons]
    rcases hall value List.mem_cons_self with rfl | rfl
    · have hcount : (some a :: rest).count none = rest.count none := by simp
      rw [if_pos rfl] at hnext
      by_cases h : some a = last
      · rw [if_pos h, hcount]
        exact hrest
      · rw [if_neg h, hcount, List.reduceOption_cons_of_some, List.length_cons,
          if_neg fun hs => h hs.symm]
        omega
    · have hcount : ((none : Option α) :: rest).count none = rest.count none + 1 := by simp
      rw [if_neg (by simp)] at hnext
      by_cases h : none = last
      · rw [if_pos h, hcount]
        omega
      · rw [if_neg h, hcount, List.reduceOption_cons_of_none]
        omega

end HisiRfCore.ValueChanges
