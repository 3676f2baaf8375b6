import Mathlib.Data.List.Basic

/-!
# Histories seen by one key

A history records entries of many parties. Each entry belongs to at most one key, and
the story of a key is what the history says about it: entries of others leave it alone.
-/

namespace HisiRfCore.KeyedHistory

variable {α κ : Type*} [DecidableEq κ]

/-- The entries that belong to one key, in order. -/
def story (owner : α → Option κ) (history : List α) (key : κ) : List α :=
  history.filter fun entry => owner entry = some key

variable {owner : α → Option κ} {history : List α} {entry : α} {key : κ}

/-- An entry lengthens the story of its key. -/
theorem story_concat_of_eq (h : owner entry = some key) :
    story owner (history ++ [entry]) key = story owner history key ++ [entry] := by
  simp [story, List.filter_append, h]

/-- It leaves every other story alone. -/
theorem story_concat_of_ne (h : owner entry ≠ some key) :
    story owner (history ++ [entry]) key = story owner history key := by
  simp [story, List.filter_append, h]

/-- The story of a key has its entries of the history. -/
theorem mem_story : entry ∈ story owner history key ↔ entry ∈ history ∧ owner entry = some key := by
  simp [story]

/-- What only concerns entries of a key can be read off its story. -/
theorem filter_story {p : α → Bool} (h : ∀ entry, p entry = true → owner entry = some key) :
    (story owner history key).filter p = history.filter p := by
  rw [story, List.filter_filter]
  refine List.filter_congr fun entry _ => ?_
  cases hp : p entry with
  | false => rfl
  | true => simp [h entry hp]

end HisiRfCore.KeyedHistory
