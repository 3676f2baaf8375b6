import Mathlib.Algebra.Group.Fin.Basic
import Mathlib.Tactic.Abel

/-!
# Rotating priority on a circle of places

Each round picks the eligible place that is fewest steps ahead of the rotation, and
the rotation then moves just past it. While a place stays eligible and is not picked,
the picks go strictly forward towards it: no other place is picked twice, and it waits
fewer rounds than the circle has places.
-/

namespace HisiRfCore.RoundRobin

variable {n : ℕ} [NeZero n]

/-- Steps forward from the rotation to a place. -/
def ahead (start place : Fin n) : ℕ := (place - start).val

omit [NeZero n] in
theorem ahead_lt (start place : Fin n) : ahead start place < n := (place - start).isLt

/-- Places at the same distance are the same. -/
theorem ahead_inj {start first second : Fin n} :
    ahead start first = ahead start second ↔ first = second := by
  unfold ahead
  rw [Fin.val_inj]
  exact sub_left_inj

/-- One more step is one more step ahead, short of a full circle. -/
theorem val_succ {place : Fin n} (h : place.val + 1 < n) : (place + 1).val = place.val + 1 := by
  have hone : (1 : Fin n).val = 1 := by
    rw [Fin.val_one', Nat.mod_eq_of_lt]
    omega
  rw [Fin.val_add, hone, Nat.mod_eq_of_lt h]

/-- Moving past a nearer place brings a place nearer. -/
theorem ahead_past {start passed target : Fin n} (h : ahead start passed < ahead start target) :
    ahead (passed + 1) target = ahead start target - (ahead start passed + 1) := by
  have hlt := ahead_lt start target
  have hstep : ((passed - start) + 1).val = ahead start passed + 1 := val_succ (by
    unfold ahead at h hlt
    omega)
  have hsum : target - (passed + 1) = (target - start) - ((passed - start) + 1) := by abel
  unfold ahead at h ⊢
  rw [hsum, Fin.sub_val_of_le, hstep]
  · rfl
  · rw [Fin.le_def, hstep]
    exact h

/-- A place reached after a pick, short of a full circle, is further ahead than the pick. -/
theorem ahead_of_past {start passed place : Fin n}
    (h : ahead start passed + 1 + ahead (passed + 1) place < n) :
    ahead start place = ahead start passed + 1 + ahead (passed + 1) place := by
  have hstep : ((passed - start) + 1).val = ahead start passed + 1 := val_succ (by
    unfold ahead at h
    omega)
  have hsum : place - start = ((passed - start) + 1) + (place - (passed + 1)) := by abel
  have hval : (place - start).val =
      (((passed - start) + 1).val + (place - (passed + 1)).val) % n := by
    rw [← Fin.val_add, ← hsum]
  rw [hstep] at hval
  exact hval.trans (Nat.mod_eq_of_lt h)

/-- The picked place is eligible, and no eligible place is nearer. -/
structure Picks (eligible : Fin n → Prop) (start place : Fin n) : Prop where
  /-- The place was eligible. -/
  isEligible : eligible place
  /-- Every eligible place is at least as far ahead. -/
  nearest : ∀ other, eligible other → ahead start place ≤ ahead start other

/-- Rounds that each start just past the place picked before. -/
def Rotates : Fin n → List ((Fin n → Prop) × Fin n) → Prop
  | _, [] => True
  | start, (eligible, place) :: rest => Picks eligible start place ∧ Rotates (place + 1) rest

variable {start target : Fin n} {rounds : List ((Fin n → Prop) × Fin n)}

/-- A pick other than an eligible place comes before it. -/
theorem Picks.ahead_lt {eligible : Fin n → Prop} {place : Fin n} (h : Picks eligible start place)
    (ht : eligible target) (hne : place ≠ target) : ahead start place < ahead start target :=
  Nat.lt_of_le_of_ne (h.nearest target ht) fun he => hne (ahead_inj.mp he)

/-- An eligible place is passed over fewer times than it is steps ahead. -/
theorem waits_le (hr : Rotates start rounds) (he : ∀ round ∈ rounds, round.1 target)
    (hn : ∀ round ∈ rounds, round.2 ≠ target) : rounds.length ≤ ahead start target := by
  induction rounds generalizing start with
  | nil => exact Nat.zero_le _
  | cons round rest ih =>
    have hlt := hr.1.ahead_lt (he round List.mem_cons_self) (hn round List.mem_cons_self)
    have hrest := ih hr.2 (fun r h => he r (List.mem_cons_of_mem _ h))
      (fun r h => hn r (List.mem_cons_of_mem _ h))
    rw [ahead_past hlt] at hrest
    rw [List.length_cons]
    omega

/-- While an eligible place is passed over, the picks go strictly forward towards it. -/
theorem picks_increase (hr : Rotates start rounds) (he : ∀ round ∈ rounds, round.1 target)
    (hn : ∀ round ∈ rounds, round.2 ≠ target) :
    (rounds.map Prod.snd).Pairwise (fun a b => ahead start a < ahead start b) ∧
      ∀ place ∈ rounds.map Prod.snd, ahead start place < ahead start target := by
  induction rounds generalizing start with
  | nil => exact ⟨List.Pairwise.nil, fun _ h => by cases h⟩
  | cons round rest ih =>
    have hlt := hr.1.ahead_lt (he round List.mem_cons_self) (hn round List.mem_cons_self)
    obtain ⟨hpair, hall⟩ := ih hr.2 (fun r h => he r (List.mem_cons_of_mem _ h))
      (fun r h => hn r (List.mem_cons_of_mem _ h))
    have htarget := ahead_lt start target
    -- a later pick is measured from the start by going past this one
    have hlater : ∀ place ∈ rest.map Prod.snd,
        ahead start place = ahead start round.2 + 1 + ahead (round.2 + 1) place ∧
          ahead start place < ahead start target := by
      intro place hp
      have hbound := hall place hp
      rw [ahead_past hlt] at hbound
      have heq : ahead start place = ahead start round.2 + 1 + ahead (round.2 + 1) place :=
        ahead_of_past (by omega)
      exact ⟨heq, by omega⟩
    rw [List.map_cons]
    constructor
    · refine List.pairwise_cons.mpr ⟨fun place hp => ?_, ?_⟩
      · have hx := (hlater place hp).1
        omega
      · refine hpair.imp_of_mem fun {a b} ha hb hab => ?_
        have hxa := (hlater a ha).1
        have hxb := (hlater b hb).1
        omega
    · intro place hp
      rcases List.mem_cons.mp hp with rfl | hp
      · exact hlt
      · exact (hlater place hp).2

/-- While a place stays eligible and unpicked, no other place is picked twice. -/
theorem picks_nodup (hr : Rotates start rounds) (he : ∀ round ∈ rounds, round.1 target)
    (hn : ∀ round ∈ rounds, round.2 ≠ target) : (rounds.map Prod.snd).Nodup :=
  (picks_increase hr he hn).1.imp fun hlt heq => by
    rw [heq] at hlt
    exact Nat.lt_irrefl _ hlt

end HisiRfCore.RoundRobin
