import Mathlib.Data.Fintype.Basic
import Mathlib.Tactic.FinCases

/-!
# Bytes as sets of flags

A byte of flags is the set of its one bits. The bitwise tests and unions of code are the
subset test and the union of these sets. A value of a flag type, which is a union of a few
named flags, is a non-empty set of these names.
-/

namespace HisiRfCore.FlagWords

/-- The flags that are set in a byte. -/
def members (word : UInt8) : Finset (Fin 8) :=
  Finset.univ.filter fun i => word.toBitVec.getLsbD i = true

section Members

variable {a b : UInt8} {i : Fin 8}

@[simp] theorem mem_members : i ∈ members a ↔ a.toBitVec.getLsbD i = true := by
  simp [members]

/-- Two bytes with the same flags are equal. -/
theorem members_injective (h : members a = members b) : a = b := by
  refine UInt8.toBitVec_inj.mp (BitVec.eq_of_getLsbD_eq fun t ht => ?_)
  have hbit : (⟨t, ht⟩ : Fin 8) ∈ members a ↔ (⟨t, ht⟩ : Fin 8) ∈ members b := by rw [h]
  rw [mem_members, mem_members] at hbit
  exact Bool.eq_iff_iff.mpr hbit

/-- The flags of a bitwise or are those of both sides. -/
theorem members_or (a b : UInt8) : members (a ||| b) = members a ∪ members b := by
  ext i
  simp

/-- The flags of a bitwise and are those of either side that the other has too. -/
theorem members_and (a b : UInt8) : members (a &&& b) = members a ∩ members b := by
  ext i
  simp

/-- A byte without flags is zero. -/
theorem members_eq_empty : members a = ∅ ↔ a = 0 := by
  constructor
  · intro h
    exact members_injective (h.trans (by decide))
  · rintro rfl
    decide

/-- Keeping a whole byte of flags is the subset test. -/
theorem and_eq_right : a &&& b = b ↔ members b ⊆ members a := by
  rw [← Finset.inter_eq_right, ← members_and]
  exact ⟨fun h => by rw [h], members_injective⟩

/-- One shifted bit is one flag. -/
theorem members_shift (i : Fin 8) : members (1 <<< UInt8.ofNat i) = {i} := by
  fin_cases i <;> decide

end Members

/-- A byte of flags, non-empty and below a number of names. -/
structure FlagSet (count : ℕ) where
  /-- The byte. -/
  bits : UInt8
  /-- Some flag is set. -/
  nonempty : bits ≠ 0
  /-- Every flag that is set has a name. -/
  named : ∀ i ∈ members bits, i.val < count
  deriving DecidableEq

namespace FlagSet

variable {count : ℕ} {a b : FlagSet count}

/-- The flags of the set. -/
def flags (a : FlagSet count) : Finset (Fin 8) := members a.bits

/-- One named flag. -/
def flag (i : Fin 8) (h : i.val < count) : FlagSet count where
  bits := 1 <<< UInt8.ofNat i
  nonempty := by
    rw [ne_eq, ← members_eq_empty, members_shift]
    exact Finset.singleton_ne_empty i
  named := by
    rw [members_shift]
    intro j hj
    rw [Finset.mem_singleton.mp hj]
    exact h

/-- The flags of both. -/
def union (a b : FlagSet count) : FlagSet count where
  bits := a.bits ||| b.bits
  nonempty := by
    rw [ne_eq, ← members_eq_empty, members_or, Finset.union_eq_empty, members_eq_empty]
    exact fun h => a.nonempty h.1
  named := by
    rw [members_or]
    intro i hi
    rcases Finset.mem_union.mp hi with hi | hi
    · exact a.named i hi
    · exact b.named i hi

/-- All flags of the other set are present. -/
def contains (a b : FlagSet count) : Bool := a.bits &&& b.bits == b.bits

@[simp] theorem flags_flag (i : Fin 8) (h : i.val < count) : (flag i h).flags = {i} :=
  members_shift i

@[simp] theorem flags_union : (a.union b).flags = a.flags ∪ b.flags := members_or a.bits b.bits

/-- The test is the subset test. -/
theorem contains_iff : a.contains b = true ↔ b.flags ⊆ a.flags := by
  rw [contains, beq_iff_eq]
  exact and_eq_right

/-- The test for one named flag. -/
theorem contains_flag {i : Fin 8} {h : i.val < count} :
    a.contains (flag i h) = true ↔ i ∈ a.flags := by
  rw [contains_iff, flags_flag, Finset.singleton_subset_iff]

end FlagSet

end HisiRfCore.FlagWords
