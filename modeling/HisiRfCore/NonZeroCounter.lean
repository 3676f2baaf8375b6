import Mathlib.Data.Nat.ModEq
import Mathlib.Data.UInt
import Mathlib.Logic.Function.Iterate
import Mathlib.Tactic.Common

/-!
# Wrapping counters that skip zero

A 32-bit counter advanced by wrapping addition, with the one value zero skipped,
allocates non-zero identities. Below the wrap it counts exactly; across the wrap the
identities repeat with a period one short of the word size.
-/

namespace HisiRfCore.NonZeroCounter

/-- A 32-bit word that is not zero. -/
abbrev NonZeroU32 := {value : UInt32 // value ≠ 0}

/-- Wrapping increment that replaces zero by one. -/
def advance (counter : UInt32) : UInt32 :=
  let bumped := counter + 1
  if bumped = 0 then 1 else bumped

/-- The counter never rests on zero, so the identity it names is non-zero. -/
theorem advance_ne_zero (counter : UInt32) : advance counter ≠ 0 := by
  unfold advance
  dsimp only
  split
  · decide
  · assumption

/-- Below the wrap the counter is the number of allocations. -/
theorem advance_toNat {counter : UInt32} (h : counter.toNat + 1 < 2 ^ 32) :
    (advance counter).toNat = counter.toNat + 1 := by
  have hn : (counter + 1).toNat = counter.toNat + 1 := by
    rw [UInt32.toNat_add]
    exact Nat.mod_eq_of_lt h
  unfold advance
  dsimp only
  rw [if_neg]
  · exact hn
  · intro hz
    rw [hz] at hn
    simp at hn

/-- Number of non-zero words, after which an identity comes again. -/
def period : ℕ := 2 ^ 32 - 1

/-- The counter runs through the residues of the period, each raised by one. -/
theorem advance_toNat_mod (counter : UInt32) :
    (advance counter).toNat = counter.toNat % period + 1 := by
  have hlt := counter.toNat_lt
  by_cases h : counter.toNat + 1 < 2 ^ 32
  · have hmod : counter.toNat < period := by
      unfold period
      omega
    rw [advance_toNat h, Nat.mod_eq_of_lt hmod]
  · have hlast : counter.toNat = period := by
      unfold period
      omega
    have hzero : counter + 1 = 0 := by
      rw [← UInt32.toNat_inj, UInt32.toNat_add, hlast]
      rfl
    unfold advance
    dsimp only
    rw [if_pos hzero, hlast, Nat.mod_self]
    rfl

/-- The value of the counter after any positive number of allocations. -/
theorem toNat_iterate (n : ℕ) : (advance^[n + 1] 0).toNat = n % period + 1 := by
  induction n with
  | zero => rfl
  | succ n ih => rw [Function.iterate_succ_apply', advance_toNat_mod, ih, Nat.mod_add_mod]

/-- Two allocations give one identity exactly when whole periods lie between them. -/
theorem iterate_eq_iff {m n : ℕ} :
    advance^[m + 1] 0 = advance^[n + 1] 0 ↔ m ≡ n [MOD period] := by
  rw [← UInt32.toNat_inj, toNat_iterate, toNat_iterate, Nat.add_right_cancel_iff]
  rfl

/-- The counter is zero only before the first allocation. -/
theorem iterate_eq_zero {n : ℕ} : advance^[n] 0 = 0 ↔ n = 0 := by
  cases n with
  | zero => exact iff_of_true rfl rfl
  | succ n =>
    rw [Function.iterate_succ_apply']
    exact iff_of_false (advance_ne_zero _) (Nat.succ_ne_zero n)

end HisiRfCore.NonZeroCounter
