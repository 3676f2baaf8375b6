import Mathlib.Data.List.Basic
import Mathlib.Tactic.IntervalCases

/-!
# Bits of a byte vector

Bits are numbered from the least significant bit of the first byte. A range of
bits that ends inside a byte is uniform exactly when its whole bytes and the
masked last byte are, which is how code tests it.
-/

namespace HisiRfCore.ByteBits

variable {n : ℕ} {bytes : Vector UInt8 n} {low middle high : ℕ} {value : Bool}

/-- One bit of a vector of bytes. -/
def bit (bytes : Vector UInt8 n) (i : ℕ) : Bool :=
  (bytes[i / 8]?.getD 0).toBitVec.getLsbD (i % 8)

/-- Byte whose bits are all the same. -/
def fill (value : Bool) : UInt8 := if value then 0xff else 0

/-- Byte whose lowest bits are set. -/
def lowMask (k : ℕ) : UInt8 := UInt8.ofNat (2 ^ k - 1)

/-- Every bit of the range has the value. -/
def Uniform (bytes : Vector UInt8 n) (low high : ℕ) (value : Bool) : Prop :=
  ∀ i, low ≤ i → i < high → bit bytes i = value

/-- The range has a bit that is one and a bit that is zero. -/
def Mixed (bytes : Vector UInt8 n) (low high : ℕ) : Prop :=
  (∃ i, low ≤ i ∧ i < high ∧ bit bytes i = true) ∧ ∃ i, low ≤ i ∧ i < high ∧ bit bytes i = false

theorem bit_of_lt {j k : ℕ} (hj : j < n) (hk : k < 8) :
    bit bytes (8 * j + k) = bytes[j].toBitVec.getLsbD k := by
  have hdiv : (8 * j + k) / 8 = j := by omega
  have hmod : (8 * j + k) % 8 = k := by omega
  rw [bit, hdiv, hmod, Vector.getElem?_eq_getElem hj, Option.getD_some]

theorem getLsbD_fill {k : ℕ} (hk : k < 8) : (fill value).toBitVec.getLsbD k = value := by
  cases value <;> interval_cases k <;> rfl

theorem getLsbD_lowMask {k t : ℕ} (hk : k ≤ 8) (ht : t < 8) :
    (lowMask k).toBitVec.getLsbD t = decide (t < k) := by
  interval_cases k <;> interval_cases t <;> rfl

/-- Bits of a word of three bytes, least significant byte first. -/
theorem getLsbD_word {a b c : UInt8} {i : ℕ} (hi : i < 32) :
    (a.toUInt32 ||| b.toUInt32 <<< 8 ||| c.toUInt32 <<< 16).toBitVec.getLsbD i =
      (a.toBitVec.getLsbD i || (!decide (i < 8) && b.toBitVec.getLsbD (i - 8)) ||
        (!decide (i < 16) && c.toBitVec.getLsbD (i - 16))) := by
  simp only [UInt32.toBitVec_or, UInt32.toBitVec_shiftLeft, UInt8.toBitVec_toUInt32,
    BitVec.getLsbD_or]
  simp [hi]

/-- A range is mixed when it is uniform for neither value. -/
theorem mixed_iff : Mixed bytes low high ↔
    ¬ Uniform bytes low high false ∧ ¬ Uniform bytes low high true := by
  simp [Mixed, Uniform]

/-- A range that has a bit is uniform for one value only. -/
theorem Uniform.value_eq {other : Bool} (h : Uniform bytes low high value)
    (ho : Uniform bytes low high other) (hlt : low < high) : value = other :=
  (h low (by omega) hlt).symm.trans (ho low (by omega) hlt)

/-- A range is uniform when both of its parts are. -/
theorem uniform_split (hl : low ≤ middle) (hh : middle ≤ high) : Uniform bytes low high value ↔
    Uniform bytes low middle value ∧ Uniform bytes middle high value := by
  constructor
  · intro h
    exact ⟨fun i hi hm => h i hi (by omega), fun i hm hi => h i (by omega) hi⟩
  · rintro ⟨hlow, hhigh⟩ i hi hm
    rcases Nat.lt_or_ge i middle with him | him
    · exact hlow i hi him
    · exact hhigh i him hm

/-- The lowest bits of a byte are uniform when the masked byte is. -/
theorem uniform_low {j k : ℕ} (hj : j < n) (hk : k ≤ 8) :
    Uniform bytes (8 * j) (8 * j + k) value ↔
      bytes[j] &&& lowMask k = fill value &&& lowMask k := by
  have hbits : bytes[j] &&& lowMask k = fill value &&& lowMask k ↔
      ∀ t, t < 8 → t < k → bytes[j].toBitVec.getLsbD t = value := by
    constructor
    · intro h t ht htk
      have hbit := congrArg (fun byte : UInt8 => byte.toBitVec.getLsbD t) h
      simpa [getLsbD_lowMask hk ht, getLsbD_fill ht, htk] using hbit
    · intro h
      refine UInt8.toBitVec_inj.mp (BitVec.eq_of_getLsbD_eq fun t ht => ?_)
      rw [UInt8.toBitVec_and, UInt8.toBitVec_and, BitVec.getLsbD_and, BitVec.getLsbD_and,
        getLsbD_lowMask hk ht, getLsbD_fill ht]
      by_cases htk : t < k
      · rw [h t ht htk]
      · simp [htk]
  rw [hbits]
  constructor
  · intro h t ht htk
    rw [← bit_of_lt hj ht]
    exact h _ (by omega) (by omega)
  · intro h i hi hm
    have hsplit : i = 8 * j + (i - 8 * j) := by omega
    rw [hsplit, bit_of_lt hj (by omega)]
    exact h _ (by omega) (by omega)

/-- A byte is uniform when it is the filled byte. -/
theorem uniform_byte {j : ℕ} (hj : j < n) :
    Uniform bytes (8 * j) (8 * j + 8) value ↔ bytes[j] = fill value := by
  have hfull : ∀ byte : UInt8, byte &&& lowMask 8 = byte := by
    intro byte
    refine UInt8.toBitVec_inj.mp (BitVec.eq_of_getLsbD_eq fun t ht => ?_)
    rw [UInt8.toBitVec_and, BitVec.getLsbD_and, getLsbD_lowMask (by omega) ht, decide_eq_true ht,
      Bool.and_true]
  rw [uniform_low hj (by omega), hfull, hfull]

/-- A range from a byte on is uniform when the byte and the rest are. -/
theorem uniform_next {j : ℕ} (hj : j < n) (hh : 8 * j + 8 ≤ high) :
    Uniform bytes (8 * j) high value ↔
      bytes[j] = fill value ∧ Uniform bytes (8 * (j + 1)) high value := by
  rw [uniform_split (show 8 * j ≤ 8 * j + 8 by omega) hh, uniform_byte hj]
  rfl

end HisiRfCore.ByteBits
