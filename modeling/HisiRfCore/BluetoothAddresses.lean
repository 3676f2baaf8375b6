import HisiRfCore.ByteBits

/-!
# Bluetooth device addresses

A random address names its sub-kind in its two highest bits, and the random
part below them must hold a one and a zero. The static and the resolvable
branches reject both uniform parts; the non-resolvable branch rejects the zero
address only, so one address with a uniform part is accepted.
-/

namespace HisiRfCore.BluetoothAddresses

open ByteBits

/-- Address kind carried by a BLE GAP operation. -/
inductive AddressType
  | publicDevice
  | randomStatic
  | resolvablePrivate
  | nonResolvablePrivate
  deriving DecidableEq

/-- Bytes of a device address. -/
abbrev addressLength : ℕ := 6

/-- Six bytes in controller byte order. -/
abbrev AddressBytes := Vector UInt8 addressLength

/-- Every byte has the value. -/
def allEqual (bytes : AddressBytes) (value : UInt8) : Bool :=
  bytes[0] == value && bytes[1] == value && bytes[2] == value && bytes[3] == value &&
    bytes[4] == value && bytes[5] == value

/-- The random part of a static address is zero. -/
def randomPartIsZero (bytes : AddressBytes) : Bool :=
  bytes[0] == 0 && bytes[1] == 0 && bytes[2] == 0 && bytes[3] == 0 && bytes[4] == 0 &&
    bytes[5] &&& 0x3f == 0

/-- The random part of a static address is all ones. -/
def randomPartIsOne (bytes : AddressBytes) : Bool :=
  bytes[0] == 0xff && bytes[1] == 0xff && bytes[2] == 0xff && bytes[3] == 0xff &&
    bytes[4] == 0xff && bytes[5] &&& 0x3f == 0x3f

/-- The random part of a resolvable address. -/
def randomPart (bytes : AddressBytes) : UInt32 :=
  bytes[3].toUInt32 ||| bytes[4].toUInt32 <<< 8 ||| (bytes[5] &&& 0x3f).toUInt32 <<< 16

/-- The bytes that a kind of address may have. -/
def AddressType.Admits (bytes : AddressBytes) : AddressType → Prop
  | .publicDevice => allEqual bytes 0 = false
  | .randomStatic =>
    bytes[5] &&& 0xc0 = 0xc0 ∧ randomPartIsZero bytes = false ∧ randomPartIsOne bytes = false
  | .resolvablePrivate =>
    bytes[5] &&& 0xc0 = 0x40 ∧ randomPart bytes ≠ 0 ∧ randomPart bytes ≠ 0x3fffff
  | .nonResolvablePrivate => bytes[5] &&& 0xc0 = 0 ∧ allEqual bytes 0 = false

/-- Validated BLE device address. -/
structure BluetoothAddress where
  /-- The address in controller byte order. -/
  bytes : AddressBytes
  /-- The validated address kind. -/
  kind : AddressType
  /-- The kind admits the bytes. -/
  admitted : kind.Admits bytes

namespace BluetoothAddress

/-- Validate a non-zero public device address. -/
def publicDevice (bytes : AddressBytes) : Option BluetoothAddress :=
  if h : allEqual bytes 0 = true then none
  else some ⟨bytes, .publicDevice, Bool.eq_false_iff.mpr h⟩

/-- Validate a static random address according to the two most-significant bits. -/
def randomStatic (bytes : AddressBytes) : Option BluetoothAddress :=
  if h : bytes[5] &&& 0xc0 ≠ 0xc0 ∨ randomPartIsZero bytes = true ∨ randomPartIsOne bytes = true
  then none
  else some ⟨bytes, .randomStatic, by simpa [AddressType.Admits] using h⟩

/-- Classify and validate a controller-reported random device address. -/
def random (bytes : AddressBytes) : Option BluetoothAddress :=
  if bytes[5] &&& 0xc0 = 0xc0 then randomStatic bytes
  else if hr : bytes[5] &&& 0xc0 = 0x40 then
    if h : randomPart bytes = 0 ∨ randomPart bytes = 0x3fffff then none
    else some ⟨bytes, .resolvablePrivate, hr, not_or.mp h⟩
  else if hn : bytes[5] &&& 0xc0 = 0 then
    if h : allEqual bytes 0 = true then none
    else some ⟨bytes, .nonResolvablePrivate, hn, Bool.eq_false_iff.mpr h⟩
  else none

end BluetoothAddress

/-- Sub-kind of a random address, by its two highest bits; one pattern is reserved. -/
def subKind (bytes : AddressBytes) : Option AddressType :=
  match bit bytes 47, bit bytes 46 with
  | true, true => some .randomStatic
  | false, true => some .resolvablePrivate
  | false, false => some .nonResolvablePrivate
  | true, false => none

/-- The two highest bits of a sub-kind, as the masked last byte keeps them. -/
def AddressType.pattern : AddressType → Option UInt8
  | .publicDevice => none
  | .randomStatic => some 0xc0
  | .resolvablePrivate => some 0x40
  | .nonResolvablePrivate => some 0

/-- First bit of the random part, which ends below the two highest bits. -/
def AddressType.randomPartStart : AddressType → ℕ
  | .resolvablePrivate => 24
  | _ => 0

/-- Random addresses are accepted by sub-kind and random part, with their bytes. -/
def Classifies (bytes : AddressBytes) : Prop :=
  ((BluetoothAddress.random bytes).isSome = true ↔
    ∃ kind, subKind bytes = some kind ∧ Mixed bytes kind.randomPartStart 46) ∧
  (∀ address, BluetoothAddress.random bytes = some address →
    subKind bytes = some address.kind ∧ address.bytes = bytes) ∧
  (subKind bytes = some .randomStatic →
    BluetoothAddress.random bytes = BluetoothAddress.randomStatic bytes)

/-- Address whose random part is all ones below a non-resolvable pattern. -/
def onesBelowPrivate : AddressBytes := #v[0xff, 0xff, 0xff, 0xff, 0xff, 0x3f]

section Parts

variable {bytes : AddressBytes} {value : Bool}

/-- The random part is uniform when its bytes and the masked last byte are. -/
theorem uniform_randomPart : Uniform bytes 0 46 value ↔
    bytes[0] = fill value ∧ bytes[1] = fill value ∧ bytes[2] = fill value ∧
      Uniform bytes 24 46 value := by
  have hbytes : Uniform bytes (8 * 0) 46 value ↔ bytes[0] = fill value ∧ bytes[1] = fill value ∧
      bytes[2] = fill value ∧ Uniform bytes (8 * 3) 46 value := by
    rw [uniform_next (by decide) (by omega), uniform_next (by decide) (by omega),
      uniform_next (by decide) (by omega)]
  exact hbytes

theorem uniform_resolvable : Uniform bytes 24 46 value ↔
    bytes[3] = fill value ∧ bytes[4] = fill value ∧ bytes[5] &&& 0x3f = fill value &&& 0x3f := by
  have hbytes : Uniform bytes (8 * 3) (8 * 5 + 6) value ↔ bytes[3] = fill value ∧
      bytes[4] = fill value ∧ bytes[5] &&& lowMask 6 = fill value &&& lowMask 6 := by
    rw [uniform_next (by decide) (by omega), uniform_next (by decide) (by omega),
      uniform_low (by decide) (by omega)]
  exact hbytes

theorem randomPartIsZero_iff :
    randomPartIsZero bytes = true ↔ Uniform bytes 0 46 false := by
  rw [uniform_randomPart, uniform_resolvable]
  simp [randomPartIsZero, fill, and_assoc]

theorem randomPartIsOne_iff :
    randomPartIsOne bytes = true ↔ Uniform bytes 0 46 true := by
  rw [uniform_randomPart, uniform_resolvable, show fill true &&& 0x3f = 0x3f from rfl]
  simp [randomPartIsOne, fill, and_assoc]

/-- The resolvable random part holds the bits from the fourth byte on. -/
theorem randomPart_bit {i : ℕ} (hi : i < 32) :
    (randomPart bytes).toBitVec.getLsbD i = (decide (i < 22) && bit bytes (24 + i)) := by
  have hbit : ∀ {j k : ℕ} (hj : j < 6), k < 8 → 24 + i = 8 * j + k →
      bit bytes (24 + i) = bytes[j].toBitVec.getLsbD k := by
    intro j k hj hk he
    rw [he, bit_of_lt hj hk]
  have hmask : ∀ k, k < 8 → (0x3f : UInt8).toBitVec.getLsbD k = decide (k < 6) := by
    intro k hk
    interval_cases k <;> rfl
  have hlow : bytes[3].toBitVec.getLsbD i = (decide (i < 8) && bytes[3].toBitVec.getLsbD i) := by
    rcases Nat.lt_or_ge i 8 with h8 | h8
    · simp [h8]
    · rw [BitVec.getLsbD_of_ge _ _ h8, Bool.and_false]
  have hmiddle : bytes[4].toBitVec.getLsbD (i - 8) =
      (decide (i < 16) && bytes[4].toBitVec.getLsbD (i - 8)) := by
    rcases Nat.lt_or_ge i 16 with h16 | h16
    · simp [h16]
    · rw [BitVec.getLsbD_of_ge _ _ (by omega), Bool.and_false]
  have hhigh : (bytes[5] &&& 0x3f).toBitVec.getLsbD (i - 16) =
      (decide (i < 22) && bytes[5].toBitVec.getLsbD (i - 16)) := by
    rw [UInt8.toBitVec_and, BitVec.getLsbD_and, Bool.and_comm]
    rcases Nat.lt_or_ge i 24 with h24 | h24
    · rw [hmask _ (by omega)]
      congr 1
      exact decide_eq_decide.mpr (by omega)
    · rw [BitVec.getLsbD_of_ge _ _ (by omega), BitVec.getLsbD_of_ge _ _ (by omega), Bool.and_false,
        Bool.and_false]
  rw [randomPart, getLsbD_word hi, hlow, hmiddle, hhigh]
  rcases Nat.lt_or_ge i 8 with h8 | h8
  · rw [hbit (j := 3) (k := i) (by omega) h8 (by omega)]
    simp [h8, show i < 16 by omega, show i < 22 by omega]
  · rcases Nat.lt_or_ge i 16 with h16 | h16
    · rw [hbit (j := 4) (k := i - 8) (by omega) (by omega) (by omega)]
      simp [h16, show ¬ i < 8 by omega, show i < 22 by omega]
    · rcases Nat.lt_or_ge i 22 with h22 | h22
      · rw [hbit (j := 5) (k := i - 16) (by omega) (by omega) (by omega)]
        simp [h22, show ¬ i < 8 by omega, show ¬ i < 16 by omega]
      · simp [show ¬ i < 8 by omega, show ¬ i < 16 by omega, show ¬ i < 22 by omega]

/-- Every bit of the resolvable random part has the value exactly when the part is filled. -/
theorem randomPart_iff :
    randomPart bytes = (if value then 0x3fffff else 0) ↔ Uniform bytes 24 46 value := by
  have hfull : ∀ i, i < 32 → (if value then 0x3fffff else 0 : UInt32).toBitVec.getLsbD i =
      (decide (i < 22) && value) := by
    intro i hi
    cases value <;> interval_cases i <;> rfl
  constructor
  · intro h i hi hm
    have hlt : i - 24 < 32 := by omega
    have hbit := @randomPart_bit bytes (i - 24) hlt
    rw [h, hfull _ hlt, show 24 + (i - 24) = i by omega, decide_eq_true (by omega),
      Bool.true_and, Bool.true_and] at hbit
    exact hbit.symm
  · intro h
    refine UInt32.toBitVec_inj.mp (BitVec.eq_of_getLsbD_eq fun i hi => ?_)
    rw [randomPart_bit hi, hfull i hi]
    rcases Nat.lt_or_ge i 22 with h22 | h22
    · rw [h _ (by omega) (by omega)]
    · rw [decide_eq_false (by omega), Bool.false_and, Bool.false_and]

/-- The zero address is uniform. -/
theorem allEqual_zero_iff : allEqual bytes 0 = true ↔
    Uniform bytes 0 46 false ∧ bytes[5] &&& 0xc0 = 0 := by
  rw [← randomPartIsZero_iff]
  have hlast : ∀ k : Fin (2 ^ 8), ((⟨⟨k⟩⟩ : UInt8) = 0) ↔
      (⟨⟨k⟩⟩ : UInt8) &&& 0x3f = 0 ∧ (⟨⟨k⟩⟩ : UInt8) &&& 0xc0 = 0 := by decide +kernel
  have hbyte := hlast bytes[5].toBitVec.toFin
  simp only [allEqual, randomPartIsZero, Bool.and_eq_true, beq_iff_eq, and_assoc]
  exact and_congr_right' (and_congr_right' (and_congr_right' (and_congr_right'
    (and_congr_right' hbyte))))

/-- The two highest bits are those that the masked last byte keeps. -/
theorem subKind_iff {kind : AddressType} :
    subKind bytes = some kind ↔ kind.pattern = some (bytes[5] &&& 0xc0) := by
  have hhigh : bit bytes 47 = bytes[5].toBitVec.getLsbD 7 :=
    bit_of_lt (j := 5) (k := 7) (by decide) (by omega)
  have hnext : bit bytes 46 = bytes[5].toBitVec.getLsbD 6 :=
    bit_of_lt (j := 5) (k := 6) (by decide) (by omega)
  have hbyte : ∀ k : Fin (2 ^ 8),
      (match (BitVec.ofFin k).getLsbD 7, (BitVec.ofFin k).getLsbD 6 with
        | true, true => some AddressType.randomStatic
        | false, true => some .resolvablePrivate
        | false, false => some .nonResolvablePrivate
        | true, false => none) = some kind ↔
      kind.pattern = some ((⟨⟨k⟩⟩ : UInt8) &&& 0xc0) := by cases kind <;> decide +kernel
  rw [subKind, hhigh, hnext]
  exact hbyte bytes[5].toBitVec.toFin

/-- Only one address has a random part of ones below the non-resolvable pattern. -/
theorem onesBelowPrivate_iff :
    bytes[5] &&& 0xc0 = 0 ∧ Uniform bytes 0 46 true ↔ bytes = onesBelowPrivate := by
  have hlast : ∀ k : Fin (2 ^ 8), (⟨⟨k⟩⟩ : UInt8) &&& 0xc0 = 0 ∧ (⟨⟨k⟩⟩ : UInt8) &&& 0x3f = 0x3f ↔
      ((⟨⟨k⟩⟩ : UInt8) = 0x3f) := by decide +kernel
  have hbyte := hlast bytes[5].toBitVec.toFin
  rw [uniform_randomPart, uniform_resolvable]
  constructor
  · rintro ⟨hprivate, h0, h1, h2, h3, h4, h5⟩
    have hones := hbyte.mp ⟨hprivate, h5⟩
    apply Vector.ext
    intro i hi
    interval_cases i
    · exact h0
    · exact h1
    · exact h2
    · exact h3
    · exact h4
    · exact hones
  · rintro rfl
    decide

/-- A sub-kind admits the mixed random parts, and one that is all ones. -/
theorem admits_iff {kind : AddressType} (h : subKind bytes = some kind) :
    kind.Admits bytes ↔ Mixed bytes kind.randomPartStart 46 ∨ bytes = onesBelowPrivate := by
  have htop := subKind_iff.mp h
  rw [← onesBelowPrivate_iff, mixed_iff]
  cases kind with
  | publicDevice => cases htop
  | randomStatic =>
    have hmasked : bytes[5] &&& 0xc0 = 0xc0 := (Option.some.inj htop).symm
    have hzero := @randomPartIsZero_iff bytes
    have hone := @randomPartIsOne_iff bytes
    simp [AddressType.Admits, AddressType.randomPartStart, ← hzero, ← hone, hmasked]
  | resolvablePrivate =>
    have hmasked : bytes[5] &&& 0xc0 = 0x40 := (Option.some.inj htop).symm
    have hzero := @randomPart_iff bytes false
    have hone := @randomPart_iff bytes true
    simp [AddressType.Admits, AddressType.randomPartStart, ← hzero, ← hone, hmasked]
  | nonResolvablePrivate =>
    have hmasked : bytes[5] &&& 0xc0 = 0 := (Option.some.inj htop).symm
    have hzero : allEqual bytes 0 = true ↔ Uniform bytes 0 46 false := by
      rw [allEqual_zero_iff, hmasked]
      simp
    have hboth : Uniform bytes 0 46 true → ¬ Uniform bytes 0 46 false :=
      fun hone hfalse => Bool.noConfusion (hone.value_eq hfalse (by omega))
    simp only [AddressType.Admits, AddressType.randomPartStart, hmasked, true_and,
      ← Bool.not_eq_true, hzero]
    tauto

/-- The accepted addresses are those whose kind is the sub-kind of their bytes. -/
theorem random_eq_some {address : BluetoothAddress} :
    BluetoothAddress.random bytes = some address ↔
      subKind bytes = some address.kind ∧ address.bytes = bytes := by
  rw [subKind_iff]
  constructor
  · intro h
    unfold BluetoothAddress.random BluetoothAddress.randomStatic at h
    split_ifs at h with hstatic ha hresolvable hb hprivate hc
    · cases h
      exact ⟨congrArg some hstatic.symm, rfl⟩
    · cases h
      exact ⟨congrArg some hresolvable.symm, rfl⟩
    · cases h
      exact ⟨congrArg some hprivate.symm, rfl⟩
  · rintro ⟨htop, rfl⟩
    rcases address with ⟨bytes, kind, hadmits⟩
    cases kind with
    | publicDevice => cases htop
    | randomStatic =>
      have hpart := not_or.mpr ⟨Bool.eq_false_iff.mp hadmits.2.1, Bool.eq_false_iff.mp hadmits.2.2⟩
      rw [BluetoothAddress.random, if_pos hadmits.1, BluetoothAddress.randomStatic,
        dif_neg (not_or.mpr ⟨not_not.mpr hadmits.1, hpart⟩)]
    | resolvablePrivate =>
      have hstatic : bytes[5] &&& 0xc0 ≠ 0xc0 := by rw [hadmits.1]; decide
      rw [BluetoothAddress.random, if_neg hstatic, dif_pos hadmits.1,
        dif_neg (not_or.mpr hadmits.2)]
    | nonResolvablePrivate =>
      have hstatic : bytes[5] &&& 0xc0 ≠ 0xc0 := by rw [hadmits.1]; decide
      have hresolvable : bytes[5] &&& 0xc0 ≠ 0x40 := by rw [hadmits.1]; decide
      rw [BluetoothAddress.random, if_neg hstatic, dif_neg hresolvable, dif_pos hadmits.1,
        dif_neg (Bool.eq_false_iff.mp hadmits.2)]

/-- An address is accepted exactly when its sub-kind admits it. -/
theorem random_isSome : (BluetoothAddress.random bytes).isSome = true ↔
    ∃ kind, subKind bytes = some kind ∧ kind.Admits bytes := by
  rw [Option.isSome_iff_exists]
  constructor
  · rintro ⟨address, h⟩
    obtain ⟨hkind, rfl⟩ := random_eq_some.mp h
    exact ⟨address.kind, hkind, address.admitted⟩
  · rintro ⟨kind, hkind, hadmits⟩
    exact ⟨⟨bytes, kind, hadmits⟩, random_eq_some.mpr ⟨hkind, rfl⟩⟩

/-- Static addresses are left to the static validation. -/
theorem random_of_static (h : subKind bytes = some .randomStatic) :
    BluetoothAddress.random bytes = BluetoothAddress.randomStatic bytes :=
  if_pos (Option.some.inj (subKind_iff.mp h)).symm

end Parts

/-- Random addresses are accepted by sub-kind and mixed random part, but for the one whose
random part is all ones below the non-resolvable pattern. -/
theorem classifies_iff (bytes : AddressBytes) :
    Classifies bytes ↔ bytes ≠ onesBelowPrivate := by
  constructor
  · rintro ⟨haccepted, -, -⟩ rfl
    have hkind : subKind onesBelowPrivate = some .nonResolvablePrivate := by decide
    have hsome : (BluetoothAddress.random onesBelowPrivate).isSome = true :=
      random_isSome.mpr ⟨_, hkind, (admits_iff hkind).mpr (Or.inr rfl)⟩
    obtain ⟨kind, hk, hmixed⟩ := haccepted.mp hsome
    cases hkind.symm.trans hk
    exact (mixed_iff.mp hmixed).2 (onesBelowPrivate_iff.mpr rfl).2
  · intro hne
    refine ⟨?_, fun address h => random_eq_some.mp h, random_of_static⟩
    rw [random_isSome]
    constructor
    · rintro ⟨kind, hkind, hadmits⟩
      exact ⟨kind, hkind, ((admits_iff hkind).mp hadmits).resolve_right hne⟩
    · rintro ⟨kind, hkind, hmixed⟩
      exact ⟨kind, hkind, (admits_iff hkind).mpr (Or.inl hmixed)⟩

/-- The non-resolvable branch accepts a random part that is all ones. -/
theorem private_ones_accepted : ¬ Classifies #v[0xff, 0xff, 0xff, 0xff, 0xff, 0x3f] := by
  rintro ⟨haccepted, -, -⟩
  have hsome : (BluetoothAddress.random #v[0xff, 0xff, 0xff, 0xff, 0xff, 0x3f]).isSome = true := by
    decide
  obtain ⟨kind, hkind, -, i, hi, hlt, hbit⟩ := haccepted.mp hsome
  have hones : Uniform #v[0xff, 0xff, 0xff, 0xff, 0xff, 0x3f] 0 46 true :=
    (onesBelowPrivate_iff.mpr rfl).2
  rw [hones i (by omega) hlt] at hbit
  cases hbit

end HisiRfCore.BluetoothAddresses
