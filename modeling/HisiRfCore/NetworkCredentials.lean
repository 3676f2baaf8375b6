import HisiRfCore.WifiTypes

/-!
# Validated names and passphrases

Both are copied into a zero-padded buffer and read back unchanged. A passphrase
is checked by exclusion, control characters and delete are rejected, which is
the printable range only below the eighth bit: longer encodings pass.
-/

namespace HisiRfCore.NetworkCredentials

open SliceCopy WifiTypes

variable {value : List UInt8}

/-- A length that fits a buffer of fewer than 256 bytes is kept by its byte. -/
theorem toNat_length {n : ℕ} (h : value.length ≤ n) (hn : n < 256) :
    (UInt8.ofNat value.length).toNat = value.length := by
  rw [UInt8.toNat_ofNat']
  exact Nat.mod_eq_of_lt (by omega)

/-- A name is accepted when it has from one to 32 bytes, and is read back unchanged. -/
theorem ssid_accepted (value : List UInt8) :
    ((Ssid.tryFromBytes value).isSome = true ↔ 1 ≤ value.length ∧ value.length ≤ 32) ∧
    ∀ ssid, Ssid.tryFromBytes value = some ssid → ssid.asBytes = some value := by
  have hcapacity : ssidCapacity = 32 := rfl
  unfold Ssid.tryFromBytes
  split
  · next h =>
    refine ⟨iff_of_false (by simp) ?_, fun ssid hs => by cases hs⟩
    rintro ⟨hpos, hle⟩
    rcases h with hempty | hlong
    · rw [List.isEmpty_iff.mp hempty] at hpos
      exact absurd hpos (by decide)
    · exact absurd hlong (by omega)
  · next h =>
    obtain ⟨hempty, hlong⟩ := not_or.mp h
    have hle : value.length ≤ 32 := by omega
    have hne : value ≠ [] := fun hn => hempty (by rw [hn]; rfl)
    refine ⟨iff_of_true rfl ⟨List.length_pos_iff.mpr hne, hle⟩, fun ssid hs => ?_⟩
    cases hs
    have hlength := toNat_length hle (by omega)
    rw [Ssid.asBytes, hlength]
    exact sliceTo_padded hle

/-- Printable ASCII. -/
def Printable (byte : UInt8) : Prop := 0x20 ≤ byte ∧ byte ≤ 0x7e

/-- Passphrases are the printable values of 8 to 63 bytes, read back unchanged. -/
def ValidatesAscii (value : List UInt8) : Prop :=
  ((Passphrase.tryFromAscii value).isSome = true ↔
    8 ≤ value.length ∧ value.length ≤ 63 ∧ ∀ byte ∈ value, Printable byte) ∧
  ∀ passphrase, Passphrase.tryFromAscii value = some passphrase →
    passphrase.exposeSecret = some value

/-- The length fits and no byte is a control character, but some byte is past ASCII. -/
def PassesAscii (value : List UInt8) : Prop :=
  8 ≤ value.length ∧ value.length ≤ 63 ∧ (∀ byte ∈ value, 0x20 ≤ byte ∧ byte ≠ 0x7f) ∧
    ∃ byte ∈ value, 0x80 ≤ byte

/-- What the check accepts. -/
theorem tryFromAscii_isSome : (Passphrase.tryFromAscii value).isSome = true ↔
    8 ≤ value.length ∧ value.length ≤ 63 ∧ ∀ byte ∈ value, 0x20 ≤ byte ∧ byte ≠ 0x7f := by
  have hbytes : value.any (fun byte => byte < 32 || byte == 127) = true ↔
      ¬ ∀ byte ∈ value, 0x20 ≤ byte ∧ byte ≠ 0x7f := by
    rw [← Bool.not_eq_false, List.any_eq_false, not_iff_not]
    refine forall₂_congr fun byte _ => ?_
    simp [UInt8.not_lt]
  unfold Passphrase.tryFromAscii
  simp only [hbytes]
  split
  · next h =>
    refine iff_of_false (by simp) ?_
    rintro ⟨hlow, hhigh, hall⟩
    exact h.elim (fun hn => hn ⟨hlow, hhigh⟩) fun hn => hn hall
  · next h =>
    obtain ⟨hlength, hall⟩ := not_or.mp h
    exact iff_of_true rfl ⟨(not_not.mp hlength).1, (not_not.mp hlength).2, not_not.mp hall⟩

/-- An accepted passphrase is read back unchanged. -/
theorem exposeSecret_of_accepted {passphrase : Passphrase}
    (h : Passphrase.tryFromAscii value = some passphrase) :
    passphrase.exposeSecret = some value := by
  unfold Passphrase.tryFromAscii at h
  split at h
  · cases h
  · next hfits =>
    have hle : value.length ≤ 63 := (not_not.mp (not_or.mp hfits).1).2
    cases h
    have hlength := toNat_length hle (by omega)
    rw [Passphrase.exposeSecret, hlength]
    exact sliceTo_padded hle

/-- Below the eighth bit, what is not excluded is printable. -/
theorem printable_iff {byte : UInt8} :
    Printable byte ↔ (0x20 ≤ byte ∧ byte ≠ 0x7f) ∧ ¬ 0x80 ≤ byte := by
  simp only [Printable, UInt8.le_iff_toNat_le, ne_eq, ← UInt8.toNat_inj]
  have h7f : (0x7f : UInt8).toNat = 127 := rfl
  have h80 : (0x80 : UInt8).toNat = 128 := rfl
  have h7e : (0x7e : UInt8).toNat = 126 := rfl
  omega

/-- Passphrases are validated as printable ASCII, but for the values that pass with a byte
past ASCII. -/
theorem validatesAscii_iff (value : List UInt8) : ValidatesAscii value ↔ ¬ PassesAscii value := by
  have hexposes : ∀ passphrase, Passphrase.tryFromAscii value = some passphrase →
      passphrase.exposeSecret = some value := fun _ h => exposeSecret_of_accepted h
  have hprintable : (∀ byte ∈ value, Printable byte) ↔
      (∀ byte ∈ value, 0x20 ≤ byte ∧ byte ≠ 0x7f) ∧ ¬ ∃ byte ∈ value, 0x80 ≤ byte := by
    simp only [printable_iff, not_exists, not_and]
    exact forall₂_and
  rw [ValidatesAscii, and_iff_left hexposes, tryFromAscii_isSome, hprintable, PassesAscii]
  constructor
  · rintro h ⟨hlow, hhigh, hall, hbyte⟩
    exact (h.mp ⟨hlow, hhigh, hall⟩).2.2.2 hbyte
  · intro hn
    constructor
    · rintro ⟨hlow, hhigh, hall⟩
      exact ⟨hlow, hhigh, hall, fun hbyte => hn ⟨hlow, hhigh, hall, hbyte⟩⟩
    · rintro ⟨hlow, hhigh, hall, -⟩
      exact ⟨hlow, hhigh, hall⟩

/-- Eight bytes past ASCII are accepted. -/
theorem latin_passphrase_accepted : ¬ ValidatesAscii (List.replicate 8 0x80) := by
  intro h
  have haccepted : (Passphrase.tryFromAscii (List.replicate 8 0x80)).isSome = true := by decide
  obtain ⟨-, -, hall⟩ := h.1.mp haccepted
  exact absurd (hall 0x80 (by decide)).2 (by decide)

end HisiRfCore.NetworkCredentials
