import Mathlib.Data.Vector.Basic

/-!
# Copies between slices

A copy overwrites the first entries of a destination with those of a source and
leaves the rest. A fixed buffer is filled by a copy over padding, and its slice
up to the copied length is the source again; a slice past its end does not exist.
-/

namespace HisiRfCore.SliceCopy

variable {α : Type} {n count : ℕ}

/-- The destination after a copy of the first entries of the source. -/
def copied (count : ℕ) (source destination : List α) : List α :=
  source.take count ++ destination.drop count

/-- Slice up to a length, which panics past the end of the buffer. -/
def sliceTo (buffer : Vector α n) (count : ℕ) : Option (List α) :=
  if count ≤ n then some (buffer.toList.take count) else none

section Copied

variable {source destination : List α}

theorem length_copied (hs : count ≤ source.length) (hd : count ≤ destination.length) :
    (copied count source destination).length = destination.length := by
  rw [copied, List.length_append, List.length_take, List.length_drop]
  omega

/-- The copied entries are those of the source. -/
theorem take_copied (hs : count ≤ source.length) :
    (copied count source destination).take count = source.take count := by
  have hlength : (source.take count).length = count := by
    rw [List.length_take]
    omega
  exact List.take_left' hlength

/-- The other entries keep their place. -/
theorem drop_copied (hs : count ≤ source.length) :
    (copied count source destination).drop count = destination.drop count := by
  have hlength : (source.take count).length = count := by
    rw [List.length_take]
    omega
  exact List.drop_left' hlength

end Copied

/-- A buffer of padding after a copy of the whole value. -/
def padded (padding : α) (value : List α) (h : value.length ≤ n) : Vector α n :=
  ⟨(copied value.length value (List.replicate n padding)).toArray, by
    rw [List.size_toArray, length_copied (by omega) (by rw [List.length_replicate]; exact h),
      List.length_replicate]⟩

/-- The slice of a padded buffer up to the copied length is the value. -/
theorem sliceTo_padded {padding : α} {value : List α} (h : value.length ≤ n) :
    sliceTo (padded padding value h) value.length = some value := by
  have htake : (copied value.length value (List.replicate n padding)).take value.length =
      value.take value.length := take_copied (Nat.le_refl value.length)
  rw [List.take_length] at htake
  rw [sliceTo, if_pos h]
  exact congrArg some htake

end HisiRfCore.SliceCopy
