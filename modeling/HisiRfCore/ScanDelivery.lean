import HisiRfCore.AsyncControl

/-!
# Delivery of scan results

A finished scan copies from the runner's buffer of 32 entries into a caller
buffer of any length. The copy is clamped against the caller's buffer alone, so
a reported count past the runner's buffer is delivered to a short caller buffer
only; into a long one the copy panics and the guard is dropped armed.
-/

namespace HisiRfCore.ScanDelivery

open BoundedChannel WifiTypes RadioStorage AsyncControl SliceCopy

variable {eventCapacity : ℕ}

/-- A scan that waits for its answer takes it and finishes. -/
def scanAnswered (plane : ControlPlane) (shared : SharedState eventCapacity) (sequence : UInt32)
    (config : ScanConfig) (output : List ScanResult) (backend : ScanOutcome) :
    ControlPlane × SharedState eventCapacity :=
  let waiting := {plane with future := .waiting sequence (.scan config output)}
  let answered := shared.signalCompletion sequence (.scan (.ok backend))
  let (plane, shared) := waiting.step answered .observe
  plane.step shared .finish

/-- The scan resolves, with a count within all three lengths, the runner's entries before it
and the caller's after it, and truncation reported when entries are missing. -/
def ScanDelivers (plane : ControlPlane) (shared : SharedState eventCapacity) (sequence : UInt32)
    (config : ScanConfig) (output : List ScanResult) (backend : ScanOutcome) : Prop :=
  ∃ count truncated entries,
    (scanAnswered plane shared sequence config output backend).1.future = .idle ∧
    (scanAnswered plane shared sequence config output backend).1.resolved =
      plane.resolved ++ [⟨sequence, .scan config output, .scan (.ok backend),
        .scan (.ok ⟨count, truncated⟩) entries⟩] ∧
    (count ≤ backend.count ∧ count ≤ output.length ∧ count ≤ maxScanResults) ∧
    (entries.length = output.length ∧ entries.take count = shared.scanResults.toList.take count ∧
      entries.drop count = output.drop count) ∧
    (truncated = true ↔ backend.truncated = true ∨ count < backend.count)

section Answers

variable (plane : ControlPlane) (shared : SharedState eventCapacity) (sequence : UInt32)
  (config : ScanConfig) (output : List ScanResult) (backend : ScanOutcome)

/-- The answer is taken, and the call finishes with it. -/
theorem scanAnswered_eq : scanAnswered plane shared sequence config output backend =
    ({plane with future := .finishing sequence (.scan config output) (.scan (.ok backend))} :
      ControlPlane).finishCall sequence (.scan config output) (.scan (.ok backend))
      {shared with completion :=
        ⟨none, shared.completion.written ++ [⟨sequence, .scan (.ok backend)⟩]⟩} := by
  simp only [scanAnswered, ControlPlane.step, ControlPlane.observeCompletion,
    SharedState.signalCompletion, Signal.signal, Signal.tryTake, if_pos]

variable {output backend}

/-- A count within the runner's buffer is copied. -/
theorem scanAnswered_of_le (h : min backend.count output.length ≤ maxScanResults) :
    scanAnswered plane shared sequence config output backend =
      ({plane with
        future := .idle
        resolved := plane.resolved ++ [⟨sequence, .scan config output, .scan (.ok backend),
          .scan (.ok ⟨min backend.count output.length,
              backend.truncated || backend.count > output.length⟩)
            (copied (min backend.count output.length) shared.scanResults.toList output)⟩]},
        {shared with completion :=
          ⟨none, shared.completion.written ++ [⟨sequence, .scan (.ok backend)⟩]⟩}) := by
  rw [scanAnswered_eq]
  simp only [ControlPlane.finishCall, ControlCall.resolve, if_pos h]
  rfl

/-- A count past the runner's buffer panics in the copy: nothing resolves. -/
theorem scanAnswered_of_gt (h : ¬ min backend.count output.length ≤ maxScanResults) :
    (scanAnswered plane shared sequence config output backend).1.resolved = plane.resolved := by
  rw [scanAnswered_eq]
  simp only [ControlPlane.finishCall, ControlCall.resolve, if_neg h, ControlPlane.dropGuard]

end Answers

/-- A scan delivers exactly when the reported count or the caller's buffer is within the
runner's buffer. -/
theorem scan_delivers_iff (plane : ControlPlane) (shared : SharedState eventCapacity)
    (sequence : UInt32) (config : ScanConfig) (output : List ScanResult) (backend : ScanOutcome) :
    ScanDelivers plane shared sequence config output backend ↔
      backend.count ≤ maxScanResults ∨ output.length ≤ maxScanResults := by
  have hmin : min backend.count output.length ≤ maxScanResults ↔
      backend.count ≤ maxScanResults ∨ output.length ≤ maxScanResults := by omega
  rw [← hmin]
  constructor
  · rintro ⟨count, truncated, entries, -, hresolved, -⟩
    by_contra h
    rw [scanAnswered_of_gt plane shared sequence config h] at hresolved
    have hlength := congrArg List.length hresolved
    rw [List.length_append, List.length_singleton] at hlength
    omega
  · intro h
    have hsource : min backend.count output.length ≤ shared.scanResults.toList.length := by
      rw [Vector.length_toList]
      exact h
    have hdestination : min backend.count output.length ≤ output.length := Nat.min_le_right _ _
    refine ⟨min backend.count output.length, backend.truncated || backend.count > output.length,
      copied (min backend.count output.length) shared.scanResults.toList output, ?_, ?_,
      ⟨Nat.min_le_left _ _, hdestination, h⟩,
      ⟨length_copied hsource hdestination, take_copied hsource, drop_copied hsource⟩, ?_⟩
    · rw [scanAnswered_of_le plane shared sequence config h]
    · rw [scanAnswered_of_le plane shared sequence config h]
    · rw [Bool.or_eq_true, decide_eq_true_iff]
      exact or_congr_right (by omega)

/-- Of 33 reported entries none is delivered into a caller buffer of 33. -/
theorem overreported_scan_panics :
    ¬ ScanDelivers .new (.new Nat.one_pos : SharedState 1) 1 ⟨⟨1000, by decide⟩⟩
      (List.replicate 33 .empty) ⟨33, false⟩ := by
  rintro ⟨count, truncated, entries, -, hresolved, -⟩
  have hpanics : ¬ min 33 (List.replicate 33 ScanResult.empty).length ≤ maxScanResults := by decide
  rw [scanAnswered_of_gt _ _ _ _ hpanics] at hresolved
  have hlength := congrArg List.length hresolved
  rw [List.length_append, List.length_singleton] at hlength
  omega

end HisiRfCore.ScanDelivery
