import HisiRfCore.RadioStorage
import HisiRfCore.WriteOnceRecord

/-!
# Publication of the link-layer identity

The station address is six atomic bytes behind a flag. The runner loads the flag, stores
the bytes and sets the flag; a snapshot loads the flag, then the bytes, and validates
them. Under any interleaving this is the write-once identity of the storage model.
-/

namespace HisiRfCore.CapabilityPublication

open WifiTypes RadioStorage InputOutputMachine WriteOnceRecord

/-- The address of a valid identity is validated again. -/
theorem tryNew_stationMacAddress (capabilities : WifiL2Capabilities) :
    WifiL2Capabilities.tryNew capabilities.stationMacAddress = some capabilities :=
  dif_neg capabilities.unicast

/-- Capabilities as the six bytes of their address, read back through the validation. -/
def capabilityCodec : CellCodec WifiL2Capabilities UInt8 6 where
  encode := WifiL2Capabilities.stationMacAddress
  decode := WifiL2Capabilities.tryNew
  decode_encode := tryNew_stationMacAddress
  blank := Vector.replicate _ 0

/-- One call or access of the runner and the snapshots. -/
abbrev CapabilityInput := RecordInput WifiL2Capabilities

/-- Flag, bytes and calls in progress after an interleaving. -/
def capabilityRun (inputs : List CapabilityInput) : RecordSystem WifiL2Capabilities UInt8 6 :=
  recordRun capabilityCodec inputs

/-- What a snapshot in the order of starts has returned. -/
def snapshotResult (inputs : List CapabilityInput) (slot : ℕ) :
    Option (Option WifiL2Capabilities) :=
  match (capabilityRun inputs).readers[slot]? with
  | some (.returned result) => some result
  | _ => none

/-- Flag and bytes as the storage model has them. -/
def stored (s : RecordSystem WifiL2Capabilities UInt8 6) : L2CapabilityState := ⟨s.valid, s.cells⟩

/-- A snapshot has returned when its reader has. -/
theorem snapshotResult_eq_some {inputs : List CapabilityInput} {slot : ℕ}
    {result : Option WifiL2Capabilities} : snapshotResult inputs slot = some result ↔
      (capabilityRun inputs).readers[slot]? = some (.returned result) := by
  unfold snapshotResult
  split
  · next other h => rw [h, Option.some.injEq, Option.some.injEq, Reader.returned.injEq]
  · next h => exact iff_of_false (by simp) (h result)

/-- The validated contents of the record are the snapshot of the storage model. -/
theorem stored_snapshot (s : RecordSystem WifiL2Capabilities UInt8 6) :
    (stored s).snapshot = contents capabilityCodec s := by
  unfold stored L2CapabilityState.snapshot contents
  cases s.valid <;> rfl

/-- Whatever the interleaving, an access leaves what the storage model would read, or
publishes the first identity as the storage model does in one step. -/
theorem access_refines (inputs : List CapabilityInput) (input : CapabilityInput) :
    (stored (capabilityRun (inputs ++ [input]))).snapshot =
        (stored (capabilityRun inputs)).snapshot ∨
      ∃ capabilities, firstPublished inputs = some capabilities ∧
        (stored (capabilityRun (inputs ++ [input]))).snapshot =
          ((stored (capabilityRun inputs)).publishOnce capabilities).snapshot := by
  have hnext : capabilityRun (inputs ++ [input]) =
      recordStep capabilityCodec (capabilityRun inputs) input := run_concat _ _ _ _
  rw [hnext, stored_snapshot, stored_snapshot]
  rcases contents_step (run_guarded capabilityCodec inputs) input with
    hsame | ⟨hv, capabilities, hfirst, hfilled⟩
  · exact Or.inl hsame
  · refine Or.inr ⟨capabilities, hfirst, ?_⟩
    have hclear : (stored (capabilityRun inputs)).valid = false := hv
    rw [L2CapabilityState.snapshot_publishOnce, hclear, if_neg (by decide)]
    exact hfilled

/-- Under any interleaving of publications and snapshots, byte by byte, a snapshot returns
nothing or the identity of the first publication; and once one has returned it, a snapshot
started afterwards returns nothing else, and has returned it after its eight accesses. -/
theorem snapshots_agree (inputs : List CapabilityInput) :
    (∀ slot result, snapshotResult inputs slot = some result →
      result = none ∨ ∃ capabilities, firstPublished inputs = some capabilities ∧
        result = some capabilities) ∧
    ∀ before after, inputs = before ++ .snapshot :: after → ∀ earlier capabilities,
      snapshotResult before earlier = some (some capabilities) →
      (∀ result, snapshotResult inputs (capabilityRun before).readers.length = some result →
        result = some capabilities) ∧
      (8 ≤ after.countP (RecordInput.accesses (capabilityRun before).readers.length) →
        snapshotResult inputs (capabilityRun before).readers.length =
          some (some capabilities)) := by
  constructor
  · intro slot result h
    rcases returned_first capabilityCodec (snapshotResult_eq_some.mp h) with hnone | ⟨-, hfirst⟩
    · exact Or.inl hnone
    · cases result with
      | none => exact Or.inl rfl
      | some capabilities => exact Or.inr ⟨capabilities, hfirst.symm, rfl⟩
  · rintro before after rfl earlier capabilities h
    obtain ⟨hresult, hreturned⟩ :=
      late_reader_returns capabilityCodec (snapshotResult_eq_some.mp h) after
    refine ⟨fun result hr => hresult result (snapshotResult_eq_some.mp hr), fun hcount => ?_⟩
    exact snapshotResult_eq_some.mpr (hreturned hcount)

end HisiRfCore.CapabilityPublication
