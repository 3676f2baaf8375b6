import HisiRfCore.BlockingAbandonment
import HisiRfCore.IncrementalService

/-!
# Capacity of the cancellation channel

With either runner the three entries of the cancellation channel are enough: the
queued cancellations and the armed guard are bounded by the queued command and by
the one command a runner received and did not yet look for. The count needs no
order of the sequences, so it holds past the wrap of the counter as well.
-/

namespace HisiRfCore.CancellationCapacity

open BoundedChannel WifiTypes RadioStorage AsyncControl ServiceProtocol ServiceDelivery
open BlockingRunner BlockingAbandonment IncrementalContract IncrementalService

variable {B I E F : Type} {eventCapacity : ℕ}

/-- No drop of a control future is lost to a full cancellation channel. -/
structure KeepsDrops (plane : ControlPlane) (shared : SharedState eventCapacity) : Prop where
  /-- The channel holds at most three cancellations. -/
  bounded : shared.cancellations.queued.length ≤ 3
  /-- A drop of the outstanding future would be accepted. -/
  accepted : ∀ command, plane.future.armed = some command →
    (shared.cancellations.trySend command.sequence).1 = .ok ()
  /-- Every drop so far was accepted, in order. -/
  delivered : shared.cancellations.sent = plane.dropped

/-- The counted service keeps every drop. -/
theorem keepsDrops_of_counted {plane : ControlPlane} {shared : SharedState eventCapacity}
    {inflight : List Command} {owing : Bool} {answered : List (Command × CompletionKind)}
    (h : Counted plane ⟨shared.mailbox, inflight, owing, answered⟩) : KeepsDrops plane shared where
  bounded := shared.cancellations.bounded
  accepted := by
    intro command hf
    have hroom : shared.cancellations.queued.length < 3 := h.room hf
    exact (trySend_of_lt hroom).1
  delivered := h.delivered

variable [WifiBackend B] [IncrementalWifiBackend I]

/-- With either runner and any interleaving the cancellation of a dropped control
future is never discarded. -/
theorem drop_never_discarded (hpos : 0 < eventCapacity) (config : WifiConfig) :
    (∀ (interrupt : E → B → B) (backend : B) (inputs : List (BlockingInput E)),
      KeepsDrops (blockingRun interrupt backend config hpos inputs).plane
        (blockingRun interrupt backend config hpos inputs).frame.shared) ∧
    ∀ (interrupt : F → I → I) (backend : I) (budget : WorkBudget)
      (inputs : List (IncrementalInterleaving.IncrementalInput F)),
      KeepsDrops (incrementalRun interrupt backend budget config hpos inputs).plane
        (incrementalRun interrupt backend budget config hpos inputs).frame.shared := by
  constructor
  · intro interrupt backend inputs
    obtain ⟨t, hs, hb⟩ := simulated_bounded (blockingMachine interrupt)
      (R := BlockingService.Simulates)
      (fun _ _ i hs _ => BlockingService.simulates_step interrupt hs i)
      (BlockingService.simulates_start backend config hpos) inputs
    have hc := hb.counted
    rw [Service.view, hs.plane, hs.shared] at hc
    exact keepsDrops_of_counted hc
  · intro interrupt backend budget inputs
    obtain ⟨t, hs, hb⟩ := @run_bounded _ _ _ _ interrupt backend budget config hpos inputs
    have hc := hb.counted
    rw [Service.view, hs.plane, hs.shared] at hc
    exact keepsDrops_of_counted hc

/-- A drop behind a queued command, with an event queue of one entry. -/
theorem drop_never_discarded_scripted :
    KeepsDrops (scriptedRun (queuedDrop ++ [.control .drop])).plane
        (scriptedRun (queuedDrop ++ [.control .drop])).frame.shared ∧
      (scriptedRun (queuedDrop ++ [.control .drop])).plane.dropped = [1] := by
  have h := @drop_never_discarded ScriptedBackend DriverCalls.ReplayBackend Unit Unit 1 _ _
    Nat.one_pos .default
  exact ⟨h.1 (fun _ backend => backend) ⟨[]⟩ _, by decide +kernel⟩

end HisiRfCore.CancellationCapacity
