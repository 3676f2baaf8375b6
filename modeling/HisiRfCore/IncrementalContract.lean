import HisiRfCore.NonZeroCounter
import HisiRfCore.StateBorrow
import HisiRfCore.WifiTypes

/-!
# Incremental backend contract

Operation identities, the single-slot operation tracker, wake sources, work
reports and the backend trait of the incremental runner. A method that the
source declares on `&mut self` returning a result is an `EStateM` program here.
-/

namespace HisiRfCore.IncrementalContract

open NonZeroCounter StateBorrow WifiTypes

/-- Identity of one backend operation slot and its current generation. -/
structure OperationId where
  /-- Operation slot selected by the runner. -/
  slot : UInt8
  /-- Non-zero generation for this use of the slot. -/
  generation : NonZeroU32
  deriving DecidableEq

/-- Lifecycle of the single operation tracked by a runner slot. -/
inductive OperationLifecycle
  | queued | started | cancelRequested | terminal
  deriving DecidableEq

/-- Rejection of an operation lifecycle transition. -/
inductive OperationStateError
  | busy | stale | invalidTransition | alreadyTerminal
  deriving DecidableEq

/-- Whether a cancellation request changed the operation state. -/
inductive CancelOutcome
  | requested | alreadyRequested
  deriving DecidableEq

/-- Single-slot operation state machine. -/
structure OperationTracker where
  /-- Last generation allocated, zero before the first. -/
  nextGeneration : UInt32
  /-- Operation owning the slot. -/
  current : Option (OperationId × OperationLifecycle)
  deriving DecidableEq

namespace OperationTracker

/-- Construct an idle tracker. -/
def new : OperationTracker := ⟨0, none⟩

/-- Identity the next accepted queue call allocates in a slot. -/
def nextId (tracker : OperationTracker) (slot : UInt8) : OperationId :=
  ⟨slot, ⟨advance tracker.nextGeneration, advance_ne_zero _⟩⟩

/-- Queue a new operation and allocate its identity generation. -/
def queue (slot : UInt8) : EStateM OperationStateError OperationTracker OperationId := fun tracker =>
  if tracker.current.isSome then .error .busy tracker
  else
    let id := tracker.nextId slot
    .ok id ⟨advance tracker.nextGeneration, some (id, .queued)⟩

/-- Lifecycle of an identity, rejecting stale ones. -/
def lifecycle (id : OperationId) :
    EStateM OperationStateError OperationTracker OperationLifecycle := fun tracker =>
  match tracker.current with
  | none => .error .stale tracker
  | some (current, lifecycle) =>
    if current ≠ id then .error .stale tracker else .ok lifecycle tracker

/-- Write through the mutable borrow that `lifecycle_mut` returns. -/
def setLifecycle (lifecycle : OperationLifecycle) :
    EStateM OperationStateError OperationTracker Unit :=
  modify fun tracker =>
    {tracker with current := tracker.current.map fun current => (current.1, lifecycle)}

/-- Mark a queued operation as accepted by the backend. -/
def markStarted (id : OperationId) : EStateM OperationStateError OperationTracker Unit := do
  let lifecycle ← lifecycle id
  if lifecycle ≠ .queued then throw .invalidTransition
  setLifecycle .started

/-- Request cancellation without committing a terminal result. -/
def requestCancel (id : OperationId) :
    EStateM OperationStateError OperationTracker CancelOutcome := do
  let lifecycle ← lifecycle id
  match lifecycle with
  | .queued | .started => do
    setLifecycle .cancelRequested
    pure .requested
  | .cancelRequested => pure .alreadyRequested
  | .terminal => throw .alreadyTerminal

/-- Commit the sole terminal result; says whether cancellation was pending. -/
def commitTerminal (id : OperationId) : EStateM OperationStateError OperationTracker Bool := do
  let lifecycle ← lifecycle id
  let cancelled ← match lifecycle with
    | .started => pure false
    | .cancelRequested => pure true
    | .queued => throw .invalidTransition
    | .terminal => throw .alreadyTerminal
  setLifecycle .terminal
  pure cancelled

/-- Mark a queued request terminal when the backend rejects `start`. -/
def rejectQueued (id : OperationId) : EStateM OperationStateError OperationTracker Unit := do
  let lifecycle ← lifecycle id
  if lifecycle ≠ .queued then throw .invalidTransition
  setLifecycle .terminal

/-- Release a collected terminal operation so the slot may be reused. -/
def reap (id : OperationId) : EStateM OperationStateError OperationTracker Unit := do
  let lifecycle ← lifecycle id
  if lifecycle ≠ .terminal then throw .invalidTransition
  modify fun tracker => {tracker with current := none}

/-- Queueing succeeds exactly when the slot is free. -/
theorem queue_of_none {tracker : OperationTracker} (h : tracker.current = none) (slot : UInt8) :
    queue slot tracker =
      .ok (tracker.nextId slot)
        ⟨advance tracker.nextGeneration, some (tracker.nextId slot, .queued)⟩ := by
  simp [queue, h]

/-- The owner of the slot reads its own lifecycle. -/
theorem lifecycle_of_current {tracker : OperationTracker} {id : OperationId}
    {state : OperationLifecycle} (h : tracker.current = some (id, state)) :
    lifecycle id tracker = .ok state tracker := by
  simp [lifecycle, h]

/-- Writing the lifecycle keeps the owner. -/
theorem setLifecycle_of_current {tracker : OperationTracker} {id : OperationId}
    {state : OperationLifecycle} (h : tracker.current = some (id, state))
    (next : OperationLifecycle) :
    setLifecycle next tracker = .ok () {tracker with current := some (id, next)} := by
  simp [setLifecycle, h]

end OperationTracker

/-- Upper bound granted to one incremental backend poll. -/
structure WorkBudget where
  /-- Maximum backend events consumed by one poll. -/
  maxEvents : UInt16
  /-- Maximum elapsed backend time in microseconds for one poll. -/
  maxTimeUs : UInt32
  /-- Both bounds are non-zero. -/
  nonempty : maxEvents ≠ 0 ∧ maxTimeUs ≠ 0
  deriving DecidableEq

/-- Wake sources that an idle radio runner may wait on together. -/
structure WaitSet where
  /-- Stable machine-readable bits. -/
  bits : UInt8
  /-- A set is built from the five sources alone. -/
  known : bits.toNat < 2 ^ 5
  deriving DecidableEq

namespace WaitSet

/-- A controller command entered the command queue. -/
def command : WaitSet := ⟨1, by decide⟩

/-- A backend callback or deferred IRQ made protocol work ready. -/
def backend : WaitSet := ⟨2, by decide⟩

/-- Link-layer receive work is ready. -/
def l2Rx : WaitSet := ⟨4, by decide⟩

/-- The next backend deadline elapsed. -/
def timer : WaitSet := ⟨8, by decide⟩

/-- A dropped control future requested cancellation. -/
def cancel : WaitSet := ⟨16, by decide⟩

/-- An empty set, used when another poll should happen immediately. -/
def empty : WaitSet := ⟨0, by decide⟩

/-- Combine independent wake sources. -/
def union (a b : WaitSet) : WaitSet :=
  ⟨a.bits ||| b.bits, by
    rw [UInt8.toNat_or]
    exact Nat.or_lt_two_pow a.known b.known⟩

/-- Test whether all sources in the second set are present. -/
def contains (a b : WaitSet) : Bool := a.bits &&& b.bits == b.bits

/-- Test whether the set has no wake sources. -/
def isEmpty (a : WaitSet) : Bool := a.bits == 0

/-- Remove every source present in the second set. -/
def without (a b : WaitSet) : WaitSet :=
  ⟨a.bits &&& ~~~b.bits, by
    rw [UInt8.toNat_and]
    exact Nat.lt_of_le_of_lt Nat.and_le_left a.known⟩

end WaitSet

/-- One wake source selected for the next bounded runner step. -/
inductive WakeReason
  | command | backend | l2Rx | timer
  deriving DecidableEq

namespace WakeReason

/-- Number of wake reasons the selector rotates over. -/
def count : UInt8 := 4

/-- Wake reason at a rotation index. -/
def fromIndex (index : UInt8) : WakeReason :=
  match index with
  | 0 => .command
  | 1 => .backend
  | 2 => .l2Rx
  | _ => .timer

/-- Rotation index of a wake reason. -/
def index : WakeReason → UInt8
  | .command => 0
  | .backend => 1
  | .l2Rx => 2
  | .timer => 3

/-- Wait-set bit of a wake reason. -/
def bit (reason : WakeReason) : UInt8 := 1 <<< reason.index

end WakeReason

/-- Request moved into an incremental backend. -/
inductive IncrementalRequest
  | initialise (config : WifiConfig)
  | scan (config : ScanConfig)
  | connect (config : StationConfig)
  | disconnect (config : WifiConfig)
  deriving DecidableEq

/-- Typed successful terminal result from an incremental backend. -/
inductive IncrementalCompletion
  | initialized
  | scan (outcome : ScanOutcome)
  | connected (info : ConnectionInfo)
  | disconnected
  deriving DecidableEq

/-- Discriminant of a typed success. -/
def IncrementalCompletion.tag : IncrementalCompletion → CommandKindTag
  | .initialized => .initialise
  | .scan _ => .scan
  | .connected _ => .connect
  | .disconnected => .disconnect

/-- State returned by one bounded backend poll. -/
inductive PollDisposition
  | pending (waitFor : WaitSet)
  | complete (completion : IncrementalCompletion)
  | cancelled
  | budgetExhausted (waitFor : WaitSet)
  deriving DecidableEq

/-- Accounting for one backend poll. Any combination of fields is allowed here,
which includes every report the source's constructor accepts. -/
structure WorkReport where
  /-- Operation identity advanced by this report. -/
  operation : OperationId
  /-- Number of backend events consumed by this poll. -/
  consumedEvents : UInt16
  /-- Backend-measured elapsed time in microseconds. -/
  elapsedUs : UInt32
  /-- Whether this poll reached or overran its elapsed-time grant. -/
  timeBudgetExhausted : Bool
  /-- Whether the backend changed protocol-visible state. -/
  madeProgress : Bool
  /-- Pending, complete, or cancelled result. -/
  disposition : PollDisposition
  deriving DecidableEq

/-- Bounded backend trait; every method passes the backend's own state on, and
`poll` also writes the scan buffer it borrows. -/
class IncrementalWifiBackend (B : Type) where
  /-- Accept an operation identity and owned request without external work. -/
  start : B → OperationId → IncrementalRequest → Except BackendError Unit × B
  /-- Advance one operation without exceeding the budget. -/
  poll : {n : ℕ} → B → OperationId → WakeReason → WorkBudget → Vector ScanResult n →
    Except BackendError WorkReport × B × Vector ScanResult n
  /-- Record cancellation without external work. -/
  cancel : B → OperationId → Except BackendError Unit × B
  /-- Monotonic deadline for the next timer wake, in microseconds. -/
  nextDeadlineUs : B → OperationId → Option UInt64
  /-- Snapshot immutable L2 identity after initialization completes. -/
  l2Capabilities : B → Option WifiL2Capabilities := fun _ => none

end HisiRfCore.IncrementalContract
