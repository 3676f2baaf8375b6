import HisiRfCore.BoundedChannel
import HisiRfCore.WifiTypes

/-!
# State shared by the controller and the runner

Bounded channels, the completion signal, the counters, the published link-layer
identity and the scan buffer. The four parts that carry commands, cancellations
and completions form the mailbox; publishing an event, an identity or a counter
leaves the mailbox alone.
-/

namespace HisiRfCore.RadioStorage

open BoundedChannel WifiTypes

/-- Increment that stays at the largest word. -/
def saturatingIncrement (counter : UInt32) : UInt32 :=
  if counter.toNat + 1 < UInt32.size then counter + 1 else counter

/-- Observational counters for the incremental runner. -/
structure IncrementalRunnerDiagnostics where
  /-- Calls to `run_once`. -/
  runOnceCalls : UInt32
  /-- Calls that supplied command readiness. -/
  commandReadyBatches : UInt32
  /-- Calls that supplied backend readiness. -/
  backendReadyBatches : UInt32
  /-- Calls that supplied L2 receive readiness. -/
  l2RxReadyBatches : UInt32
  /-- Calls that supplied timer readiness. -/
  timerReadyBatches : UInt32
  /-- Wait futures that were first polled. -/
  waitReadyCalls : UInt32
  /-- Wait futures that returned a ready set. -/
  waitReadyCompletions : UInt32
  /-- Wait futures that returned because work was already runnable. -/
  immediateReadyCompletions : UInt32
  /-- Wait futures that failed closed. -/
  waitReadyErrors : UInt32
  /-- Backend operations accepted by the driver. -/
  operationsStarted : UInt32
  /-- Cancellation requests delivered to the backend. -/
  cancellationsRequested : UInt32
  /-- Polls that remained pending within their grant. -/
  pendingPolls : UInt32
  /-- Polls that consumed their complete grant. -/
  budgetExhaustions : UInt32
  /-- Operations that completed successfully. -/
  operationsCompleted : UInt32
  /-- Operations that reached the cancelled terminal state. -/
  operationsCancelled : UInt32
  /-- Operations that reached the failed terminal state. -/
  operationsFailed : UInt32
  /-- Internal driver transition failures. -/
  driverErrors : UInt32
  /-- Publication or command-ledger failures. -/
  protocolErrors : UInt32
  deriving DecidableEq

/-- All counters at zero. -/
def IncrementalRunnerDiagnostics.empty : IncrementalRunnerDiagnostics :=
  ⟨0, 0, 0, 0, 0, 0, 0, 0, 0, 0, 0, 0, 0, 0, 0, 0, 0, 0⟩

/-- Link-layer identity that only the first publication writes. -/
structure L2CapabilityState where
  /-- An identity was published. -/
  valid : Bool
  /-- Published address, zero before. -/
  stationMacAddress : MacAddress
  deriving DecidableEq

namespace L2CapabilityState

/-- No identity published. -/
def new : L2CapabilityState := ⟨false, Vector.replicate _ 0⟩

/-- Publish an identity unless one was published before. -/
def publishOnce (capabilities : WifiL2Capabilities) (state : L2CapabilityState) :
    L2CapabilityState :=
  if state.valid then state else ⟨true, capabilities.stationMacAddress⟩

/-- Read the published identity back through its validation. -/
def snapshot (state : L2CapabilityState) : Option WifiL2Capabilities :=
  if !state.valid then none else WifiL2Capabilities.tryNew state.stationMacAddress

/-- The first publication is the one every later snapshot reads. -/
theorem snapshot_publishOnce (capabilities : WifiL2Capabilities) (state : L2CapabilityState) :
    (state.publishOnce capabilities).snapshot =
      if state.valid then state.snapshot else some capabilities := by
  unfold publishOnce
  split
  · rfl
  · simp [snapshot, WifiL2Capabilities.tryNew, capabilities.unicast]

end L2CapabilityState

/-- Static storage shared by the controller and the one runner. -/
structure SharedState (eventCapacity : ℕ) where
  /-- Commands from the controller. -/
  commands : Channel Command 1
  /-- Sequences of dropped control futures. -/
  cancellations : Channel UInt32 3
  /-- Latest completion of the runner. -/
  completion : Signal Completion
  /-- Events for the application. -/
  events : Channel WifiEvent eventCapacity
  /-- Events accepted from the runner. -/
  acceptedEvents : UInt32
  /-- Events taken by the controller. -/
  consumedEvents : UInt32
  /-- Events dropped because the queue was full. -/
  droppedEvents : UInt32
  /-- Largest observed event occupancy. -/
  eventHighWater : UInt32
  /-- Largest observed command occupancy. -/
  commandHighWater : UInt32
  /-- Calls of the blocking runner. -/
  runOnceCalls : UInt32
  /-- Commands handed to a blocking backend. -/
  commandsProcessed : UInt32
  /-- Background polls of a blocking backend. -/
  backendPollCalls : UInt32
  /-- Background polls that did work. -/
  backendPollWorkBatches : UInt32
  /-- Background polls that failed. -/
  backendPollErrors : UInt32
  /-- Calls that asked to be repeated at once. -/
  immediateRepollHints : UInt32
  /-- Counters published by the incremental runner. -/
  incrementalDiagnostics : IncrementalRunnerDiagnostics
  /-- Published link-layer identity. -/
  l2Capabilities : L2CapabilityState
  /-- Runner-owned scan buffer. -/
  scanResults : ScanBuffer
  /-- The constructor asserts a non-empty event queue. -/
  capacity_pos : 0 < eventCapacity

/-- The channels and the buffer that carry commands and their results. -/
structure Mailbox where
  /-- Commands from the controller. -/
  commands : Channel Command 1
  /-- Sequences of dropped control futures. -/
  cancellations : Channel UInt32 3
  /-- Latest completion of the runner. -/
  completion : Signal Completion
  /-- Runner-owned scan buffer. -/
  scanResults : ScanBuffer

variable {eventCapacity : ℕ}

namespace SharedState

/-- Unclaimed storage with a non-empty event queue. -/
def new (h : 0 < eventCapacity) : SharedState eventCapacity where
  commands := .new
  cancellations := .new
  completion := .new
  events := .new
  acceptedEvents := 0
  consumedEvents := 0
  droppedEvents := 0
  eventHighWater := 0
  commandHighWater := 0
  runOnceCalls := 0
  commandsProcessed := 0
  backendPollCalls := 0
  backendPollWorkBatches := 0
  backendPollErrors := 0
  immediateRepollHints := 0
  incrementalDiagnostics := .empty
  l2Capabilities := .new
  scanResults := Vector.replicate _ .empty
  capacity_pos := h

/-- The mailbox of the shared state. -/
def mailbox (shared : SharedState eventCapacity) : Mailbox :=
  ⟨shared.commands, shared.cancellations, shared.completion, shared.scanResults⟩

/-- Record the occupancy of the event queue. -/
def recordEventDepth (shared : SharedState eventCapacity) : SharedState eventCapacity :=
  {shared with
    eventHighWater := max shared.eventHighWater (.ofNat (min shared.events.queued.length
      (UInt32.size - 1)))}

/-- Publish an event, dropping the oldest queued one when the queue is full. -/
def publishEvent (event : WifiEvent) (shared : SharedState eventCapacity) :
    SharedState eventCapacity :=
  match shared.events.trySend event with
  | (.ok (), events) =>
    recordEventDepth {shared with
      events := events, acceptedEvents := saturatingIncrement shared.acceptedEvents}
  | (.error event, events) =>
    match events.tryReceive.2.trySend event with
    | (.ok (), events) =>
      recordEventDepth {shared with
        events := events
        droppedEvents := saturatingIncrement shared.droppedEvents
        acceptedEvents := saturatingIncrement shared.acceptedEvents}
    | (.error _, events) =>
      recordEventDepth {shared with
        events := events, droppedEvents := saturatingIncrement shared.droppedEvents}

/-- Record that a command entered the channel. -/
def recordCommandAccepted (shared : SharedState eventCapacity) : SharedState eventCapacity :=
  {shared with commandHighWater := max shared.commandHighWater 1}

/-- Signal a completion. -/
def signalCompletion (sequence : UInt32) (kind : CompletionKind)
    (shared : SharedState eventCapacity) : SharedState eventCapacity :=
  {shared with completion := shared.completion.signal ⟨sequence, kind⟩}

/-- Publish the link-layer identity of an initialized backend, if it has one. -/
def publishCapabilities (capabilities : Option WifiL2Capabilities)
    (shared : SharedState eventCapacity) : SharedState eventCapacity :=
  match capabilities with
  | some capabilities =>
    {shared with l2Capabilities := shared.l2Capabilities.publishOnce capabilities}
  | none => shared

/-- Publishing an event leaves the mailbox alone. -/
@[simp] theorem publishEvent_mailbox (event : WifiEvent) (shared : SharedState eventCapacity) :
    (shared.publishEvent event).mailbox = shared.mailbox := by
  unfold publishEvent
  split
  · rfl
  · split <;> rfl

/-- Publishing an identity leaves the mailbox alone. -/
@[simp] theorem publishCapabilities_mailbox (capabilities : Option WifiL2Capabilities)
    (shared : SharedState eventCapacity) :
    (shared.publishCapabilities capabilities).mailbox = shared.mailbox := by
  cases capabilities <;> rfl

/-- Every published event enters the queue, whether or not an older one is dropped. -/
theorem publishEvent_sent (event : WifiEvent) (shared : SharedState eventCapacity) :
    (shared.publishEvent event).events.sent = shared.events.sent ++ [event] := by
  unfold publishEvent
  by_cases h : shared.events.queued.length < eventCapacity
  · obtain ⟨events, hx, hs, -⟩ := trySend_accepted event h
    rw [hx]
    exact hs
  · rw [trySend_of_full h]
    dsimp only
    have hroom := tryReceive_room shared.events shared.capacity_pos
    obtain ⟨events, hx, hs, -⟩ := trySend_accepted event hroom
    rw [hx]
    rw [tryReceive_sent] at hs
    exact hs

/-- Publishing an event leaves the published identity alone. -/
@[simp] theorem publishEvent_l2Capabilities (event : WifiEvent)
    (shared : SharedState eventCapacity) :
    (shared.publishEvent event).l2Capabilities = shared.l2Capabilities := by
  unfold publishEvent
  split
  · rfl
  · split <;> rfl

end SharedState

end HisiRfCore.RadioStorage
