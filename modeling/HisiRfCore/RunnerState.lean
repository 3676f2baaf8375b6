import HisiRfCore.IncrementalContract

/-!
# Deterministic runner state machine

The runner state joins the operation tracker, the fair wake selector and the
wait set of the current operation. It neither owns nor calls a backend: the
driver executes the selected step and feeds the bounded report back.
-/

namespace HisiRfCore.RunnerState

open NonZeroCounter StateBorrow WifiTypes IncrementalContract

/-- Round-robin selector shared by command, backend, L2, and timer work. -/
structure FairWakeSelector where
  /-- Preferred rotation index of the next choice. -/
  next : UInt8
  deriving DecidableEq

namespace FairWakeSelector

/-- A selector whose first choice is the command plane. -/
def new : FairWakeSelector := ⟨0⟩

/-- The selection loop over the remaining rotation offsets. -/
def selectFrom (selector : FairWakeSelector) (eligible : UInt8) :
    List UInt8 → Option WakeReason × FairWakeSelector
  | [] => (none, selector)
  | offset :: rest =>
    let index := (selector.next + offset) % WakeReason.count
    let reason := WakeReason.fromIndex index
    if eligible &&& reason.bit ≠ 0 then (some reason, ⟨(index + 1) % WakeReason.count⟩)
    else selector.selectFrom eligible rest

/-- Select one subscribed ready source and rotate the next preference. -/
def select (subscribed ready : WaitSet) (selector : FairWakeSelector) :
    Option WakeReason × FairWakeSelector :=
  selector.selectFrom (subscribed.bits &&& ready.bits) [0, 1, 2, 3]

end FairWakeSelector

/-- Work requested by the deterministic runner core. -/
inductive RunnerStep
  | idle
  | waiting (waitFor : WaitSet)
  | commandReady (operation : OperationId)
  | pollBackend (operation : OperationId) (reason : WakeReason)
  deriving DecidableEq

/-- Action required after a controller requests cancellation. -/
inductive CancelDirective
  | completeLocally | notifyBackend | alreadyRequested
  deriving DecidableEq

/-- State change accepted from one verified backend report. -/
inductive RunnerTransition
  | pending (madeProgress : Bool) (waitFor : WaitSet)
  | budgetExhausted (madeProgress : Bool) (waitFor : WaitSet)
  | completed (completion : IncrementalCompletion)
  | cancelled (suppressedCompletion : Bool)
  | failed (error : BackendError) (cancellationPending : Bool)
  deriving DecidableEq

/-- Rejection of a deterministic runner transition. -/
inductive RunnerStateError
  | operation (error : OperationStateError)
  | staleReport (expected actual : OperationId)
  deriving DecidableEq

/-- Operation tracker, selector and wait set of one runner. -/
structure IncrementalRunnerState where
  /-- Lifecycle of the one operation slot. -/
  tracker : OperationTracker
  /-- Rotation over the wake sources. -/
  selector : FairWakeSelector
  /-- Wake sources subscribed by the current operation. -/
  waitFor : WaitSet
  deriving DecidableEq

namespace IncrementalRunnerState

/-- Construct an idle runner state. -/
def new : IncrementalRunnerState := ⟨.new, .new, .empty⟩

/-- The tracker field of the runner state. -/
def trackerField : Field IncrementalRunnerState OperationTracker :=
  ⟨IncrementalRunnerState.tracker, fun tracker state => {state with tracker := tracker}⟩

/-- Replace the wait set. -/
def setWaitFor (waitFor : WaitSet) : EStateM RunnerStateError IncrementalRunnerState Unit :=
  modify fun state => {state with waitFor := waitFor}

/-- Queue one serialized control operation. -/
def queue (slot : UInt8) : EStateM RunnerStateError IncrementalRunnerState OperationId := do
  let id ← trackerField.call .operation (OperationTracker.queue slot)
  setWaitFor .command
  pure id

/-- Record that the backend accepted a queued request. -/
def markStarted (id : OperationId) : EStateM RunnerStateError IncrementalRunnerState Unit := do
  trackerField.call .operation (OperationTracker.markStarted id)
  setWaitFor .empty

/-- Terminalize a queued request after the backend's start fails. -/
def rejectStart (id : OperationId) (error : BackendError) :
    EStateM RunnerStateError IncrementalRunnerState RunnerTransition := do
  trackerField.call .operation (OperationTracker.rejectQueued id)
  setWaitFor .empty
  pure (.failed error false)

/-- Request cancellation without invoking the backend. -/
def requestCancel (id : OperationId) :
    EStateM RunnerStateError IncrementalRunnerState CancelDirective := do
  let lifecycle ← trackerField.call .operation (OperationTracker.lifecycle id)
  let outcome ← trackerField.call .operation (OperationTracker.requestCancel id)
  if outcome = .alreadyRequested then pure .alreadyRequested
  else if lifecycle = .queued then do
    let _ ← trackerField.call .operation (OperationTracker.commitTerminal id)
    setWaitFor .empty
    pure .completeLocally
  else do
    modify fun state => {state with waitFor := state.waitFor.union .backend}
    pure .notifyBackend

/-- Record that the backend accepted the in-memory cancellation request. -/
def markCancelNotified (id : OperationId) :
    EStateM RunnerStateError IncrementalRunnerState Unit := do
  let lifecycle ← trackerField.call .operation (OperationTracker.lifecycle id)
  if lifecycle ≠ .cancelRequested then throw (.operation .invalidTransition)
  setWaitFor .empty

/-- Choose the next fair action from the currently ready sources. -/
def selectStep (ready : WaitSet) (state : IncrementalRunnerState) :
    RunnerStep × IncrementalRunnerState :=
  match state.tracker.current with
  | none => (.idle, state)
  | some (operation, lifecycle) =>
    if lifecycle = .terminal then (.idle, state)
    else if state.waitFor.isEmpty && (lifecycle == .started || lifecycle == .cancelRequested) then
      (.pollBackend operation .backend, state)
    else
      match state.selector.select state.waitFor ready with
      | (some .command, selector) => (.commandReady operation, {state with selector := selector})
      | (some reason, selector) =>
        (.pollBackend operation reason, {state with selector := selector})
      | (none, selector) => (.waiting state.waitFor, {state with selector := selector})

/-- Reject every lifecycle that the backend does not own. -/
def requireLive (id : OperationId) : EStateM RunnerStateError IncrementalRunnerState Unit := do
  let lifecycle ← trackerField.call .operation (OperationTracker.lifecycle id)
  if lifecycle ≠ .started ∧ lifecycle ≠ .cancelRequested then
    throw (.operation .invalidTransition)

/-- Apply one bounded report after a poll action. -/
def applyReport (expected : OperationId) (report : WorkReport) :
    EStateM RunnerStateError IncrementalRunnerState RunnerTransition := do
  requireLive expected
  if report.operation ≠ expected then throw (.staleReport expected report.operation)
  match report.disposition with
  | .pending waitFor => do
    setWaitFor waitFor
    pure (.pending report.madeProgress waitFor)
  | .budgetExhausted waitFor => do
    setWaitFor waitFor
    pure (.budgetExhausted report.madeProgress waitFor)
  | .complete completion => do
    let cancelled ← trackerField.call .operation (OperationTracker.commitTerminal expected)
    setWaitFor .empty
    if cancelled then pure (.cancelled true) else pure (.completed completion)
  | .cancelled => do
    let _ ← trackerField.call .operation (OperationTracker.commitTerminal expected)
    setWaitFor .empty
    pure (.cancelled false)

/-- Terminalize an accepted operation after a backend poll or cancel error. -/
def applyError (expected : OperationId) (error : BackendError) :
    EStateM RunnerStateError IncrementalRunnerState RunnerTransition := do
  requireLive expected
  let cancellationPending ← trackerField.call .operation (OperationTracker.commitTerminal expected)
  setWaitFor .empty
  pure (.failed error cancellationPending)

/-- Release a collected terminal result so the slot may be reused. -/
def reap (id : OperationId) : EStateM RunnerStateError IncrementalRunnerState Unit := do
  trackerField.call .operation (OperationTracker.reap id)
  setWaitFor .empty

/-- Add a driver-derived wake source for the current live operation. -/
def subscribe (id : OperationId) (sources : WaitSet) :
    EStateM RunnerStateError IncrementalRunnerState Unit := do
  requireLive id
  modify fun state => {state with waitFor := state.waitFor.union sources}

/-- State whose slot owner and wait set are replaced; generation and rotation stay. -/
def settle (state : IncrementalRunnerState)
    (current : Option (OperationId × OperationLifecycle)) (waitFor : WaitSet) :
    IncrementalRunnerState :=
  {state with tracker := {state.tracker with current := current}, waitFor := waitFor}

@[simp] theorem settle_current (state : IncrementalRunnerState)
    (current : Option (OperationId × OperationLifecycle)) (waitFor : WaitSet) :
    (state.settle current waitFor).tracker.current = current := rfl

@[simp] theorem settle_nextGeneration (state : IncrementalRunnerState)
    (current : Option (OperationId × OperationLifecycle)) (waitFor : WaitSet) :
    (state.settle current waitFor).tracker.nextGeneration = state.tracker.nextGeneration := rfl

@[simp] theorem settle_waitFor (state : IncrementalRunnerState)
    (current : Option (OperationId × OperationLifecycle)) (waitFor : WaitSet) :
    (state.settle current waitFor).waitFor = waitFor := rfl

@[simp] theorem settle_settle (state : IncrementalRunnerState)
    (a b : Option (OperationId × OperationLifecycle)) (v w : WaitSet) :
    (state.settle a v).settle b w = state.settle b w := rfl

/-- Lifecycle of an operation the backend owns, by whether its cancellation was requested. -/
def liveLifecycle (cancelRequested : Bool) : OperationLifecycle :=
  if cancelRequested then .cancelRequested else .started

variable {state : IncrementalRunnerState} {id : OperationId} {cancelled : Bool}

/-- A free slot queues a fresh generation and waits for the command plane. -/
theorem queue_of_none (h : state.tracker.current = none) (slot : UInt8) :
    queue slot state = .ok (state.tracker.nextId slot)
      {state with
        tracker := ⟨advance state.tracker.nextGeneration,
          some (state.tracker.nextId slot, .queued)⟩
        waitFor := .command} := by
  rw [queue, bind_ok (call_ok (OperationTracker.queue_of_none h slot))]
  rfl

/-- An accepted start owes the operation one immediate poll. -/
theorem markStarted_of_queued (h : state.tracker.current = some (id, .queued)) :
    markStarted id state = .ok () (state.settle (some (id, .started)) .empty) := by
  have ht : OperationTracker.markStarted id state.tracker =
      .ok () {state.tracker with current := some (id, .started)} := by
    rw [OperationTracker.markStarted, bind_ok (OperationTracker.lifecycle_of_current h)]
    exact OperationTracker.setLifecycle_of_current h _
  rw [markStarted, bind_ok (call_ok ht)]
  rfl

/-- A rejected start is terminal with the backend's error. -/
theorem rejectStart_of_queued (h : state.tracker.current = some (id, .queued))
    (error : BackendError) :
    rejectStart id error state =
      .ok (.failed error false) (state.settle (some (id, .terminal)) .empty) := by
  have ht : OperationTracker.rejectQueued id state.tracker =
      .ok () {state.tracker with current := some (id, .terminal)} := by
    rw [OperationTracker.rejectQueued, bind_ok (OperationTracker.lifecycle_of_current h)]
    exact OperationTracker.setLifecycle_of_current h _
  rw [rejectStart, bind_ok (call_ok ht)]
  rfl

/-- A terminal operation is released. -/
theorem reap_of_terminal (h : state.tracker.current = some (id, .terminal)) :
    reap id state = .ok () (state.settle none .empty) := by
  have ht : OperationTracker.reap id state.tracker =
      .ok () {state.tracker with current := none} := by
    rw [OperationTracker.reap, bind_ok (OperationTracker.lifecycle_of_current h)]
    rfl
  rw [reap, bind_ok (call_ok ht)]
  rfl

/-- The first cancellation of a started operation asks for a backend notification. -/
theorem requestCancel_of_started (h : state.tracker.current = some (id, .started)) :
    requestCancel id state =
      .ok .notifyBackend
        (state.settle (some (id, .cancelRequested)) (state.waitFor.union .backend)) := by
  have ht : OperationTracker.requestCancel id state.tracker =
      .ok .requested {state.tracker with current := some (id, .cancelRequested)} := by
    rw [OperationTracker.requestCancel, bind_ok (OperationTracker.lifecycle_of_current h)]
    show (OperationTracker.setLifecycle .cancelRequested >>= fun _ => pure CancelOutcome.requested)
      state.tracker = _
    rw [bind_ok (OperationTracker.setLifecycle_of_current h _), pure_apply]
  rw [requestCancel, bind_ok (call_ok (OperationTracker.lifecycle_of_current h)),
    bind_ok (call_ok ht)]
  rfl

/-- A notified cancellation owes the operation one immediate poll. -/
theorem markCancelNotified_of_requested
    (h : state.tracker.current = some (id, .cancelRequested)) :
    markCancelNotified id state = .ok () (state.settle (some (id, .cancelRequested)) .empty) := by
  rw [markCancelNotified, bind_ok (call_ok (OperationTracker.lifecycle_of_current h))]
  simp only [trackerField, setWaitFor, settle, ← h]
  rfl

/-- Both lifecycles the backend owns pass the liveness check. -/
theorem requireLive_of_live (h : state.tracker.current = some (id, liveLifecycle cancelled)) :
    requireLive id state = .ok () state := by
  rw [requireLive, bind_ok (call_ok (OperationTracker.lifecycle_of_current h))]
  cases cancelled <;> rfl

/-- The sole terminal result reports whether cancellation was pending. -/
theorem commitTerminal_of_live (h : state.tracker.current = some (id, liveLifecycle cancelled)) :
    OperationTracker.commitTerminal id state.tracker =
      .ok cancelled {state.tracker with current := some (id, .terminal)} := by
  rw [OperationTracker.commitTerminal, bind_ok (OperationTracker.lifecycle_of_current h)]
  cases cancelled
  all_goals
    simp only [liveLifecycle, Bool.false_eq_true, if_false, if_true, bind_apply, pure_apply,
      OperationTracker.setLifecycle_of_current h]

/-- Any backend error of a live operation is terminal. -/
theorem applyError_of_live (h : state.tracker.current = some (id, liveLifecycle cancelled))
    (error : BackendError) :
    applyError id error state =
      .ok (.failed error cancelled) (state.settle (some (id, .terminal)) .empty) := by
  rw [applyError, bind_ok (requireLive_of_live h),
    bind_ok (call_ok (commitTerminal_of_live h))]
  rfl

/-- A driver-derived source is added to the wait set of a live operation. -/
theorem subscribe_of_live (h : state.tracker.current = some (id, liveLifecycle cancelled))
    (sources : WaitSet) :
    subscribe id sources state = .ok () {state with waitFor := state.waitFor.union sources} := by
  rw [subscribe, bind_ok (requireLive_of_live h)]
  rfl

/-- A report of another operation is rejected without a write. -/
theorem applyReport_of_foreign (h : state.tracker.current = some (id, liveLifecycle cancelled))
    {report : WorkReport} (hr : report.operation ≠ id) :
    applyReport id report state = .error (.staleReport id report.operation) state := by
  rw [applyReport, bind_ok (requireLive_of_live h), if_pos hr]
  rfl

/-- Transition of an accepted report: a late success is suppressed. -/
def reported (cancelled : Bool) (report : WorkReport) : RunnerTransition :=
  match report.disposition with
  | .pending waitFor => .pending report.madeProgress waitFor
  | .budgetExhausted waitFor => .budgetExhausted report.madeProgress waitFor
  | .complete completion => if cancelled then .cancelled true else .completed completion
  | .cancelled => .cancelled false

/-- Slot owner and wait set after an accepted report. -/
def afterReport (state : IncrementalRunnerState) (id : OperationId) (cancelled : Bool)
    (report : WorkReport) : IncrementalRunnerState :=
  match report.disposition with
  | .pending waitFor | .budgetExhausted waitFor =>
    state.settle (some (id, liveLifecycle cancelled)) waitFor
  | .complete _ | .cancelled => state.settle (some (id, .terminal)) .empty

/-- A report of the live operation is accepted. -/
theorem applyReport_of_own (h : state.tracker.current = some (id, liveLifecycle cancelled))
    {report : WorkReport} (hr : report.operation = id) :
    applyReport id report state =
      .ok (reported cancelled report) (state.afterReport id cancelled report) := by
  have hn : ¬ report.operation ≠ id := not_not.mpr hr
  have hc : ∀ waitFor, {state with waitFor := waitFor} =
      state.settle (some (id, liveLifecycle cancelled)) waitFor := by
    intro waitFor
    simp only [settle, ← h]
  rw [applyReport, bind_ok (requireLive_of_live h), if_neg hn]
  cases hd : report.disposition with
  | pending waitFor =>
    simp only [reported, afterReport, hd, setWaitFor, bind_apply, pure_apply, modify_apply, hc]
  | budgetExhausted waitFor =>
    simp only [reported, afterReport, hd, setWaitFor, bind_apply, pure_apply, modify_apply, hc]
  | complete completion =>
    simp only [reported, afterReport, hd, bind_apply, setWaitFor, modify_apply,
      call_ok (f := trackerField) (commitTerminal_of_live h)]
    cases cancelled <;> rfl
  | cancelled =>
    simp only [reported, afterReport, hd, bind_apply, setWaitFor, modify_apply,
      call_ok (f := trackerField) (commitTerminal_of_live h)]
    rfl

end IncrementalRunnerState

end HisiRfCore.RunnerState
