import HisiRfCore.BackendDriver

/-!
# Coherence of the incremental driver

Between two driver calls no start is in progress and the tracked operation is
the active command's, live in the lifecycle its cancellation flag says. A drive
of a coherent driver has one of the outcomes listed here, each with the one
backend call it made, its event and its next state; all of them are coherent.
-/

namespace HisiRfCore.DriverCoherence

open NonZeroCounter StateBorrow WifiTypes IncrementalContract CommandArbitration RunnerState
open BackendDriver IncrementalRunnerState IncrementalBackendDriver

variable {B : Type} {n : ℕ}

/-- The arbiter and the tracker agree on the one live operation. -/
structure Coherent (driver : IncrementalBackendDriver B) : Prop where
  /-- No start is left half done. -/
  notStarting : driver.arbiter.starting = none
  /-- The tracked operation is the active command's, in the lifecycle of its flag. -/
  tracked : driver.runner.tracker.current = driver.arbiter.active.map fun active =>
    (active.operation, liveLifecycle active.cancelRequested)

/-- A new driver is coherent. -/
theorem new_coherent (backend : B) (budget : WorkBudget) :
    Coherent (IncrementalBackendDriver.new backend budget) := ⟨rfl, rfl⟩

theorem Coherent.current_of_active {driver : IncrementalBackendDriver B} (h : Coherent driver)
    {active : ActiveCommand} (ha : driver.arbiter.active = some active) :
    driver.runner.tracker.current =
      some (active.operation, liveLifecycle active.cancelRequested) := by
  rw [h.tracked, ha]
  rfl

theorem Coherent.current_of_none {driver : IncrementalBackendDriver B} (h : Coherent driver)
    (ha : driver.arbiter.active = none) : driver.runner.tracker.current = none := by
  rw [h.tracked, ha]
  rfl

/-- A replacement or an explicit intent is waiting for its one cancellation call. -/
def cancelDue (driver : IncrementalBackendDriver B) (active : ActiveCommand) : Bool :=
  (driver.arbiter.pending.isSome || active.cancelIntent) && !active.cancelRequested

/-- A due cancellation was not delivered before. -/
theorem not_requested_of_due {driver : IncrementalBackendDriver B} {active : ActiveCommand}
    (hd : cancelDue driver active = true) : active.cancelRequested = false := by
  simp only [cancelDue, Bool.and_eq_true, Bool.not_eq_true'] at hd
  exact hd.2

/-- Identity the next start allocates. -/
def freshId (driver : IncrementalBackendDriver B) : OperationId := driver.runner.tracker.nextId 0

/-- Driver after the backend accepted the pending command. -/
def begun (driver : IncrementalBackendDriver B) (sequence : CommandSequence) (backend : B) :
    IncrementalBackendDriver B :=
  {driver with
    backend := backend
    arbiter := ⟨some ⟨sequence, freshId driver, false, false⟩, none, none⟩
    runner := {driver.runner with
      tracker := ⟨advance driver.runner.tracker.nextGeneration,
        some (freshId driver, .started)⟩
      waitFor := .empty}}

/-- Driver after the backend rejected the pending command. -/
def rejected (driver : IncrementalBackendDriver B) (backend : B) : IncrementalBackendDriver B :=
  {driver with
    backend := backend
    arbiter := ⟨none, none, none⟩
    runner := {driver.runner with
      tracker := ⟨advance driver.runner.tracker.nextGeneration, none⟩
      waitFor := .empty}}

/-- Driver after the backend accepted the cancellation call. -/
def notified (driver : IncrementalBackendDriver B) (active : ActiveCommand) (backend : B) :
    IncrementalBackendDriver B :=
  {driver with
    backend := backend
    arbiter := {driver.arbiter with active := some {active with cancelRequested := true}}
    runner := driver.runner.settle (some (active.operation, .cancelRequested)) .empty}

/-- Driver after the active operation ended. -/
def released (driver : IncrementalBackendDriver B) (runner : IncrementalRunnerState)
    (backend : B) : IncrementalBackendDriver B :=
  {driver with
    backend := backend
    arbiter := {driver.arbiter with active := none}
    runner := runner.settle none .empty}

/-- Driver after a poll that left the active operation live. -/
def polled (driver : IncrementalBackendDriver B) (runner : IncrementalRunnerState)
    (backend : B) : IncrementalBackendDriver B :=
  {driver with backend := backend, runner := runner}

/-- Event of a report that keeps the operation live. -/
def keptEvent (active : ActiveCommand) (madeProgress : Bool) :
    PollDisposition → Option (IncrementalDriverEvent × WaitSet)
  | .pending waitFor =>
    some (.pending active.sequence active.operation madeProgress waitFor, waitFor)
  | .budgetExhausted waitFor =>
    some (.budgetExhausted active.sequence active.operation madeProgress waitFor, waitFor)
  | _ => none

/-- Terminal event of a report that ends the operation; a late success is suppressed. -/
def endedEvent (active : ActiveCommand) : PollDisposition → Option IncrementalDriverEvent
  | .complete completion =>
    some (if active.cancelRequested then .cancelled active.sequence true
      else .completed active.sequence completion)
  | .cancelled => some (.cancelled active.sequence false)
  | _ => none

variable [IncrementalWifiBackend B]

/-- Runner state that a poll selects from: a due deadline subscribes the timer. -/
def timed (driver : IncrementalBackendDriver B) (operation : OperationId) (ready : WaitSet) :
    IncrementalRunnerState :=
  if ready.contains .timer &&
      (IncrementalWifiBackend.nextDeadlineUs driver.backend operation).isSome then
    {driver.runner with waitFor := driver.runner.waitFor.union .timer}
  else driver.runner

/-- The outcomes of one drive: result, event and next state of each backend call. -/
inductive DriveOutcome (driver : IncrementalBackendDriver B) (scan : Vector ScanResult n)
    (ready : WaitSet) :
    EStateM.Result IncrementalDriverError (DriverFrame B n) IncrementalDriverEvent → Prop
  | idle (ha : driver.arbiter.active = none) (hp : driver.arbiter.pending = none) :
      DriveOutcome driver scan ready (.ok .idle ⟨driver, scan⟩)
  | started (held : PendingCommand IncrementalRequest) (backend : B)
      (ha : driver.arbiter.active = none) (hp : driver.arbiter.pending = some held)
      (hb : IncrementalWifiBackend.start driver.backend (freshId driver) held.command =
        (.ok (), backend)) :
      DriveOutcome driver scan ready
        (.ok (.started held.sequence (freshId driver)) ⟨begun driver held.sequence backend, scan⟩)
  | startFailed (held : PendingCommand IncrementalRequest) (backend : B) (error : BackendError)
      (ha : driver.arbiter.active = none) (hp : driver.arbiter.pending = some held)
      (hb : IncrementalWifiBackend.start driver.backend (freshId driver) held.command =
        (.error error, backend)) :
      DriveOutcome driver scan ready
        (.ok (.failed held.sequence error false) ⟨rejected driver backend, scan⟩)
  | cancelDelivered (active : ActiveCommand) (backend : B)
      (ha : driver.arbiter.active = some active) (hd : cancelDue driver active = true)
      (hb : IncrementalWifiBackend.cancel driver.backend active.operation = (.ok (), backend)) :
      DriveOutcome driver scan ready
        (.ok (.cancelRequested active.sequence active.operation)
          ⟨notified driver active backend, scan⟩)
  | cancelFailed (active : ActiveCommand) (backend : B) (error : BackendError)
      (ha : driver.arbiter.active = some active) (hd : cancelDue driver active = true)
      (hb : IncrementalWifiBackend.cancel driver.backend active.operation =
        (.error error, backend)) :
      DriveOutcome driver scan ready
        (.ok (.failed active.sequence error true) ⟨released driver driver.runner backend, scan⟩)
  | waiting (active : ActiveCommand) (waitFor : WaitSet) (runner : IncrementalRunnerState)
      (ha : driver.arbiter.active = some active) (hd : cancelDue driver active = false)
      (hs : (timed driver active.operation ready).selectStep ready = (.waiting waitFor, runner)) :
      DriveOutcome driver scan ready
        (.ok (.waiting active.sequence active.operation waitFor)
          ⟨polled driver runner driver.backend, scan⟩)
  | commandReady (active : ActiveCommand) (runner : IncrementalRunnerState)
      (ha : driver.arbiter.active = some active) (hd : cancelDue driver active = false)
      (hs : (timed driver active.operation ready).selectStep ready =
        (.commandReady active.operation, runner)) :
      DriveOutcome driver scan ready
        (.error (.arbiter .invalidTransition) ⟨polled driver runner driver.backend, scan⟩)
  | pollFailed (active : ActiveCommand) (reason : WakeReason) (runner : IncrementalRunnerState)
      (error : BackendError) (backend : B) (output : Vector ScanResult n)
      (ha : driver.arbiter.active = some active) (hd : cancelDue driver active = false)
      (hs : (timed driver active.operation ready).selectStep ready =
        (.pollBackend active.operation reason, runner))
      (hb : IncrementalWifiBackend.poll driver.backend active.operation reason driver.budget scan =
        (.error error, backend, output)) :
      DriveOutcome driver scan ready
        (.ok (.failed active.sequence error active.cancelRequested)
          ⟨released driver runner backend, output⟩)
  | staleReport (active : ActiveCommand) (reason : WakeReason) (runner : IncrementalRunnerState)
      (report : WorkReport) (backend : B) (output : Vector ScanResult n)
      (ha : driver.arbiter.active = some active) (hd : cancelDue driver active = false)
      (hs : (timed driver active.operation ready).selectStep ready =
        (.pollBackend active.operation reason, runner))
      (hb : IncrementalWifiBackend.poll driver.backend active.operation reason driver.budget scan =
        (.ok report, backend, output))
      (hr : report.operation ≠ active.operation) :
      DriveOutcome driver scan ready
        (.error (.runner (.staleReport active.operation report.operation))
          ⟨polled driver runner backend, output⟩)
  | kept (active : ActiveCommand) (reason : WakeReason) (runner : IncrementalRunnerState)
      (report : WorkReport) (backend : B) (output : Vector ScanResult n)
      (event : IncrementalDriverEvent) (waitFor : WaitSet)
      (ha : driver.arbiter.active = some active) (hd : cancelDue driver active = false)
      (hs : (timed driver active.operation ready).selectStep ready =
        (.pollBackend active.operation reason, runner))
      (hb : IncrementalWifiBackend.poll driver.backend active.operation reason driver.budget scan =
        (.ok report, backend, output))
      (hr : report.operation = active.operation)
      (he : keptEvent active report.madeProgress report.disposition = some (event, waitFor)) :
      DriveOutcome driver scan ready
        (.ok event ⟨polled driver
          (runner.settle (some (active.operation, liveLifecycle active.cancelRequested)) waitFor)
          backend, output⟩)
  | ended (active : ActiveCommand) (reason : WakeReason) (runner : IncrementalRunnerState)
      (report : WorkReport) (backend : B) (output : Vector ScanResult n)
      (event : IncrementalDriverEvent)
      (ha : driver.arbiter.active = some active) (hd : cancelDue driver active = false)
      (hs : (timed driver active.operation ready).selectStep ready =
        (.pollBackend active.operation reason, runner))
      (hb : IncrementalWifiBackend.poll driver.backend active.operation reason driver.budget scan =
        (.ok report, backend, output))
      (hr : report.operation = active.operation)
      (he : endedEvent active report.disposition = some event) :
      DriveOutcome driver scan ready (.ok event ⟨released driver runner backend, output⟩)

/-- Without an active operation a drive can only start the pending command. -/
theorem DriveOutcome.of_inactive {driver : IncrementalBackendDriver B} {scan : Vector ScanResult n}
    {ready : WaitSet}
    {result : EStateM.Result IncrementalDriverError (DriverFrame B n) IncrementalDriverEvent}
    (h : DriveOutcome driver scan ready result) (hn : driver.arbiter.active = none) :
    (driver.arbiter.pending = none ∧ result = .ok .idle ⟨driver, scan⟩) ∨
    ∃ held, driver.arbiter.pending = some held ∧
      ((∃ backend, IncrementalWifiBackend.start driver.backend (freshId driver) held.command =
          (.ok (), backend) ∧
        result = .ok (.started held.sequence (freshId driver))
          ⟨begun driver held.sequence backend, scan⟩) ∨
      ∃ backend error, IncrementalWifiBackend.start driver.backend (freshId driver)
          held.command = (.error error, backend) ∧
        result = .ok (.failed held.sequence error false) ⟨rejected driver backend, scan⟩) := by
  cases h with
  | idle ha hp => exact Or.inl ⟨hp, rfl⟩
  | started held backend ha hp hb => exact Or.inr ⟨held, hp, Or.inl ⟨backend, hb, rfl⟩⟩
  | startFailed held backend error ha hp hb =>
    exact Or.inr ⟨held, hp, Or.inr ⟨backend, error, hb, rfl⟩⟩
  -- every other outcome is about the active operation
  | _ => exact (Option.some_ne_none _ (‹driver.arbiter.active = some _›.symm.trans hn)).elim

/-- Selecting a step reads the operation and writes only the rotation. -/
theorem selectStep_frame (ready : WaitSet) (state : IncrementalRunnerState) :
    (state.selectStep ready).2.tracker = state.tracker ∧
      (state.selectStep ready).2.waitFor = state.waitFor := by
  unfold IncrementalRunnerState.selectStep
  cases state.tracker.current with
  | none => exact ⟨rfl, rfl⟩
  | some current =>
    rcases current with ⟨operation, lifecycle⟩
    dsimp only
    split
    · exact ⟨rfl, rfl⟩
    · split
      · exact ⟨rfl, rfl⟩
      · split <;> exact ⟨rfl, rfl⟩

/-- The selected step is about the tracked operation, and is never idle while it is live. -/
theorem selectStep_of_live {ready : WaitSet} {state : IncrementalRunnerState} {id : OperationId}
    {cancelled : Bool} (h : state.tracker.current = some (id, liveLifecycle cancelled)) :
    (∃ waitFor runner, state.selectStep ready = (.waiting waitFor, runner)) ∨
      (∃ runner, state.selectStep ready = (.commandReady id, runner)) ∨
      ∃ reason runner, state.selectStep ready = (.pollBackend id reason, runner) := by
  have hl : liveLifecycle cancelled ≠ .terminal := by cases cancelled <;> decide
  unfold IncrementalRunnerState.selectStep
  rw [h]
  dsimp only
  rw [if_neg hl]
  split
  · exact Or.inr (Or.inr ⟨_, _, rfl⟩)
  · split
    · exact Or.inr (Or.inl ⟨_, rfl⟩)
    · exact Or.inr (Or.inr ⟨_, _, rfl⟩)
    · exact Or.inl ⟨_, _, rfl⟩

/-- The timer subscription leaves the tracked operation alone. -/
@[simp] theorem timed_tracker (driver : IncrementalBackendDriver B) (operation : OperationId)
    (ready : WaitSet) : (timed driver operation ready).tracker = driver.runner.tracker := by
  unfold timed
  split <;> rfl

/-- Selection for a poll leaves the tracked operation alone. -/
theorem selected_tracker {driver : IncrementalBackendDriver B} {operation : OperationId}
    {ready : WaitSet} {step : RunnerStep} {runner : IncrementalRunnerState}
    (hs : (timed driver operation ready).selectStep ready = (step, runner)) :
    runner.tracker = driver.runner.tracker := by
  have hf := (selectStep_frame ready (timed driver operation ready)).1
  rw [hs, timed_tracker] at hf
  exact hf

section Outcomes

variable {driver : IncrementalBackendDriver B} {scan : Vector ScanResult n} {ready : WaitSet}

omit [IncrementalWifiBackend B] in
/-- Terminal transitions of the tracked operation release both slots together. -/
theorem finishTerminal_of_active {active : ActiveCommand} (transition : RunnerTransition)
    (ha : driver.arbiter.active = some active)
    (ht : driver.runner.tracker.current = some (active.operation, .terminal)) :
    finishTerminal active.operation active.sequence transition driver =
      match transition with
      | .completed completion =>
        .ok (.completed active.sequence completion) (released driver driver.runner driver.backend)
      | .cancelled suppressed =>
        .ok (.cancelled active.sequence suppressed) (released driver driver.runner driver.backend)
      | .failed error cancellationPending =>
        .ok (.failed active.sequence error cancellationPending)
          (released driver driver.runner driver.backend)
      | .pending _ _ | .budgetExhausted _ _ =>
        .error (.arbiter .invalidTransition) (released driver driver.runner driver.backend) := by
  have hf : arbiterField.call IncrementalDriverError.arbiter
      (CommandArbiter.finishActive active.operation) driver =
      .ok active.sequence {driver with arbiter := {driver.arbiter with active := none}} :=
    call_ok (CommandArbiter.finishActive_of_active ha)
  have hr : runnerField.call IncrementalDriverError.runner (reap active.operation)
      {driver with arbiter := {driver.arbiter with active := none}} =
      .ok () (released driver driver.runner driver.backend) :=
    call_ok (reap_of_terminal ht)
  unfold finishTerminal
  rw [bind_ok hf]
  simp only [ne_eq, not_true_eq_false, if_false]
  rw [bind_ok hr]
  cases transition <;> rfl

/-- Starting the pending command has the two start outcomes. -/
theorem startPending_outcome (h : Coherent driver) {held : PendingCommand IncrementalRequest}
    (ha : driver.arbiter.active = none) (hp : driver.arbiter.pending = some held) :
    DriveOutcome driver scan ready (driverField.call id startPending ⟨driver, scan⟩) := by
  have ht : arbiterField.call IncrementalDriverError.arbiter CommandArbiter.takeStartable driver =
      .ok held {driver with arbiter := ⟨none, some held.sequence, none⟩} :=
    call_ok (CommandArbiter.takeStartable_of_pending ha h.notStarting hp)
  have hq := call_ok (f := runnerField) (w := IncrementalDriverError.runner)
    (s := {driver with arbiter := ⟨none, some held.sequence, none⟩})
    (queue_of_none (h.current_of_none ha) 0)
  rcases hb : IncrementalWifiBackend.start driver.backend (freshId driver) held.command with
    ⟨result, backend⟩
  cases result with
  | ok value =>
    have hs : startPending driver =
        .ok (.started held.sequence (freshId driver)) (begun driver held.sequence backend) := by
      rw [startPending, bind_ok ht, bind_ok hq, bind_ok (update_of hb)]
      dsimp only
      rw [bind_ok (call_ok (markStarted_of_queued rfl)),
        bind_ok (call_ok (CommandArbiter.markStarted_of_starting _))]
      rfl
    rw [call_ok (f := driverField) hs]
    exact DriveOutcome.started held backend ha hp hb
  | error error =>
    have hs : startPending driver =
        .ok (.failed held.sequence error false) (rejected driver backend) := by
      rw [startPending, bind_ok ht, bind_ok hq, bind_ok (update_of hb)]
      dsimp only
      rw [bind_ok (call_ok (rejectStart_of_queued rfl error)),
        bind_ok (call_ok (reap_of_terminal rfl)),
        bind_ok (call_ok CommandArbiter.rejectStart_of_starting)]
      rfl
    rw [call_ok (f := driverField) hs]
    exact DriveOutcome.startFailed held backend error ha hp hb

omit [IncrementalWifiBackend B] in
/-- The active slot names the operation a cancellation or a poll is about. -/
theorem requireActive_of_active {active : ActiveCommand}
    (ha : driver.arbiter.active = some active) :
    requireActive driver = .ok (active.sequence, active.operation) driver := by
  simp [requireActive, CommandArbiter.activeOperation, ha]

/-- A due cancellation has the two cancellation outcomes. -/
theorem cancelActive_outcome (h : Coherent driver) {active : ActiveCommand}
    (ha : driver.arbiter.active = some active) (hd : cancelDue driver active = true) :
    DriveOutcome driver scan ready
      (driverField.call id (cancelActive active.operation) ⟨driver, scan⟩) := by
  have hr : active.cancelRequested = false := by
    simp only [cancelDue, Bool.and_eq_true, Bool.not_eq_true'] at hd
    exact hd.2
  have hc : driver.runner.tracker.current = some (active.operation, .started) := by
    rw [h.current_of_active ha, hr]
    rfl
  have hq := call_ok (f := runnerField) (w := IncrementalDriverError.runner)
    (requestCancel_of_started hc)
  rcases hb : IncrementalWifiBackend.cancel driver.backend active.operation with ⟨result, backend⟩
  cases result with
  | ok value =>
    have hs : cancelActive active.operation driver =
        .ok (.cancelRequested active.sequence active.operation) (notified driver active backend) := by
      rw [cancelActive, bind_ok (requireActive_of_active ha)]
      simp only [ne_eq, not_true_eq_false, if_false]
      rw [bind_ok hq]
      dsimp only
      rw [bind_ok (update_of hb)]
      dsimp only
      rw [bind_ok (call_ok (markCancelNotified_of_requested rfl)),
        bind_ok (call_ok (CommandArbiter.markCancelRequested_of_active ha hr))]
      rfl
    rw [call_ok (f := driverField) hs]
    exact DriveOutcome.cancelDelivered active backend ha hd hb
  | error error =>
    have hs : cancelActive active.operation driver =
        .ok (.failed active.sequence error true) (released driver driver.runner backend) := by
      rw [cancelActive, bind_ok (requireActive_of_active ha)]
      simp only [ne_eq, not_true_eq_false, if_false]
      rw [bind_ok hq]
      dsimp only
      rw [bind_ok (update_of hb)]
      dsimp only
      rw [bind_ok (call_ok (@applyError_of_live _ _ true rfl error))]
      exact finishTerminal_of_active (.failed error true) ha rfl
    rw [call_ok (f := driverField) hs]
    exact DriveOutcome.cancelFailed active backend error ha hd hb

/-- The deadline subscription moves the runner to the state a poll selects from. -/
theorem subscribeDeadline_timed (h : Coherent driver) {active : ActiveCommand}
    (ha : driver.arbiter.active = some active) :
    subscribeDeadline active.operation ready driver =
      .ok () {driver with runner := timed driver active.operation ready} := by
  unfold subscribeDeadline timed
  rw [bind_ok (get_apply _)]
  split
  · exact call_ok (subscribe_of_live (h.current_of_active ha) _)
  · rfl

omit [IncrementalWifiBackend B] in
/-- A rejected poll ends the operation with the backend's error. -/
theorem applyPoll_error {d : IncrementalBackendDriver B} {active : ActiveCommand} (ha : d.arbiter.active = some active)
    (hc : d.runner.tracker.current =
      some (active.operation, liveLifecycle active.cancelRequested)) (error : BackendError) :
    applyPoll active.sequence active.operation (.error error) d =
      .ok (.failed active.sequence error active.cancelRequested)
        (released d d.runner d.backend) := by
  unfold applyPoll
  dsimp only
  rw [bind_ok (call_ok (applyError_of_live hc error))]
  exact finishTerminal_of_active (.failed error active.cancelRequested) ha rfl

omit [IncrementalWifiBackend B] in
/-- A report of the active operation keeps it live or ends it. -/
theorem applyPoll_report {d : IncrementalBackendDriver B} {active : ActiveCommand}
    (ha : d.arbiter.active = some active)
    (hc : d.runner.tracker.current =
      some (active.operation, liveLifecycle active.cancelRequested)) {report : WorkReport}
    (hr : report.operation = active.operation) :
    (∃ event waitFor,
      keptEvent active report.madeProgress report.disposition = some (event, waitFor) ∧
      applyPoll active.sequence active.operation (.ok report) d =
        .ok event (polled d
          (d.runner.settle (some (active.operation, liveLifecycle active.cancelRequested))
            waitFor) d.backend)) ∨
    ∃ event, endedEvent active report.disposition = some event ∧
      applyPoll active.sequence active.operation (.ok report) d =
        .ok event (released d d.runner d.backend) := by
  have hp := call_ok (f := runnerField) (w := IncrementalDriverError.runner)
    (applyReport_of_own hc hr)
  unfold applyPoll
  dsimp only
  rw [bind_ok hp]
  cases hd : report.disposition with
  | pending waitFor =>
    refine Or.inl ⟨_, _, rfl, ?_⟩
    simp only [reported, afterReport, hd]
    rfl
  | budgetExhausted waitFor =>
    refine Or.inl ⟨_, _, rfl, ?_⟩
    simp only [reported, afterReport, hd]
    rfl
  | complete completion =>
    refine Or.inr ⟨_, rfl, ?_⟩
    simp only [reported, afterReport, hd]
    cases active.cancelRequested with
    | true => exact finishTerminal_of_active (.cancelled true) ha rfl
    | false => exact finishTerminal_of_active (.completed completion) ha rfl
  | cancelled =>
    refine Or.inr ⟨_, rfl, ?_⟩
    simp only [reported, afterReport, hd]
    exact finishTerminal_of_active (.cancelled false) ha rfl

/-- Polling the active operation has the six poll outcomes. -/
theorem pollActive_outcome (h : Coherent driver) {active : ActiveCommand}
    (ha : driver.arbiter.active = some active) (hd : cancelDue driver active = false) :
    DriveOutcome driver scan ready (pollActive active.operation ready ⟨driver, scan⟩) := by
  have hq : driverField.call id requireActive (⟨driver, scan⟩ : DriverFrame B n) =
      .ok (active.sequence, active.operation) ⟨driver, scan⟩ :=
    call_ok (requireActive_of_active ha)
  have ht : (timed driver active.operation ready).tracker.current =
      some (active.operation, liveLifecycle active.cancelRequested) := by
    rw [timed_tracker]
    exact h.current_of_active ha
  have hsel : ∀ step runner,
      (timed driver active.operation ready).selectStep ready = (step, runner) →
      driverField.call id (IncrementalBackendDriver.selectStep ready)
        (driverField.set {driver with runner := timed driver active.operation ready}
          (⟨driver, scan⟩ : DriverFrame B n)) =
      .ok step ⟨{driver with runner := runner}, scan⟩ :=
    fun _ _ hs => call_ok (update_of hs)
  have hlive : ∀ step runner,
      (timed driver active.operation ready).selectStep ready = (step, runner) →
      runner.tracker.current = some (active.operation, liveLifecycle active.cancelRequested) := by
    intro step runner hs
    rw [selected_tracker hs]
    exact h.current_of_active ha
  unfold pollActive
  rw [bind_ok hq]
  simp only [ne_eq, not_true_eq_false, if_false]
  rw [bind_ok (call_ok (subscribeDeadline_timed h ha))]
  rcases @selectStep_of_live ready _ _ _ ht with
    ⟨waitFor, runner, hs⟩ | ⟨runner, hs⟩ | ⟨reason, runner, hs⟩
  · rw [bind_ok (hsel _ _ hs)]
    exact DriveOutcome.waiting active waitFor runner ha hd hs
  · rw [bind_ok (hsel _ _ hs)]
    exact DriveOutcome.commandReady active runner ha hd hs
  · rw [bind_ok (hsel _ _ hs)]
    dsimp only
    rcases hb : IncrementalWifiBackend.poll driver.backend active.operation reason driver.budget
      scan with ⟨result, backend, output⟩
    have hp : pollBackend active.operation reason
        (⟨{driver with runner := runner}, scan⟩ : DriverFrame B n) =
        .ok result ⟨polled driver runner backend, output⟩ := by
      simp only [pollBackend, hb]
      rfl
    rw [bind_ok hp]
    cases result with
    | error error =>
      have hx := applyPoll_error (d := polled driver runner backend) ha (hlive _ _ hs) error
      rw [call_ok (f := driverField) hx]
      exact DriveOutcome.pollFailed active reason runner error backend output ha hd hs hb
    | ok report =>
      by_cases hr : report.operation = active.operation
      · rcases applyPoll_report (d := polled driver runner backend) ha (hlive _ _ hs) hr with
          ⟨event, waitFor, he, hx⟩ | ⟨event, he, hx⟩
        · rw [call_ok (f := driverField) hx]
          exact DriveOutcome.kept active reason runner report backend output event waitFor
            ha hd hs hb hr he
        · rw [call_ok (f := driverField) hx]
          exact DriveOutcome.ended active reason runner report backend output event
            ha hd hs hb hr he
      · have hx : applyPoll active.sequence active.operation (.ok report)
            (polled driver runner backend) =
            .error (.runner (.staleReport active.operation report.operation))
              (polled driver runner backend) := by
          unfold applyPoll
          dsimp only
          rw [bind_error (call_error (applyReport_of_foreign (hlive _ _ hs) hr))]
          rfl
        rw [call_error (f := driverField) hx]
        exact DriveOutcome.staleReport active reason runner report backend output ha hd hs hb hr

/-- Every drive of a coherent driver has one of the listed outcomes. -/
theorem driveOnce_outcome (h : Coherent driver) (scan : Vector ScanResult n) (ready : WaitSet) :
    DriveOutcome driver scan ready (driveOnce ready ⟨driver, scan⟩) := by
  unfold driveOnce
  rw [bind_ok (get_apply _)]
  cases ha : driver.arbiter.active with
  | none =>
    cases hp : driver.arbiter.pending with
    | none =>
      simp only [CommandArbiter.action, ha, h.notStarting, hp]
      exact DriveOutcome.idle ha hp
    | some held =>
      simp only [CommandArbiter.action, ha, h.notStarting, hp]
      exact startPending_outcome h ha hp
  | some active =>
    cases hd : cancelDue driver active with
    | true =>
      have hx : driver.arbiter.action = .cancelActive active.operation := by
        simp only [CommandArbiter.action, ha]
        exact if_pos hd
      rw [hx]
      exact cancelActive_outcome h ha hd
    | false =>
      have hx : driver.arbiter.action = .waitActive active.operation := by
        simp only [CommandArbiter.action, ha]
        exact if_neg (ne_true_of_eq_false hd)
      rw [hx]
      exact pollActive_outcome h ha hd

end Outcomes

end HisiRfCore.DriverCoherence
