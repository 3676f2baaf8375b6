import HisiRfCore.TelemetryAccount

/-!
# The counters balance

However the controller interleaves with the runner, every command that the runner
received is counted once when it ends, is owned by the driver, or is being entered; as
many completions were signalled as commands ended; and each call ends in at most one
counted outcome. The words show this until the calls run out of theirs, because no
other counter of the runner is ahead of the calls.
-/

namespace HisiRfCore.TelemetryBalance

open StateBorrow BoundedChannel WifiTypes RadioStorage IncrementalContract CommandArbitration
open BackendDriver DriverCoherence DriverCalls IncrementalFacade IncrementalInterleaving
open IncrementalService RunnerTelemetry TelemetryAccount InputOutputMachine FacadeFrame
open EventPublication (saturated saturated_toNat)

variable {B E : Type} {eventCapacity : ℕ}

/-- Commands that ended. -/
def terminals (n : Counter → ℕ) : ℕ :=
  n .operationsCompleted + n .operationsCancelled + n .operationsFailed

/-- Calls that ended in a counted outcome. -/
def outcomes (n : Counter → ℕ) : ℕ :=
  n .operationsStarted + n .cancellationsRequested + n .pendingPolls + n .budgetExhaustions +
    terminals n + n .driverErrors

/-- A call was begun and has no counted outcome yet. -/
def undecided : IncrementalPhase → Bool
  | .submitting _ _ | .sampling _ | .requesting _ _ | .driving _ => true
  | .idle | .publishing _ => false

/-- A success waits to be published. -/
def succeeding : IncrementalPhase → Bool
  | .publishing (.completed _ _) => true
  | _ => false

/-- Numbers of a state that the counts are compared with. -/
structure Figures where
  /-- A call was begun and has no counted outcome yet. -/
  undecided : ℕ
  /-- Commands received. -/
  received : ℕ
  /-- Commands that the driver owns. -/
  owned : ℕ
  /-- Command being entered. -/
  entering : ℕ
  /-- Completions signalled. -/
  signalled : ℕ
  /-- Ended command whose event waits to be published. -/
  ended : ℕ
  /-- Command with a live operation. -/
  active : ℕ
  /-- Success that waits to be published. -/
  succeeding : ℕ

/-- The numbers of a state. -/
def figures (s : IncrementalSystem B eventCapacity) : Figures where
  undecided := (undecided s.phase).toNat
  received := s.frame.shared.commands.received.length
  owned := s.frame.runner.driver.arbiter.owned.length
  entering := (entering s.phase).toList.length
  signalled := s.frame.shared.completion.written.length
  ended := (ended s.phase).toList.length
  active := s.frame.runner.driver.arbiter.activeSequence.toList.length
  succeeding := (succeeding s.phase).toNat

/-- The counts balance with the numbers of a state. -/
structure Fits (n : Counter → ℕ) (f : Figures) : Prop where
  /-- No call has more than one outcome. -/
  calls : outcomes n + f.undecided ≤ n .runOnceCalls
  /-- Received commands have ended, are owned, or are being entered. -/
  received : f.received = terminals n + f.owned + f.entering
  /-- A completion was signalled for each ended command but the one being published. -/
  signalled : f.signalled + f.ended = terminals n
  /-- A completed or active command was started. -/
  completed : n .operationsCompleted + f.active ≤ n .operationsStarted
  /-- A started command has ended or is active. -/
  started : n .operationsStarted ≤ terminals n + f.active
  /-- Only a success is refused by the publication. -/
  refused : n .protocolErrors + f.succeeding ≤ n .operationsCompleted

/-- Counts after the listed ticks. -/
def counted (n : Counter → ℕ) (ticks : List Counter) (c : Counter) : ℕ := n c + ticks.count c

section Counts

variable {n : Counter → ℕ}

/-- Outcomes add up. -/
theorem outcomes_counted (ticks : List Counter) :
    outcomes (counted n ticks) = outcomes n + outcomes fun c => ticks.count c := by
  simp only [outcomes, terminals, counted]
  omega

/-- Ended commands add up. -/
theorem terminals_counted (ticks : List Counter) :
    terminals (counted n ticks) = terminals n + terminals fun c => ticks.count c := by
  simp only [terminals, counted]
  omega

/-- An event is counted as at most one outcome. -/
theorem outcomes_event (event : IncrementalDriverEvent) :
    outcomes (fun c => (eventTick event).toList.count c) ≤ 1 := by
  cases event <;> first | exact Nat.le_refl 1 | exact Nat.zero_le 1

/-- A terminal event is counted as one ended command. -/
theorem terminals_event (event : IncrementalDriverEvent) :
    terminals (fun c => (eventTick event).toList.count c) = event.terminal.toList.length := by
  cases event <;> rfl

/-- A ready set is counted under no outcome. -/
theorem count_readyTicks (ready : WaitSet) {c : Counter}
    (hc : c ∉ [Counter.commandReadyBatches, .backendReadyBatches, .l2RxReadyBatches,
      .timerReadyBatches]) : (readyTicks ready).count c = 0 := by
  refine List.count_eq_zero.mpr fun hm => hc ?_
  unfold readyTicks at hm
  cases hcommand : ready.contains .command <;> cases hbackend : ready.contains .backend <;>
    cases hl2 : ready.contains .l2Rx <;> cases htimer : ready.contains .timer <;>
    simp only [hcommand, hbackend, hl2, htimer, if_true, if_false, Bool.false_eq_true,
      List.nil_append, List.append_nil, List.singleton_append, List.mem_cons, List.not_mem_nil,
      or_false] at hm ⊢ <;> tauto

/-- The start of a call is counted as a call and under no outcome. -/
theorem counted_begin (ready : WaitSet) :
    counted n (.runOnceCalls :: readyTicks ready) .runOnceCalls = n .runOnceCalls + 1 ∧
      outcomes (counted n (.runOnceCalls :: readyTicks ready)) = outcomes n ∧
      terminals (counted n (.runOnceCalls :: readyTicks ready)) = terminals n ∧
      ∀ c ∈ [Counter.operationsStarted, .operationsCompleted, .protocolErrors],
        counted n (.runOnceCalls :: readyTicks ready) c = n c := by
  have hsame : ∀ c ∈ [Counter.operationsStarted, .cancellationsRequested, .pendingPolls,
      .budgetExhaustions, .operationsCompleted, .operationsCancelled, .operationsFailed,
      .driverErrors, .protocolErrors],
      counted n (.runOnceCalls :: readyTicks ready) c = n c := by
    intro c hc
    have hready : (readyTicks ready).count c = 0 :=
      count_readyTicks ready (by revert hc; cases c <;> decide)
    have hne : Counter.runOnceCalls ≠ c := by
      rintro rfl
      revert hc
      decide
    rw [counted, List.count_cons_of_ne hne, hready, Nat.add_zero]
  refine ⟨?_, ?_, ?_, fun c hc => hsame c (by revert hc; cases c <;> decide)⟩
  · rw [counted, List.count_cons_self, count_readyTicks ready (by decide), Nat.zero_add]
  · simp only [outcomes, terminals]
    rw [hsame _ (by decide), hsame _ (by decide), hsame _ (by decide), hsame _ (by decide),
      hsame _ (by decide), hsame _ (by decide), hsame _ (by decide), hsame _ (by decide)]
  · simp only [terminals]
    rw [hsame _ (by decide), hsame _ (by decide), hsame _ (by decide)]

/-- An event is counted as one outcome at most, and as what it ends. -/
theorem counted_event (event : IncrementalDriverEvent) :
    counted n (eventTick event).toList .runOnceCalls = n .runOnceCalls ∧
      counted n (eventTick event).toList .protocolErrors = n .protocolErrors ∧
      outcomes (counted n (eventTick event).toList) ≤ outcomes n + 1 ∧
      terminals (counted n (eventTick event).toList) =
        terminals n + event.terminal.toList.length := by
  refine ⟨?_, ?_, ?_, ?_⟩
  · cases event <;> rfl
  · cases event <;> rfl
  · rw [outcomes_counted]
    exact Nat.add_le_add_left (outcomes_event event) _
  · rw [terminals_counted, terminals_event]

/-- A count under one name leaves the other names alone. -/
theorem counted_other {c d : Counter} (hc : c ≠ d) : counted n [d] c = n c := by
  rw [counted, List.count_singleton, beq_eq_false_iff_ne.mpr (Ne.symm hc)]
  rfl

end Counts

section Balance

variable {n : Counter → ℕ} {f : Figures}

/-- A call begins. -/
theorem Fits.begin (h : Fits n f) (ready : WaitSet) (hu : f.undecided = 0) :
    Fits (counted n (.runOnceCalls :: readyTicks ready)) {f with undecided := 1} := by
  obtain ⟨hcalls, hreceived, hsignalled, hcompleted, hstarted, hrefused⟩ := h
  obtain ⟨hbegun, hout, hterm, hsame⟩ := @counted_begin n ready
  have h1 := hsame .operationsStarted (by decide)
  have h2 := hsame .operationsCompleted (by decide)
  have h3 := hsame .protocolErrors (by decide)
  constructor <;> dsimp only <;> omega

/-- Nothing the counts are compared with changes. -/
theorem Fits.stay {undecided : ℕ} (h : Fits n f) (hu : f.undecided = undecided) :
    Fits n {f with undecided := undecided} := by
  rw [← hu]
  exact h

/-- A command is received. -/
theorem Fits.receive (h : Fits n f) (he : f.entering = 0) :
    Fits n {f with received := f.received + 1, entering := 1} := by
  obtain ⟨hcalls, hreceived, hsignalled, hcompleted, hstarted, hrefused⟩ := h
  constructor <;> dsimp only <;> omega

/-- The received command is owned. -/
theorem Fits.enter (h : Fits n f) (he : f.entering = 1) :
    Fits n {f with owned := f.owned + 1, entering := 0} := by
  obtain ⟨hcalls, hreceived, hsignalled, hcompleted, hstarted, hrefused⟩ := h
  constructor <;> dsimp only <;> omega

/-- The pending command is answered as cancelled. -/
theorem Fits.remove {owned : ℕ} (h : Fits n f) (hu : f.undecided = 1) (ho : f.owned = owned + 1) :
    Fits (counted n [.operationsCancelled])
      {f with undecided := 0, owned := owned, signalled := f.signalled + 1} := by
  obtain ⟨hcalls, hreceived, hsignalled, hcompleted, hstarted, hrefused⟩ := h
  have hout : outcomes (counted n [.operationsCancelled]) = outcomes n + 1 := by
    rw [outcomes_counted]
    rfl
  have hterm : terminals (counted n [.operationsCancelled]) = terminals n + 1 := by
    rw [terminals_counted]
    rfl
  have h1 := @counted_other n .runOnceCalls .operationsCancelled (by decide)
  have h2 := @counted_other n .operationsCompleted .operationsCancelled (by decide)
  have h3 := @counted_other n .operationsStarted .operationsCancelled (by decide)
  have h4 := @counted_other n .protocolErrors .operationsCancelled (by decide)
  constructor <;> dsimp only <;> omega

/-- The driver answers with an event: it starts what it keeps active, and completes what was. -/
theorem Fits.drive {owned active : ℕ} (h : Fits n f) (event : IncrementalDriverEvent)
    (hu : f.undecided = 1) (hended : f.ended = 0) (hsucceeding : f.succeeding = 0)
    (ho : event.terminal.toList.length + owned = f.owned)
    (hfirst : (eventTick event).toList.count .operationsCompleted + active ≤
      (eventTick event).toList.count .operationsStarted + f.active)
    (hsecond : (eventTick event).toList.count .operationsStarted + f.active ≤
      event.terminal.toList.length + active) :
    Fits (counted n (eventTick event).toList)
      {f with
        undecided := 0, owned := owned, ended := event.terminal.toList.length, active := active
        succeeding := (eventTick event).toList.count .operationsCompleted} := by
  obtain ⟨hcalls, hreceived, hsignalled, hcompleted, hstarted, hrefused⟩ := h
  obtain ⟨hbegun, hprotocol, hout, hterm⟩ := @counted_event n event
  have hcounts : ∀ c, counted n (eventTick event).toList c =
      n c + (eventTick event).toList.count c := fun _ => rfl
  have h1 := hcounts .operationsCompleted
  have h2 := hcounts .operationsStarted
  constructor <;> dsimp only <;> omega

/-- The driver reports an error. -/
theorem Fits.fail (h : Fits n f) (hu : f.undecided = 1) :
    Fits (counted n [.driverErrors]) {f with undecided := 0} := by
  obtain ⟨hcalls, hreceived, hsignalled, hcompleted, hstarted, hrefused⟩ := h
  have hout : outcomes (counted n [.driverErrors]) = outcomes n + 1 := rfl
  have hterm : terminals (counted n [.driverErrors]) = terminals n := rfl
  have h1 := @counted_other n .runOnceCalls .driverErrors (by decide)
  have h2 := @counted_other n .operationsCompleted .driverErrors (by decide)
  have h3 := @counted_other n .operationsStarted .driverErrors (by decide)
  have h4 := @counted_other n .protocolErrors .driverErrors (by decide)
  constructor <;> dsimp only <;> omega

/-- The completion of an ended command is signalled. -/
theorem Fits.publish (h : Fits n f) (he : f.ended = 1) :
    Fits n {f with signalled := f.signalled + 1, ended := 0, succeeding := 0} := by
  obtain ⟨hcalls, hreceived, hsignalled, hcompleted, hstarted, hrefused⟩ := h
  constructor <;> dsimp only <;> omega

/-- It is signalled, and a success of another kind is refused. -/
theorem Fits.refuse (h : Fits n f) (he : f.ended = 1) (hs : f.succeeding = 1) :
    Fits (counted n [.protocolErrors])
      {f with signalled := f.signalled + 1, ended := 0, succeeding := 0} := by
  obtain ⟨hcalls, hreceived, hsignalled, hcompleted, hstarted, hrefused⟩ := h
  have hout : outcomes (counted n [.protocolErrors]) = outcomes n := rfl
  have hterm : terminals (counted n [.protocolErrors]) = terminals n := rfl
  have hone : counted n [.protocolErrors] .protocolErrors = n .protocolErrors + 1 := rfl
  have h1 := @counted_other n .runOnceCalls .protocolErrors (by decide)
  have h2 := @counted_other n .operationsCompleted .protocolErrors (by decide)
  have h3 := @counted_other n .operationsStarted .protocolErrors (by decide)
  constructor <;> dsimp only <;> omega

end Balance

section Steps

variable [IncrementalWifiBackend B] {s : IncrementalSystem B eventCapacity} {n : Counter → ℕ}

/-- A drive starts a command that it keeps active, and completes one that was. -/
theorem drive_active {k : ℕ} {driver : IncrementalBackendDriver B} {scan : Vector ScanResult k}
    {ready : WaitSet} {event : IncrementalDriverEvent} {drive : DriverFrame B k}
    (h : DriveOutcome driver scan ready (.ok event drive)) :
    (eventTick event).toList.count .operationsCompleted +
        drive.driver.arbiter.activeSequence.toList.length ≤
      (eventTick event).toList.count .operationsStarted +
        driver.arbiter.activeSequence.toList.length ∧
    (eventTick event).toList.count .operationsStarted +
        driver.arbiter.activeSequence.toList.length ≤
      event.terminal.toList.length + drive.driver.arbiter.activeSequence.toList.length := by
  cases h with
  | idle ha hp => exact ⟨Nat.le_refl _, Nat.le_refl _⟩
  | started held backend ha hp hb =>
    have hnone : driver.arbiter.activeSequence = none := congrArg (Option.map _) ha
    rw [hnone]
    exact ⟨Nat.le_refl _, Nat.le_refl _⟩
  | startFailed held backend error ha hp hb =>
    have hnone : driver.arbiter.activeSequence = none := congrArg (Option.map _) ha
    rw [hnone]
    exact ⟨Nat.zero_le _, Nat.zero_le _⟩
  | cancelDelivered active backend ha hd hb =>
    have hsome := CommandArbiter.activeSequence_of_active ha
    rw [hsome]
    exact ⟨Nat.le_refl _, Nat.le_refl _⟩
  | cancelFailed active backend error ha hd hb =>
    have hsome := CommandArbiter.activeSequence_of_active ha
    rw [hsome]
    exact ⟨Nat.zero_le _, Nat.le_refl _⟩
  | waiting active waitFor runner ha hd hs => exact ⟨Nat.le_refl _, Nat.le_refl _⟩
  | pollFailed active reason runner error backend output ha hd hs hb =>
    have hsome := CommandArbiter.activeSequence_of_active ha
    rw [hsome]
    exact ⟨Nat.zero_le _, Nat.le_refl _⟩
  | kept active reason runner report backend output event waitFor ha hd hs hb hr he =>
    have hticks : (eventTick event).toList.count .operationsCompleted = 0 ∧
        (eventTick event).toList.count .operationsStarted = 0 := by
      cases hx : report.disposition <;> rw [hx] at he <;> cases he <;> exact ⟨rfl, rfl⟩
    rw [hticks.1, hticks.2, (keptEvent_names he).1]
    exact ⟨Nat.le_refl _, Nat.le_refl _⟩
  | ended active reason runner report backend output event ha hd hs hb hr he =>
    have hsome := CommandArbiter.activeSequence_of_active ha
    have hticks : (eventTick event).toList.count .operationsCompleted ≤ 1 ∧
        (eventTick event).toList.count .operationsStarted = 0 := by
      cases event <;>
        first
        | exact ⟨Nat.le_refl 1, rfl⟩
        | exact ⟨Nat.zero_le 1, rfl⟩
        | cases endedEvent_terminal he
    rw [hticks.2, hsome, endedEvent_terminal he]
    exact ⟨Nat.add_le_add_right hticks.1 0, Nat.le_refl _⟩

omit [IncrementalWifiBackend B] in
/-- A cancellation that removes no command leaves the owned and the active command alone. -/
theorem request_owned {driver : IncrementalBackendDriver B} {sequence : CommandSequence}
    (hk : driver.arbiter.activeSequence = some sequence ∨
      driver.arbiter.pendingSequence ≠ some sequence) :
    (after (IncrementalBackendDriver.requestCancel sequence driver)).arbiter.owned =
        driver.arbiter.owned ∧
      (after (IncrementalBackendDriver.requestCancel sequence driver)).arbiter.activeSequence =
        driver.arbiter.activeSequence := by
  rw [requestCancel_apply, after_ok]
  have he := CommandArbiter.requestCancel_effect sequence driver.arbiter
  generalize CommandArbiter.requestCancel sequence driver.arbiter = effect at he
  cases he with
  | requestActive active ha hs hr hi =>
    simp [CommandArbiter.owned, CommandArbiter.activeSequence, CommandArbiter.pendingSequence, ha]
  | alreadyRequested active ha hs hr => exact ⟨rfl, rfl⟩
  | removePending hs hp =>
    rcases hk with hk | hk
    · exact (hs hk).elim
    · exact (hk hp).elim
  | notFound hs hp => exact ⟨rfl, rfl⟩

/-- A failed drive leaves the active command alone. -/
theorem drive_active_error {k : ℕ} {driver : IncrementalBackendDriver B}
    {scan : Vector ScanResult k} {ready : WaitSet} {error : IncrementalDriverError}
    {drive : DriverFrame B k} (h : DriveOutcome driver scan ready (.error error drive)) :
    drive.driver.arbiter.activeSequence = driver.arbiter.activeSequence := by
  cases h <;> rfl

omit [IncrementalWifiBackend B] in
/-- The numbers that a phase determines. -/
theorem figures_phase {phase : IncrementalPhase} (hp : s.phase = phase) :
    (figures s).undecided = (undecided phase).toNat ∧
      (figures s).entering = (entering phase).toList.length ∧
      (figures s).ended = (ended phase).toList.length ∧
      (figures s).succeeding = (succeeding phase).toNat := by
  rw [← hp]
  exact ⟨rfl, rfl, rfl, rfl⟩

omit [IncrementalWifiBackend B] in
/-- The numbers after a step that puts a driver, a command channel and a completion in place. -/
theorem figures_frame {frame : FacadeFrame B eventCapacity} {driver : IncrementalBackendDriver B}
    {commands : Channel Command 1} {completion : Signal Completion}
    (hdriver : frame.runner.driver = driver) (hcommands : frame.shared.commands = commands)
    (hcompletion : frame.shared.completion = completion) (phase : IncrementalPhase) :
    figures {s with frame := frame, phase := phase} =
      {undecided := (undecided phase).toNat
       received := commands.received.length
       owned := driver.arbiter.owned.length
       entering := (entering phase).toList.length
       signalled := completion.written.length
       ended := (ended phase).toList.length
       active := driver.arbiter.activeSequence.toList.length
       succeeding := (succeeding phase).toNat} := by
  subst hdriver hcommands hcompletion
  rfl

omit [IncrementalWifiBackend B] in
/-- Receiving adds to the received commands, and the command is being entered. -/
theorem figures_received {command : Command} {rest : List Command} {ready : WaitSet}
    {frame : FacadeFrame B eventCapacity} (hp : s.phase = .idle)
    (hq : s.frame.shared.commands.queued = command :: rest) (ho : frame.owner = s.frame.owner)
    (hm : frame.shared.mailbox = {s.frame.shared.mailbox with
      commands := s.frame.shared.commands.tryReceive.2}) :
    figures {s with frame := frame, phase := .submitting command ready} =
      {figures s with
        undecided := 1, received := (figures s).received + 1, entering := 1} := by
  have hreceived : s.frame.shared.commands.tryReceive.2.received.length =
      s.frame.shared.commands.received.length + 1 := by
    rw [(tryReceive_of_cons hq).2.1, List.length_append, List.length_singleton]
  rw [figures_frame (congrArg Owner.driver ho) (congrArg Mailbox.commands hm)
    (congrArg Mailbox.completion hm), figures, hp, hreceived]
  rfl

omit [IncrementalWifiBackend B] in
/-- Entering makes the command an owned one. -/
theorem figures_submitted {command : Command} {ready : WaitSet} {sequence : CommandSequence}
    {request : IncrementalRequest} {ledger : CommandLedger} {frame : FacadeFrame B eventCapacity}
    (hp : s.phase = .submitting command ready)
    (hroom : s.frame.runner.driver.canSubmit = true)
    (ho : frame.owner = ⟨submittedDriver sequence request s.frame.runner.driver, ledger⟩)
    (hm : frame.shared.mailbox = s.frame.shared.mailbox) :
    figures {s with frame := frame, phase := .sampling ready} =
      {figures s with owned := (figures s).owned + 1, entering := 0} := by
  have howned : (submittedDriver sequence request s.frame.runner.driver).arbiter.owned.length =
      s.frame.runner.driver.arbiter.owned.length + 1 := by
    rw [owned_of_canSubmit hroom]
    simp [submittedDriver, CommandArbiter.owned, CommandArbiter.activeSequence,
      CommandArbiter.pendingSequence]
  rw [figures_frame (congrArg Owner.driver ho) (congrArg Mailbox.commands hm)
    (congrArg Mailbox.completion hm), figures, hp, howned]
  rfl

omit [IncrementalWifiBackend B] in
/-- A signal adds to the signalled completions. -/
theorem signalled_length (completion : Completion) :
    (s.frame.shared.completion.signal completion).written.length =
      s.frame.shared.completion.written.length + 1 := by
  rw [signal_written, List.length_append, List.length_singleton]

omit [IncrementalWifiBackend B] in
/-- A driver with a pending command owns one more than without it. -/
theorem removed_length {driver : IncrementalBackendDriver B} {sequence : CommandSequence}
    (hh : driver.arbiter.pendingSequence = some sequence) :
    driver.arbiter.owned.length = (removedDriver driver).arbiter.owned.length + 1 := by
  rw [CommandArbiter.owned, hh, List.length_append]
  simp [removedDriver, CommandArbiter.owned, CommandArbiter.activeSequence,
    CommandArbiter.pendingSequence]

omit [IncrementalWifiBackend B] in
/-- A step that changes neither channel nor an owned command changes only whether the call has
its outcome. -/
theorem figures_same {frame : FacadeFrame B eventCapacity} {phase : IncrementalPhase}
    (phase' : IncrementalPhase) (hp : s.phase = phase)
    (howned : frame.runner.driver.arbiter.owned = s.frame.runner.driver.arbiter.owned)
    (hactive : frame.runner.driver.arbiter.activeSequence =
      s.frame.runner.driver.arbiter.activeSequence)
    (hcommands : frame.shared.commands = s.frame.shared.commands)
    (hcompletion : frame.shared.completion = s.frame.shared.completion)
    (hphase : entering phase' = entering phase ∧ ended phase' = ended phase ∧
      succeeding phase' = succeeding phase) :
    figures {s with frame := frame, phase := phase'} =
      {figures s with undecided := (undecided phase').toNat} := by
  obtain ⟨hentering, hended, hsucceeding⟩ := hphase
  rw [figures_frame rfl hcommands hcompletion, howned, hactive, hentering, hended, hsucceeding,
    ← hp]
  rfl

omit [IncrementalWifiBackend B] in
/-- Answering the pending command leaves one command less. -/
theorem figures_removed {sequence : CommandSequence} {ready : WaitSet} {completion : Completion}
    {ledger : CommandLedger} {frame : FacadeFrame B eventCapacity}
    (hp : s.phase = .requesting sequence.get ready)
    (ho : frame.owner = ⟨removedDriver s.frame.runner.driver, ledger⟩)
    (hm : frame.shared.mailbox = {s.frame.shared.mailbox with
      completion := s.frame.shared.completion.signal completion}) :
    figures {s with frame := frame, phase := .idle} =
      {figures s with
        undecided := 0, owned := (removedDriver s.frame.runner.driver).arbiter.owned.length
        signalled := (figures s).signalled + 1} := by
  rw [figures_frame (congrArg Owner.driver ho) (congrArg Mailbox.commands hm)
    (congrArg Mailbox.completion hm), figures, hp, signalled_length]
  rfl

omit [IncrementalWifiBackend B] in
/-- A drive leaves the commands that it did not end. -/
theorem figures_driven {ready : WaitSet} {event : IncrementalDriverEvent}
    {driver : IncrementalBackendDriver B} {ledger : CommandLedger} {scan : ScanBuffer}
    {frame : FacadeFrame B eventCapacity} (hp : s.phase = .driving ready)
    (ho : frame.owner = ⟨driver, ledger⟩)
    (hm : frame.shared.mailbox = {s.frame.shared.mailbox with scanResults := scan}) :
    figures {s with frame := frame, phase := .publishing event} =
      {figures s with
        undecided := 0, owned := driver.arbiter.owned.length
        ended := event.terminal.toList.length
        active := driver.arbiter.activeSequence.toList.length
        succeeding := (eventTick event).toList.count .operationsCompleted} := by
  have hsucceeding : (succeeding (.publishing event)).toNat =
      (eventTick event).toList.count .operationsCompleted := by
    cases event <;> rfl
  rw [figures_frame (congrArg Owner.driver ho) (congrArg Mailbox.commands hm)
    (congrArg Mailbox.completion hm), figures, hp, hsucceeding]
  rfl

omit [IncrementalWifiBackend B] in
/-- A publication signals the completion of the ended command. -/
theorem figures_published {event : IncrementalDriverEvent} {completion : Completion}
    {ledger : CommandLedger} {frame : FacadeFrame B eventCapacity}
    (hp : s.phase = .publishing event)
    (ho : frame.owner = ⟨s.frame.runner.driver, ledger⟩)
    (hm : frame.shared.mailbox = {s.frame.shared.mailbox with
      completion := s.frame.shared.completion.signal completion}) :
    figures {s with frame := frame, phase := .idle} =
      {figures s with signalled := (figures s).signalled + 1, ended := 0, succeeding := 0} := by
  rw [figures_frame (congrArg Owner.driver ho) (congrArg Mailbox.commands hm)
    (congrArg Mailbox.completion hm), figures, hp, signalled_length]
  rfl

/-- The answer of a drive keeps the balance. -/
theorem Fits.driven {ready : WaitSet} {event : IncrementalDriverEvent}
    {drive : DriverFrame B maxScanResults} {frame : FacadeFrame B eventCapacity}
    (h : Fits n (figures s)) (hp : s.phase = .driving ready)
    (hd : DriveOutcome s.frame.runner.driver s.frame.shared.scanResults (ready.without .cancel)
      (.ok event drive))
    (ho : frame.owner = ⟨drive.driver, s.frame.runner.ledger⟩)
    (hm : frame.shared.mailbox = {s.frame.shared.mailbox with scanResults := drive.scanOutput}) :
    Fits (counted n (eventTick event).toList)
      (figures {s with frame := frame, phase := .publishing event}) := by
  obtain ⟨hu, -, hended, hsucceeding⟩ := figures_phase hp
  obtain ⟨hfirst, hsecond⟩ := drive_active hd
  have howned : event.terminal.toList.length + drive.driver.arbiter.owned.length =
      s.frame.runner.driver.arbiter.owned.length := by
    rw [← List.length_append, drive_owned hd]
  rw [figures_driven hp ho hm]
  exact h.drive event hu hended hsucceeding howned hfirst hsecond

omit [IncrementalWifiBackend B] in
/-- A publication keeps the balance, also when it refuses a success of another kind. -/
theorem Fits.published {event : IncrementalDriverEvent} {sequence : CommandSequence}
    {kind : CommandKindTag} {ready : WaitSet} {frame : FacadeFrame B eventCapacity}
    (h : Fits n (figures s)) (hp : s.phase = .publishing event)
    (ht : event.terminal = some sequence)
    (ho : frame.owner = ⟨s.frame.runner.driver, (s.frame.runner.ledger.remove sequence).2⟩)
    (hm : frame.shared.mailbox = {s.frame.shared.mailbox with
      completion := s.frame.shared.completion.signal
        ⟨sequence.get, publishedKind kind event⟩}) :
    Fits (counted n (stepTicks ready (.publishing event) .idle
        (some (if mismatched kind event then .error .completionMismatch else .ok event))))
      (figures {s with frame := frame, phase := .idle}) := by
  obtain ⟨-, -, hended, hsucceeding⟩ := figures_phase hp
  rw [IncrementalService.ended, ht] at hended
  rw [figures_published hp ho hm]
  cases hmis : mismatched kind event with
  | false => exact h.publish hended
  | true =>
    have hone : succeeding (.publishing event) = true := by
      cases event <;> first | rfl | cases hmis
    rw [hone] at hsucceeding
    exact h.refuse hended hsucceeding

/-- Every effect of the runner keeps the balance, with what it counts. -/
theorem Fits.runner {ready : WaitSet} {t : ServiceProtocol.Service eventCapacity}
    {effect : IncrementalSystem B eventCapacity × Option CallResult} (hs : Simulates s t)
    (h : Fits n (figures s)) (he : RunnerEffect s effect) :
    Fits (counted n (stepTicks ready s.phase effect.1.phase effect.2)) (figures effect.1) := by
  cases he with
  | received command rest ready' frame hp hc hq ho hm =>
    obtain ⟨hu, hentering, -, -⟩ := figures_phase hp
    rw [hp, figures_received hp hq ho hm]
    exact (h.begin ready hu).receive hentering
  | unreceived ready' frame hp hn ho hm =>
    rw [hp, figures_same (.sampling ready') hp (congrArg (fun o => o.driver.arbiter.owned) ho)
      (congrArg (fun o => o.driver.arbiter.activeSequence) ho) (congrArg Mailbox.commands hm)
      (congrArg Mailbox.completion hm) ⟨rfl, rfl, rfl⟩]
    exact h.begin ready (figures_phase hp).1
  | submitted command ready' sequence request frame hp hsequence ho hm =>
    rw [hp, figures_submitted hp (hs.room command ready' hp) ho hm]
    exact h.enter (figures_phase hp).2.1
  | sampled x rest ready' frame hp hq ho hm =>
    rw [hp, figures_same (.requesting x ready') hp (congrArg (fun o => o.driver.arbiter.owned) ho)
      (congrArg (fun o => o.driver.arbiter.activeSequence) ho) (congrArg Mailbox.commands hm)
      (congrArg Mailbox.completion hm) ⟨rfl, rfl, rfl⟩]
    exact h.stay (figures_phase hp).1
  | unsampled ready' hp hq =>
    rw [hp, figures_same (.driving ready') hp rfl rfl rfl rfl ⟨rfl, rfl, rfl⟩]
    exact h.stay (figures_phase hp).1
  | requested sequence ready' frame hp hk ho hm =>
    obtain ⟨howned, hactive⟩ := request_owned hk
    rw [hp, figures_same (.driving ready') hp
      ((congrArg (fun o => o.driver.arbiter.owned) ho).trans howned)
      ((congrArg (fun o => o.driver.arbiter.activeSequence) ho).trans hactive)
      (congrArg Mailbox.commands hm) (congrArg Mailbox.completion hm) ⟨rfl, rfl, rfl⟩]
    exact h.stay (figures_phase hp).1
  | removed sequence kind ready' frame hp ha hh hk ho hm =>
    rw [hp, figures_removed hp ho hm]
    exact h.remove (figures_phase hp).1 (removed_length hh)
  | driven ready' event drive frame hp hd ho hm =>
    rw [hp]
    exact h.driven hp hd ho hm
  | failed ready' error drive frame hp hd ho hm =>
    rw [hp, figures_same .idle hp
      ((congrArg (fun o => o.driver.arbiter.owned) ho).trans (drive_owned_error hd))
      ((congrArg (fun o => o.driver.arbiter.activeSequence) ho).trans (drive_active_error hd))
      (congrArg Mailbox.commands hm) (congrArg Mailbox.completion hm) ⟨rfl, rfl, rfl⟩]
    exact h.fail (figures_phase hp).1
  | published event sequence kind frame hp ht hk ho hm =>
    rw [hp]
    exact h.published hp ht ho hm
  | unpublished event hp ht =>
    have hsucceeding : succeeding (.publishing event) = false := by
      cases event <;> first | rfl | cases ht
    have hended : ended (.publishing event) = none := ht
    rw [hp, figures_same .idle hp rfl rfl rfl rfl ⟨rfl, hended.symm, hsucceeding.symm⟩]
    exact h.stay (figures_phase hp).1

/-- The counters of a system stand for counts that balance with its state. -/
structure Balanced (n : Counter → ℕ) (s : IncrementalSystem B eventCapacity) : Prop where
  /-- Each word holds its count, as far as it can. -/
  words : ∀ c, word s.frame.runner.diagnostics c = saturated (n c)
  /-- The published words are the runner's. -/
  published : s.frame.shared.incrementalDiagnostics = s.frame.runner.diagnostics
  /-- The counts balance. -/
  fits : Fits n (figures s)

/-- Every step of either side keeps counts that balance. -/
theorem balanced_next (interrupt : E → B → B) (hacc : Accountable s) (h : ∃ n, Balanced n s)
    (input : IncrementalInput E) :
    ∃ n, Balanced n ((incrementalMachine interrupt).next s input) := by
  obtain ⟨n, hn⟩ := h
  cases input with
  | control step =>
    have hf := AsyncControl.control_forwards
      (AsyncControl.step_effect s.plane s.frame.shared step)
    have hd := control_diagnostics s.plane s.frame.shared step
    have hfigures : figures ((incrementalMachine interrupt).next s (.control step)) = figures s := by
      simp only [figures, Machine.next, incrementalMachine]
      rw [show (s.plane.step s.frame.shared step).2.commands.received =
          s.frame.shared.commands.received from hf.commandsReceived,
        show (s.plane.step s.frame.shared step).2.completion.written =
          s.frame.shared.completion.written from hf.written]
    refine ⟨n, hn.words, hd.trans hn.published, ?_⟩
    rw [hfigures]
    exact hn.fits
  | runner ready =>
    have hticks := runnerStep_ticks ready hacc
    obtain ⟨t, hs, hb, -⟩ := hacc
    have hfits := @Fits.runner _ _ _ _ _ ready _ _ hs hn.fits (runnerStep_effect ready hs hb)
    refine ⟨_, fun c => ?_, hticks.published hn.published, hfits⟩
    show word (runnerStep ready s).1.frame.runner.diagnostics c = _
    rw [hticks.own]
    exact word_tally (hn.words c) _
  | backendEvent event => exact ⟨n, hn.words, hn.published, hn.fits⟩

end Steps

/-- A word below its largest value is exact. -/
theorem lt_of_saturated {n : ℕ} (h : (saturated n).toNat < 2 ^ 32 - 1) : n < 2 ^ 32 - 1 := by
  by_contra hn
  have hmin : min n (UInt32.size - 1) = UInt32.size - 1 :=
    Nat.min_eq_right (by simp only [UInt32.size]; omega)
  rw [saturated, hmin] at h
  exact absurd h (by decide)

/-- Counts that agree on what is compared balance alike. -/
theorem Fits.congr {n m : Counter → ℕ} {f : Figures} (h : Fits n f)
    (hm : ∀ c ∈ [Counter.runOnceCalls, .operationsStarted, .cancellationsRequested, .pendingPolls,
      .budgetExhaustions, .operationsCompleted, .operationsCancelled, .operationsFailed,
      .driverErrors, .protocolErrors], m c = n c) : Fits m f := by
  have hterm : terminals m = terminals n := by
    simp only [terminals]
    rw [hm _ (by decide), hm _ (by decide), hm _ (by decide)]
  have hout : outcomes m = outcomes n := by
    simp only [outcomes, hterm]
    rw [hm _ (by decide), hm _ (by decide), hm _ (by decide), hm _ (by decide), hm _ (by decide)]
  obtain ⟨hcalls, hreceived, hsignalled, hcompleted, hstarted, hrefused⟩ := h
  have h1 := hm .runOnceCalls (by decide)
  have h2 := hm .operationsStarted (by decide)
  have h3 := hm .operationsCompleted (by decide)
  have h4 := hm .protocolErrors (by decide)
  constructor <;> omega

/-- As long as the calls are counted, each compared word is its count, so the words balance. -/
theorem Balanced.exact {s : IncrementalSystem B eventCapacity} {n : Counter → ℕ}
    (hn : Balanced n s) (hcalls : s.frame.runner.diagnostics.runOnceCalls.toNat < 2 ^ 32 - 1) :
    Fits (fun c => (word s.frame.runner.diagnostics c).toNat) (figures s) := by
  have hexact : n .runOnceCalls < 2 ^ 32 - 1 := by
    refine lt_of_saturated ?_
    rw [← hn.words .runOnceCalls]
    exact hcalls
  have hbound := hn.fits.calls
  have hrefused := hn.fits.refused
  simp only [outcomes, terminals] at hbound
  refine hn.fits.congr fun c hc => ?_
  have hlt : n c < 2 ^ 32 - 1 := by
    simp only [List.mem_cons, List.not_mem_nil, or_false] at hc
    rcases hc with rfl | rfl | rfl | rfl | rfl | rfl | rfl | rfl | rfl | rfl <;> omega
  rw [hn.words c, saturated_toNat hlt]

section Runs

variable [IncrementalWifiBackend B] (interrupt : E → B → B) (backend : B) (budget : WorkBudget)
  (config : WifiConfig) (hpos : 0 < eventCapacity)

omit [IncrementalWifiBackend B] in
/-- Nothing is counted before the first call. -/
theorem balanced_start : Balanced (fun _ => 0) (incrementalStart backend budget config hpos) := by
  refine ⟨word_empty, rfl, ?_⟩
  constructor <;> first | exact Nat.le_refl _ | rfl

/-- In every interleaving of the controller, the runner and the backend, as long as the
published word of the calls is below its largest value, the published words balance with
the commands received, the commands the driver owns and the completions signalled. -/
theorem telemetry_balances (inputs : List (IncrementalInput E))
    (hcalls : (incrementalRun interrupt backend budget config hpos
      inputs).frame.shared.incrementalDiagnostics.runOnceCalls.toNat < 2 ^ 32 - 1) :
    Fits (fun c => (word (incrementalRun interrupt backend budget config hpos
        inputs).frame.shared.incrementalDiagnostics c).toNat)
      (figures (incrementalRun interrupt backend budget config hpos inputs)) := by
  have h : Accountable (incrementalRun interrupt backend budget config hpos inputs) ∧
      ∃ n, Balanced n (incrementalRun interrupt backend budget config hpos inputs) := by
    refine run_invariant (incrementalMachine interrupt)
      (I := fun s => Accountable s ∧ ∃ n, Balanced n s) ?_ ?_ inputs
    · exact ⟨accountable_start backend budget config hpos, _,
        balanced_start backend budget config hpos⟩
    · rintro s input ⟨hacc, hn⟩
      exact ⟨accountable_next interrupt hacc input, balanced_next interrupt hacc hn input⟩
  obtain ⟨-, n, hn⟩ := h
  rw [hn.published] at hcalls ⊢
  exact hn.exact hcalls

end Runs

/-- A disconnection is carried out, and another one is dropped while it is queued. -/
def disconnections : List (IncrementalInput Unit) :=
  [.control (.call .disconnect), .control .allocate, .control .send] ++
    List.replicate 12 (.runner .backend) ++
    [.control .observe, .control .finish, .control (.call .disconnect), .control .allocate,
      .control .send, .control .drop] ++ List.replicate 12 (.runner .empty)

/-- One command has completed and one was cancelled. -/
theorem telemetry_balances_disconnections :
    (fun d : IncrementalRunnerDiagnostics =>
      (d.runOnceCalls, d.operationsStarted, d.operationsCompleted, d.operationsCancelled))
        (replayRun disconnections).frame.shared.incrementalDiagnostics = (6, 1, 1, 1) ∧
    Fits (fun c => (word (replayRun disconnections).frame.shared.incrementalDiagnostics c).toNat)
      (figures (replayRun disconnections)) :=
  ⟨by decide +kernel, telemetry_balances _ _ _ _ _ disconnections (by decide +kernel)⟩

end HisiRfCore.TelemetryBalance
