import HisiRfCore.EventPublication
import HisiRfCore.IncrementalWait

/-!
# Counters of the incremental runner

The runner counts its calls, its waits and the driver's events in eighteen words that
stay at their largest value, and publishes all of them after each change. Here each
word gets a name, each piece of a call and of a wait the names it counts, and a list of
names the words that it leaves behind. Nothing else writes the counters.
-/

namespace HisiRfCore.RunnerTelemetry

open StateBorrow BoundedChannel WifiTypes RadioStorage IncrementalContract CommandArbitration
open BackendDriver IncrementalFacade IncrementalInterleaving IncrementalWait FacadeFrame
open EventPublication (saturated saturatingIncrement_saturated)

/-- Words of the diagnostics, in the order they are published. -/
inductive Counter
  | runOnceCalls | commandReadyBatches | backendReadyBatches | l2RxReadyBatches
  | timerReadyBatches | waitReadyCalls | waitReadyCompletions | immediateReadyCompletions
  | waitReadyErrors | operationsStarted | cancellationsRequested | pendingPolls
  | budgetExhaustions | operationsCompleted | operationsCancelled | operationsFailed
  | driverErrors | protocolErrors
  deriving DecidableEq

/-- Position of a word in the published array. -/
def Counter.index : Counter → Fin 18
  | .runOnceCalls => 0
  | .commandReadyBatches => 1
  | .backendReadyBatches => 2
  | .l2RxReadyBatches => 3
  | .timerReadyBatches => 4
  | .waitReadyCalls => 5
  | .waitReadyCompletions => 6
  | .immediateReadyCompletions => 7
  | .waitReadyErrors => 8
  | .operationsStarted => 9
  | .cancellationsRequested => 10
  | .pendingPolls => 11
  | .budgetExhaustions => 12
  | .operationsCompleted => 13
  | .operationsCancelled => 14
  | .operationsFailed => 15
  | .driverErrors => 16
  | .protocolErrors => 17

/-- Value of one counter. -/
def word (d : IncrementalRunnerDiagnostics) : Counter → UInt32
  | .runOnceCalls => d.runOnceCalls
  | .commandReadyBatches => d.commandReadyBatches
  | .backendReadyBatches => d.backendReadyBatches
  | .l2RxReadyBatches => d.l2RxReadyBatches
  | .timerReadyBatches => d.timerReadyBatches
  | .waitReadyCalls => d.waitReadyCalls
  | .waitReadyCompletions => d.waitReadyCompletions
  | .immediateReadyCompletions => d.immediateReadyCompletions
  | .waitReadyErrors => d.waitReadyErrors
  | .operationsStarted => d.operationsStarted
  | .cancellationsRequested => d.cancellationsRequested
  | .pendingPolls => d.pendingPolls
  | .budgetExhaustions => d.budgetExhaustions
  | .operationsCompleted => d.operationsCompleted
  | .operationsCancelled => d.operationsCancelled
  | .operationsFailed => d.operationsFailed
  | .driverErrors => d.driverErrors
  | .protocolErrors => d.protocolErrors

/-- The counters as the array that is published. -/
def asArray (d : IncrementalRunnerDiagnostics) : Vector UInt32 18 :=
  #v[d.runOnceCalls, d.commandReadyBatches, d.backendReadyBatches, d.l2RxReadyBatches,
    d.timerReadyBatches, d.waitReadyCalls, d.waitReadyCompletions, d.immediateReadyCompletions,
    d.waitReadyErrors, d.operationsStarted, d.cancellationsRequested, d.pendingPolls,
    d.budgetExhaustions, d.operationsCompleted, d.operationsCancelled, d.operationsFailed,
    d.driverErrors, d.protocolErrors]

/-- The counters that an array holds. -/
def fromArray (values : Vector UInt32 18) : IncrementalRunnerDiagnostics :=
  ⟨values[0], values[1], values[2], values[3], values[4], values[5], values[6], values[7],
    values[8], values[9], values[10], values[11], values[12], values[13], values[14],
    values[15], values[16], values[17]⟩

/-- The array holds the counters. -/
theorem fromArray_asArray (d : IncrementalRunnerDiagnostics) : fromArray (asArray d) = d := rfl

/-- Each counter stands at its position. -/
theorem asArray_index (d : IncrementalRunnerDiagnostics) (c : Counter) :
    (asArray d).get c.index = word d c := by
  cases c <;> rfl

/-- Increment one counter. -/
def count (d : IncrementalRunnerDiagnostics) : Counter → IncrementalRunnerDiagnostics
  | .runOnceCalls => {d with runOnceCalls := saturatingIncrement d.runOnceCalls}
  | .commandReadyBatches =>
    {d with commandReadyBatches := saturatingIncrement d.commandReadyBatches}
  | .backendReadyBatches =>
    {d with backendReadyBatches := saturatingIncrement d.backendReadyBatches}
  | .l2RxReadyBatches => {d with l2RxReadyBatches := saturatingIncrement d.l2RxReadyBatches}
  | .timerReadyBatches => {d with timerReadyBatches := saturatingIncrement d.timerReadyBatches}
  | .waitReadyCalls => {d with waitReadyCalls := saturatingIncrement d.waitReadyCalls}
  | .waitReadyCompletions =>
    {d with waitReadyCompletions := saturatingIncrement d.waitReadyCompletions}
  | .immediateReadyCompletions =>
    {d with immediateReadyCompletions := saturatingIncrement d.immediateReadyCompletions}
  | .waitReadyErrors => {d with waitReadyErrors := saturatingIncrement d.waitReadyErrors}
  | .operationsStarted => {d with operationsStarted := saturatingIncrement d.operationsStarted}
  | .cancellationsRequested =>
    {d with cancellationsRequested := saturatingIncrement d.cancellationsRequested}
  | .pendingPolls => {d with pendingPolls := saturatingIncrement d.pendingPolls}
  | .budgetExhaustions => {d with budgetExhaustions := saturatingIncrement d.budgetExhaustions}
  | .operationsCompleted =>
    {d with operationsCompleted := saturatingIncrement d.operationsCompleted}
  | .operationsCancelled =>
    {d with operationsCancelled := saturatingIncrement d.operationsCancelled}
  | .operationsFailed => {d with operationsFailed := saturatingIncrement d.operationsFailed}
  | .driverErrors => {d with driverErrors := saturatingIncrement d.driverErrors}
  | .protocolErrors => {d with protocolErrors := saturatingIncrement d.protocolErrors}

/-- The counter that was incremented. -/
@[simp] theorem word_count_self (d : IncrementalRunnerDiagnostics) (c : Counter) :
    word (count d c) c = saturatingIncrement (word d c) := by
  cases c <;> rfl

/-- Any other counter. -/
theorem word_count_of_ne (d : IncrementalRunnerDiagnostics) {c x : Counter} (h : x ≠ c) :
    word (count d x) c = word d c := by
  cases x <;> cases c <;> first | rfl | exact (h rfl).elim

/-- Increment the listed counters, one after the other. -/
def tally (d : IncrementalRunnerDiagnostics) (ticks : List Counter) :
    IncrementalRunnerDiagnostics := ticks.foldl count d

@[simp] theorem tally_nil (d : IncrementalRunnerDiagnostics) : tally d [] = d := rfl

/-- Counting in two parts. -/
theorem tally_append (d : IncrementalRunnerDiagnostics) (before after : List Counter) :
    tally d (before ++ after) = tally (tally d before) after := List.foldl_append

/-- Each counter goes up by its share of the list, as far as it can. -/
theorem word_tally {d : IncrementalRunnerDiagnostics} {c : Counter} {n : ℕ}
    (h : word d c = saturated n) (ticks : List Counter) :
    word (tally d ticks) c = saturated (n + ticks.count c) := by
  induction ticks generalizing d n with
  | nil => exact h
  | cons x rest ih =>
    show word (tally (count d x) rest) c = _
    by_cases hx : x = c
    · subst hx
      have hone : word (count d x) x = saturated (n + 1) := by
        rw [word_count_self, h, saturatingIncrement_saturated]
      rw [ih hone, List.count_cons_self, Nat.add_assoc, Nat.add_comm 1]
    · have hsame : word (count d x) c = saturated n := (word_count_of_ne d hx).trans h
      rw [ih hsame, List.count_cons_of_ne hx]

/-- Counters at zero count nothing. -/
theorem word_empty (c : Counter) : word .empty c = saturated 0 := by
  cases c <;> rfl

/-- Sources counted for a ready set. -/
def readyTicks (ready : WaitSet) : List Counter :=
  (if ready.contains .command then [Counter.commandReadyBatches] else []) ++
    ((if ready.contains .backend then [Counter.backendReadyBatches] else []) ++
      ((if ready.contains .l2Rx then [Counter.l2RxReadyBatches] else []) ++
        (if ready.contains .timer then [Counter.timerReadyBatches] else [])))

/-- Counter of a driver event. -/
def eventTick : IncrementalDriverEvent → Option Counter
  | .started _ _ => some .operationsStarted
  | .cancelRequested _ _ => some .cancellationsRequested
  | .pending _ _ _ _ => some .pendingPolls
  | .budgetExhausted _ _ _ _ => some .budgetExhaustions
  | .completed _ _ => some .operationsCompleted
  | .cancelled _ _ => some .operationsCancelled
  | .failed _ _ _ => some .operationsFailed
  | .idle | .waiting _ _ _ => none

/-- A ready set is counted under its sources. -/
theorem recordReady_tally (ready : WaitSet) (d : IncrementalRunnerDiagnostics) :
    recordReady ready d = tally d (readyTicks ready) := by
  unfold recordReady readyTicks
  dsimp only
  rw [tally_append, tally_append, tally_append]
  cases ready.contains .command <;> cases ready.contains .backend <;>
    cases ready.contains .l2Rx <;> cases ready.contains .timer <;> rfl

/-- An event is counted under its kind. -/
theorem recordEvent_tally (event : IncrementalDriverEvent) (d : IncrementalRunnerDiagnostics) :
    recordEvent event d = tally d (eventTick event).toList := by
  cases event <;> rfl

variable {B ε : Type} {eventCapacity : ℕ}

/-- The runner's own counters and the published ones. -/
def telemetry (frame : FacadeFrame B eventCapacity) :
    IncrementalRunnerDiagnostics × IncrementalRunnerDiagnostics :=
  (frame.runner.diagnostics, frame.shared.incrementalDiagnostics)

/-- A step that counts the listed counters and publishes the result, or counts nothing
and leaves the published counters alone. -/
structure Ticks (ticks : List Counter) (before next : FacadeFrame B eventCapacity) : Prop where
  /-- The counters of the runner. -/
  own : next.runner.diagnostics = tally before.runner.diagnostics ticks
  /-- The published counters follow. -/
  published : before.shared.incrementalDiagnostics = before.runner.diagnostics →
    next.shared.incrementalDiagnostics = next.runner.diagnostics

/-- What leaves the counters alone counts nothing. -/
theorem Ticks.of_eq {before next : FacadeFrame B eventCapacity}
    (h : telemetry next = telemetry before) : Ticks [] before next := by
  obtain ⟨hown, hpublished⟩ := Prod.mk.inj h
  exact ⟨hown, fun hp => by rw [hpublished, hown, hp]⟩

/-- Steps count one after the other. -/
theorem Ticks.trans {first second : List Counter} {a b c : FacadeFrame B eventCapacity}
    (hab : Ticks first a b) (hbc : Ticks second b c) : Ticks (first ++ second) a c := by
  refine ⟨?_, fun hp => hbc.published (hab.published hp)⟩
  rw [tally_append, ← hab.own]
  exact hbc.own

/-- A published change counts what it adds. -/
theorem Ticks.set {f : IncrementalRunnerDiagnostics → IncrementalRunnerDiagnostics}
    {ticks : List Counter} {before next : FacadeFrame B eventCapacity}
    (h : ∀ d, f d = tally d ticks) (hn : next = setDiagnostics f before) :
    Ticks ticks before next := by
  subst hn
  exact ⟨h _, fun _ => rfl⟩

section Pieces

variable [IncrementalWifiBackend B] {frame next : FacadeFrame B eventCapacity}

omit [IncrementalWifiBackend B] in
/-- A call counts itself and its sources first. -/
theorem beginCall_ticks (ready : WaitSet) :
    Ticks (.runOnceCalls :: readyTicks ready) frame (beginCall ready frame) :=
  .set (fun _ => recordReady_tally ready _) rfl

omit [IncrementalWifiBackend B] in
/-- Receiving counts nothing. -/
theorem receiveCommand_telemetry : telemetry (receiveCommand frame).2 = telemetry frame := by
  unfold receiveCommand
  split
  · split <;> rfl
  · rfl

omit [IncrementalWifiBackend B] in
/-- Taking a cancellation counts nothing. -/
theorem receiveCancellation_telemetry :
    telemetry (receiveCancellation frame).2 = telemetry frame := by
  unfold receiveCancellation
  split <;> rfl

omit [IncrementalWifiBackend B] in
/-- An event leaves the published counters alone. -/
theorem publishEvent_diagnostics (event : WifiEvent) (shared : SharedState eventCapacity) :
    (shared.publishEvent event).incrementalDiagnostics = shared.incrementalDiagnostics := by
  unfold SharedState.publishEvent
  split
  · rfl
  · split <;> rfl

omit [IncrementalWifiBackend B] in
/-- Entering a command counts nothing of its own. -/
theorem submitCommand_telemetry (command : Command) :
    Keeps (@telemetry B eventCapacity) (submitCommand command) := by
  unfold submitCommand
  cases CommandSequence.tryFromRaw command.sequence with
  | none =>
    refine Keeps.bind (keeps_modify ?_) fun _ => keeps_throw _
    exact fun _ => rfl
  | some sequence =>
    refine (keeps_update (fun _ _ => rfl) _).bind fun inserted => ?_
    have hsubmit : Keeps (@telemetry B eventCapacity) (do
        let frame ← get
        withCleanup
          (fun frame => signalProtocol command.sequence
            (ledgerField.set (frame.runner.ledger.remove sequence).2 frame))
          (driverField.call (fun error => IncrementalRadioRunnerError.commandArbiter error.reason)
            (IncrementalBackendDriver.submit sequence
              (requestOf frame.runner.config command.kind)))) :=
      keeps_get.bind fun frame =>
        Keeps.withCleanup (keeps_call (fun _ _ => rfl) _ _) fun _ => rfl
    cases inserted with
    | true => exact hsubmit
    | false =>
      refine Keeps.bind (keeps_modify ?_) fun _ => (keeps_throw _).bind fun _ => hsubmit
      exact fun _ => rfl

omit [IncrementalWifiBackend B] in
/-- Releasing a command counts nothing. -/
theorem releaseCommand_telemetry (sequence : CommandSequence) :
    Keeps (@telemetry B eventCapacity) (releaseCommand sequence) := by
  refine (keeps_update (fun _ _ => rfl) _).bind fun removed => ?_
  cases removed with
  | some kind => exact keeps_pure kind
  | none =>
    refine Keeps.bind (keeps_modify ?_) fun _ => keeps_throw _
    exact fun _ => rfl

omit [IncrementalWifiBackend B] in
/-- Publishing a failure counts nothing. -/
theorem publishFailed_telemetry (sequence : CommandSequence) (kind : CommandKindTag)
    (error : BackendError) (frame : FacadeFrame B eventCapacity) :
    telemetry (publishFailed sequence kind error frame) = telemetry frame := by
  have h := publishEvent_diagnostics (.failed error) frame.shared
  simp only [telemetry, publishFailed, SharedState.signalCompletion, h]

/-- Publishing a success counts nothing. -/
theorem publishSuccess_telemetry (sequence : CommandSequence) (kind : CommandKindTag)
    (completion : CompletionKind) (event : WifiEvent) (frame : FacadeFrame B eventCapacity) :
    telemetry (publishSuccess sequence kind completion event frame) = telemetry frame := by
  have hidentity : ∀ (capabilities : Option WifiL2Capabilities)
      (shared : SharedState eventCapacity),
      (shared.publishCapabilities capabilities).incrementalDiagnostics =
        shared.incrementalDiagnostics := by
    intro capabilities shared
    cases capabilities <;> rfl
  simp only [telemetry, publishSuccess, SharedState.signalCompletion, publishEvent_diagnostics,
    hidentity]

/-- Publishing a terminal event counts nothing. -/
theorem publishTerminal_telemetry (event : IncrementalDriverEvent) :
    Keeps (@telemetry B eventCapacity) (publishTerminal event) := by
  cases event with
  | completed sequence completion =>
    refine (releaseCommand_telemetry sequence).bind fun kind => ?_
    cases successfulCompletion kind completion with
    | none =>
      refine Keeps.bind (keeps_modify ?_) fun _ => keeps_throw _
      exact fun _ => rfl
    | some pair => exact keeps_modify (publishSuccess_telemetry sequence kind pair.1 pair.2)
  | cancelled sequence suppressed =>
    exact (releaseCommand_telemetry sequence).bind fun kind =>
      keeps_modify (publishFailed_telemetry sequence kind _)
  | failed sequence error pending =>
    exact (releaseCommand_telemetry sequence).bind fun kind =>
      keeps_modify (publishFailed_telemetry sequence kind error)
  | _ => exact keeps_pure ()

end Pieces

end HisiRfCore.RunnerTelemetry
