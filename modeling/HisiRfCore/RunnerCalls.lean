import HisiRfCore.InputOutputMachine
import HisiRfCore.RunnerState

/-!
# Whole calls on the runner state

The runner state is called in any order, with any identities and reports. What a call
does is a table over the lifecycle of the operation it names: its answer, the next
lifecycle and the next wait set. Every call that the table does not list is refused
and writes nothing.
-/

namespace HisiRfCore.RunnerCalls

open NonZeroCounter StateBorrow WifiTypes IncrementalContract RunnerState InputOutputMachine

/-- One call on the runner state. -/
inductive RunnerCall
  | queue (slot : UInt8)
  | markStarted (id : OperationId)
  | rejectStart (id : OperationId) (error : BackendError)
  | requestCancel (id : OperationId)
  | markCancelNotified (id : OperationId)
  | applyReport (expected : OperationId) (report : WorkReport)
  | applyError (expected : OperationId) (error : BackendError)
  | reap (id : OperationId)
  | subscribe (id : OperationId) (sources : WaitSet)
  | selectStep (ready : WaitSet)
  deriving DecidableEq

/-- What the call returns. -/
inductive RunnerAnswer
  | queued (answer : Except RunnerStateError OperationId)
  | returned (answer : Except RunnerStateError Unit)
  | directed (answer : Except RunnerStateError CancelDirective)
  | changed (answer : Except RunnerStateError RunnerTransition)
  | stepped (step : RunnerStep)
  deriving DecidableEq

/-- The call returned an error. -/
def RunnerAnswer.refused : RunnerAnswer → Bool
  | .queued (.error _) | .returned (.error _) | .directed (.error _) | .changed (.error _) => true
  | _ => false

/-- Operation that a call is about. -/
def RunnerCall.target : RunnerCall → Option OperationId
  | .queue _ | .selectStep _ => none
  | .markStarted id | .rejectStart id _ | .requestCancel id | .markCancelNotified id
  | .applyReport id _ | .applyError id _ | .reap id | .subscribe id _ => some id

namespace RunnerCall

/-- State and answer of a fallible method. -/
def perform {α : Type} (answer : Except RunnerStateError α → RunnerAnswer)
    (method : EStateM RunnerStateError IncrementalRunnerState α) (state : IncrementalRunnerState) :
    IncrementalRunnerState × RunnerAnswer :=
  (after (method state), answer (reply (method state)))

/-- Run one call. -/
def run (state : IncrementalRunnerState) : RunnerCall → IncrementalRunnerState × RunnerAnswer
  | .queue slot => perform .queued (IncrementalRunnerState.queue slot) state
  | .markStarted id => perform .returned (IncrementalRunnerState.markStarted id) state
  | .rejectStart id error => perform .changed (IncrementalRunnerState.rejectStart id error) state
  | .requestCancel id => perform .directed (IncrementalRunnerState.requestCancel id) state
  | .markCancelNotified id =>
    perform .returned (IncrementalRunnerState.markCancelNotified id) state
  | .applyReport expected report =>
    perform .changed (IncrementalRunnerState.applyReport expected report) state
  | .applyError expected error =>
    perform .changed (IncrementalRunnerState.applyError expected error) state
  | .reap id => perform .returned (IncrementalRunnerState.reap id) state
  | .subscribe id sources => perform .returned (IncrementalRunnerState.subscribe id sources) state
  | .selectStep ready => ((state.selectStep ready).2, .stepped (state.selectStep ready).1)

end RunnerCall

/-- The runner state under any sequence of calls. -/
def runnerMachine : Machine IncrementalRunnerState RunnerCall RunnerAnswer := ⟨RunnerCall.run⟩

open IncrementalRunnerState in
/-- The successful calls on an operation in each lifecycle: the answer, the next lifecycle
unless the operation is released, and the next wait set. -/
def outcome (waitFor : WaitSet) :
    RunnerCall → OperationLifecycle → Option (RunnerAnswer × Option OperationLifecycle × WaitSet)
  | .markStarted _, .queued => some (.returned (.ok ()), some .started, .empty)
  | .rejectStart _ error, .queued =>
    some (.changed (.ok (.failed error false)), some .terminal, .empty)
  | .requestCancel _, .queued => some (.directed (.ok .completeLocally), some .terminal, .empty)
  | .requestCancel _, .started =>
    some (.directed (.ok .notifyBackend), some .cancelRequested, waitFor.union .backend)
  | .requestCancel _, .cancelRequested =>
    some (.directed (.ok .alreadyRequested), some .cancelRequested, waitFor)
  | .markCancelNotified _, .cancelRequested =>
    some (.returned (.ok ()), some .cancelRequested, .empty)
  | .applyReport expected report, .started => accepted expected report false
  | .applyReport expected report, .cancelRequested => accepted expected report true
  | .applyError _ error, .started =>
    some (.changed (.ok (.failed error false)), some .terminal, .empty)
  | .applyError _ error, .cancelRequested =>
    some (.changed (.ok (.failed error true)), some .terminal, .empty)
  | .reap _, .terminal => some (.returned (.ok ()), none, .empty)
  | .subscribe _ sources, .started => some (.returned (.ok ()), some .started, waitFor.union sources)
  | .subscribe _ sources, .cancelRequested =>
    some (.returned (.ok ()), some .cancelRequested, waitFor.union sources)
  | _, _ => none
where
  /-- A report is accepted under its own identity only; a late success is suppressed. -/
  accepted (expected : OperationId) (report : WorkReport) (cancelled : Bool) :=
    if report.operation = expected then
      some (.changed (.ok (reported cancelled report)),
        match report.disposition with
        | .pending waitFor | .budgetExhausted waitFor => (some (liveLifecycle cancelled), waitFor)
        | .complete _ | .cancelled => (some .terminal, .empty))
    else none

section Table

variable {old waitFor : WaitSet} {call : RunnerCall} {lifecycle : OperationLifecycle}
  {answer : RunnerAnswer} {next : Option OperationLifecycle}

/-- A listed report is one of a live operation under its own identity. -/
theorem outcome_report {expected : OperationId} {report : WorkReport}
    (ho : outcome old (.applyReport expected report) lifecycle = some (answer, next, waitFor)) :
    report.operation = expected ∧ ∃ cancelled,
      lifecycle = IncrementalRunnerState.liveLifecycle cancelled ∧
      answer = .changed (.ok (IncrementalRunnerState.reported cancelled report)) ∧
      (next, waitFor) = match report.disposition with
        | .pending waitFor | .budgetExhausted waitFor =>
          (some (IncrementalRunnerState.liveLifecycle cancelled), waitFor)
        | .complete _ | .cancelled => (some .terminal, .empty) := by
  have haccepted : ∃ cancelled, lifecycle = IncrementalRunnerState.liveLifecycle cancelled ∧
      outcome.accepted expected report cancelled = some (answer, next, waitFor) := by
    cases lifecycle with
    | started => exact ⟨false, rfl, ho⟩
    | cancelRequested => exact ⟨true, rfl, ho⟩
    | _ => cases ho
  obtain ⟨cancelled, hl, ha⟩ := haccepted
  unfold outcome.accepted at ha
  split at ha
  · next hr =>
    obtain ⟨hanswer, hnext⟩ := Prod.mk.inj (Option.some.inj ha)
    exact ⟨hr, cancelled, hl, hanswer.symm, hnext.symm⟩
  · cases ha

/-- A listed call is no refusal. -/
theorem outcome_answer (ho : outcome old call lifecycle = some (answer, next, waitFor)) :
    answer.refused = false := by
  cases call with
  | applyReport expected report =>
    obtain ⟨-, cancelled, -, rfl, -⟩ := outcome_report ho
    rfl
  | _ => cases lifecycle <;> cases ho <;> rfl

end Table

/-- What one call may do to the state. -/
inductive Effect (state : IncrementalRunnerState) :
    RunnerCall → IncrementalRunnerState × RunnerAnswer → Prop
  | queued (slot : UInt8) (h : state.tracker.current = none) :
    Effect state (.queue slot)
      ({state with
        tracker := ⟨advance state.tracker.nextGeneration,
          some (state.tracker.nextId slot, .queued)⟩
        waitFor := .command}, .queued (.ok (state.tracker.nextId slot)))
  | moved {call : RunnerCall} {id : OperationId} {lifecycle : OperationLifecycle}
      {answer : RunnerAnswer} {next : Option OperationLifecycle} {waitFor : WaitSet}
      (ht : call.target = some id) (h : state.tracker.current = some (id, lifecycle))
      (ho : outcome state.waitFor call lifecycle = some (answer, next, waitFor)) :
    Effect state call (state.settle (next.map fun lifecycle => (id, lifecycle)) waitFor, answer)
  | stepped (ready : WaitSet) :
    Effect state (.selectStep ready)
      ((state.selectStep ready).2, .stepped (state.selectStep ready).1)
  | refused {call : RunnerCall} {answer : RunnerAnswer} (ha : answer.refused = true) :
    Effect state call (state, answer)

section Effects

open IncrementalRunnerState

variable {state : IncrementalRunnerState} {id : OperationId} {call : RunnerCall}

/-- A failed method refuses the call. -/
theorem Effect.of_error {α : Type} {wrap : Except RunnerStateError α → RunnerAnswer}
    {method : EStateM RunnerStateError IncrementalRunnerState α} {e : RunnerStateError}
    (hx : method state = .error e state) (ha : (wrap (.error e)).refused = true) :
    Effect state call (RunnerCall.perform wrap method state) := by
  unfold RunnerCall.perform
  rw [hx]
  exact .refused ha

/-- A successful method is a move of the table. -/
theorem Effect.of_ok {α : Type} {wrap : Except RunnerStateError α → RunnerAnswer}
    {method : EStateM RunnerStateError IncrementalRunnerState α} {value : α}
    {lifecycle : OperationLifecycle} {n : Option OperationLifecycle} {waitFor : WaitSet}
    (hx : method state =
      .ok value (state.settle (n.map fun lifecycle => (id, lifecycle)) waitFor))
    (ht : call.target = some id) (h : state.tracker.current = some (id, lifecycle))
    (ho : outcome state.waitFor call lifecycle = some (wrap (.ok value), n, waitFor)) :
    Effect state call (RunnerCall.perform wrap method state) := by
  unfold RunnerCall.perform
  rw [hx]
  exact .moved ht h ho

/-- An operation either owns the slot, or its identity is stale. -/
theorem owner_cases (state : IncrementalRunnerState) (id : OperationId) :
    (∃ lifecycle, state.tracker.current = some (id, lifecycle)) ∨
      OperationTracker.lifecycle id state.tracker = .error .stale state.tracker := by
  unfold OperationTracker.lifecycle
  rcases state.tracker.current with _ | ⟨current, lifecycle⟩
  · exact Or.inr rfl
  · by_cases hc : current = id
    · exact Or.inl ⟨lifecycle, by rw [hc]⟩
    · exact Or.inr (if_pos hc)

/-- A tracker method that first reads the lifecycle refuses a stale identity. -/
theorem stale_error {α : Type} {f : OperationLifecycle → EStateM OperationStateError OperationTracker α}
    (hs : OperationTracker.lifecycle id state.tracker = .error .stale state.tracker) :
    trackerField.call RunnerStateError.operation (OperationTracker.lifecycle id >>= f) state =
      .error (.operation .stale) state :=
  call_error (bind_error hs)

/-- It refuses the owner when it refuses its lifecycle. -/
theorem guard_error {α : Type} {f : OperationLifecycle → EStateM OperationStateError OperationTracker α}
    {lifecycle : OperationLifecycle} {error : OperationStateError}
    (h : state.tracker.current = some (id, lifecycle))
    (hf : f lifecycle state.tracker = .error error state.tracker) :
    trackerField.call RunnerStateError.operation (OperationTracker.lifecycle id >>= f) state =
      .error (.operation error) state :=
  call_error ((bind_ok (OperationTracker.lifecycle_of_current h)).trans hf)

/-- Reading the lifecycle of the owner writes nothing. -/
theorem read_owner {lifecycle : OperationLifecycle}
    (h : state.tracker.current = some (id, lifecycle)) :
    trackerField.call RunnerStateError.operation (OperationTracker.lifecycle id) state =
      .ok lifecycle state :=
  call_ok (OperationTracker.lifecycle_of_current h)

theorem queue_effect (slot : UInt8) :
    Effect state (.queue slot) (RunnerCall.run state (.queue slot)) := by
  cases hc : state.tracker.current with
  | none =>
    simp only [RunnerCall.run, RunnerCall.perform, queue_of_none hc slot, after_ok, reply_ok]
    exact .queued slot hc
  | some current =>
    refine .of_error (e := .operation .busy) (bind_error (call_error ?_)) rfl
    simp [OperationTracker.queue, trackerField, hc]

theorem markStarted_effect :
    Effect state (.markStarted id) (RunnerCall.run state (.markStarted id)) := by
  rcases owner_cases state id with ⟨lifecycle, h⟩ | hs
  · cases lifecycle with
    | queued => exact .of_ok (n := some .started) (markStarted_of_queued h) rfl h rfl
    | _ => exact .of_error (bind_error (guard_error h rfl)) rfl
  · exact .of_error (bind_error (stale_error hs)) rfl

theorem rejectStart_effect (error : BackendError) :
    Effect state (.rejectStart id error) (RunnerCall.run state (.rejectStart id error)) := by
  rcases owner_cases state id with ⟨lifecycle, h⟩ | hs
  · cases lifecycle with
    | queued => exact .of_ok (n := some .terminal) (rejectStart_of_queued h error) rfl h rfl
    | _ => exact .of_error (bind_error (guard_error h rfl)) rfl
  · exact .of_error (bind_error (stale_error hs)) rfl

theorem reap_effect : Effect state (.reap id) (RunnerCall.run state (.reap id)) := by
  rcases owner_cases state id with ⟨lifecycle, h⟩ | hs
  · cases lifecycle with
    | terminal => exact .of_ok (n := none) (reap_of_terminal h) rfl h rfl
    | _ => exact .of_error (bind_error (guard_error h rfl)) rfl
  · exact .of_error (bind_error (stale_error hs)) rfl

theorem markCancelNotified_effect :
    Effect state (.markCancelNotified id) (RunnerCall.run state (.markCancelNotified id)) := by
  rcases owner_cases state id with ⟨lifecycle, h⟩ | hs
  · cases lifecycle with
    | cancelRequested =>
      exact .of_ok (n := some .cancelRequested) (markCancelNotified_of_requested h) rfl h rfl
    | _ => exact .of_error ((bind_ok (read_owner h)).trans rfl) rfl
  · exact .of_error (bind_error (call_error hs)) rfl

/-- Cancelling a queued operation ends it without the backend. -/
theorem requestCancel_of_queued (h : state.tracker.current = some (id, .queued)) :
    requestCancel id state =
      .ok .completeLocally (state.settle (some (id, .terminal)) .empty) := by
  rcases state with ⟨⟨generation, current⟩, selector, waitFor⟩
  cases h
  simp [-bind_pure_comp, requestCancel, OperationTracker.requestCancel,
    OperationTracker.commitTerminal, OperationTracker.lifecycle, OperationTracker.setLifecycle,
    bind_apply, Field.call, trackerField, setWaitFor, settle]

/-- A second cancellation of a live operation changes nothing. -/
theorem requestCancel_of_requested (h : state.tracker.current = some (id, .cancelRequested)) :
    requestCancel id state = .ok .alreadyRequested state := by
  have ht : OperationTracker.requestCancel id state.tracker =
      .ok .alreadyRequested state.tracker := by
    rw [OperationTracker.requestCancel, bind_ok (OperationTracker.lifecycle_of_current h)]
    rfl
  rw [requestCancel, bind_ok (read_owner h), bind_ok (call_ok ht)]
  rfl

theorem requestCancel_effect :
    Effect state (.requestCancel id) (RunnerCall.run state (.requestCancel id)) := by
  rcases owner_cases state id with ⟨lifecycle, h⟩ | hs
  · cases lifecycle with
    | queued => exact .of_ok (n := some .terminal) (requestCancel_of_queued h) rfl h rfl
    | started => exact .of_ok (n := some .cancelRequested) (requestCancel_of_started h) rfl h rfl
    | cancelRequested =>
      have hsame : state.settle (some (id, .cancelRequested)) state.waitFor = state := by
        rw [settle, ← h]
      refine .of_ok (n := some .cancelRequested) ?_ rfl h rfl
      exact (requestCancel_of_requested h).trans (congrArg _ hsame.symm)
    | terminal =>
      refine .of_error (e := .operation .alreadyTerminal) ?_ rfl
      exact (bind_ok (read_owner h)).trans (bind_error (guard_error h rfl))
  · exact .of_error (bind_error (call_error hs)) rfl

/-- An operation that the backend does not own fails the liveness check. -/
theorem requireLive_error {lifecycle : OperationLifecycle}
    (h : state.tracker.current = some (id, lifecycle))
    (hl : lifecycle = .queued ∨ lifecycle = .terminal) :
    requireLive id state = .error (.operation .invalidTransition) state := by
  rw [requireLive, bind_ok (read_owner h)]
  rcases hl with rfl | rfl <;> rfl

theorem applyReport_effect (report : WorkReport) :
    Effect state (.applyReport id report) (RunnerCall.run state (.applyReport id report)) := by
  have hlive : ∀ cancelled, state.tracker.current = some (id, liveLifecycle cancelled) →
      Effect state (.applyReport id report) (RunnerCall.run state (.applyReport id report)) := by
    intro cancelled h
    by_cases hr : report.operation = id
    · have ho : outcome state.waitFor (.applyReport id report) (liveLifecycle cancelled) =
          outcome.accepted id report cancelled := by cases cancelled <;> rfl
      unfold outcome.accepted at ho
      rw [if_pos hr] at ho
      refine .of_ok ?_ rfl h ho
      rw [applyReport_of_own h hr, afterReport]
      cases report.disposition <;> rfl
    · exact .of_error (applyReport_of_foreign h hr) rfl
  rcases owner_cases state id with ⟨lifecycle, h⟩ | hs
  · cases lifecycle with
    | started => exact hlive false h
    | cancelRequested => exact hlive true h
    | queued => exact .of_error (bind_error (requireLive_error h (Or.inl rfl))) rfl
    | terminal => exact .of_error (bind_error (requireLive_error h (Or.inr rfl))) rfl
  · exact .of_error (bind_error (bind_error (call_error hs))) rfl

theorem applyError_effect (error : BackendError) :
    Effect state (.applyError id error) (RunnerCall.run state (.applyError id error)) := by
  rcases owner_cases state id with ⟨lifecycle, h⟩ | hs
  · cases lifecycle with
    | started =>
      have hlive : state.tracker.current = some (id, liveLifecycle false) := h
      exact .of_ok (n := some .terminal) (applyError_of_live hlive error) rfl h rfl
    | cancelRequested =>
      have hlive : state.tracker.current = some (id, liveLifecycle true) := h
      exact .of_ok (n := some .terminal) (applyError_of_live hlive error) rfl h rfl
    | queued => exact .of_error (bind_error (requireLive_error h (Or.inl rfl))) rfl
    | terminal => exact .of_error (bind_error (requireLive_error h (Or.inr rfl))) rfl
  · exact .of_error (bind_error (bind_error (call_error hs))) rfl

theorem subscribe_effect (sources : WaitSet) :
    Effect state (.subscribe id sources) (RunnerCall.run state (.subscribe id sources)) := by
  have hsame : ∀ lifecycle waitFor, state.tracker.current = some (id, lifecycle) →
      {state with waitFor := waitFor} = state.settle (some (id, lifecycle)) waitFor := by
    intro lifecycle waitFor h
    rw [settle, ← h]
  rcases owner_cases state id with ⟨lifecycle, h⟩ | hs
  · cases lifecycle with
    | started =>
      have hlive : state.tracker.current = some (id, liveLifecycle false) := h
      refine .of_ok (n := some .started) ?_ rfl h rfl
      exact (subscribe_of_live hlive sources).trans (congrArg _ (hsame _ _ h))
    | cancelRequested =>
      have hlive : state.tracker.current = some (id, liveLifecycle true) := h
      refine .of_ok (n := some .cancelRequested) ?_ rfl h rfl
      exact (subscribe_of_live hlive sources).trans (congrArg _ (hsame _ _ h))
    | queued => exact .of_error (bind_error (requireLive_error h (Or.inl rfl))) rfl
    | terminal => exact .of_error (bind_error (requireLive_error h (Or.inr rfl))) rfl
  · exact .of_error (bind_error (bind_error (call_error hs))) rfl

end Effects

/-- Every call on every state has one of the listed effects. -/
theorem call_effect (state : IncrementalRunnerState) (call : RunnerCall) :
    Effect state call (RunnerCall.run state call) := by
  cases call with
  | queue slot => exact queue_effect slot
  | markStarted id => exact markStarted_effect
  | rejectStart id error => exact rejectStart_effect error
  | requestCancel id => exact requestCancel_effect
  | markCancelNotified id => exact markCancelNotified_effect
  | applyReport expected report => exact applyReport_effect report
  | applyError expected error => exact applyError_effect error
  | reap id => exact reap_effect
  | subscribe id sources => exact subscribe_effect sources
  | selectStep ready => exact .stepped ready

end HisiRfCore.RunnerCalls
