import HisiRfCore.CommandArbitration
import HisiRfCore.LifecycleControl
import HisiRfCore.RunnerCalls

/-!
# Rejected calls write nothing

Each state machine of the control plane is called with any arguments on any value. A
call that returns an error, or a cancellation request that finds nothing to cancel,
leaves the value as it was: the fallible transitions of a method read first, and what
follows the first write never fails.
-/

namespace HisiRfCore.RejectedCalls

open StateBorrow WifiTypes IncrementalContract RunnerState CommandArbitration LifecycleControl
open RunnerCalls InputOutputMachine

variable {σ ι ο ε α C : Type}

/-- An input whose output is a refusal leaves the state as it was. -/
def RefusesCleanly (m : Machine σ ι ο) (refused : ο → Bool) : Prop :=
  ∀ s i, refused (m.output s i) = true → m.next s i = s

/-- Next state and output of a fallible method. -/
def performed (answer : Except ε α → ο) (method : EStateM ε σ α) (s : σ) : σ × ο :=
  (after (method s), answer (reply (method s)))

/-- A clean method whose values are no refusals refuses cleanly. -/
theorem performed_clean {answer : Except ε α → ο} {method : EStateM ε σ α} {refused : ο → Bool}
    (hm : Clean method) (ha : ∀ a, refused (answer (.ok a)) = false) (s : σ)
    (h : refused (performed answer method s).2 = true) : (performed answer method s).1 = s := by
  unfold performed at h ⊢
  cases hx : method s with
  | ok a t =>
    rw [hx, reply_ok, ha] at h
    cases h
  | error e t => exact hm s e t hx

section Tracker

/-- One call on the operation tracker. -/
inductive TrackerCall
  | queue (slot : UInt8)
  | lifecycle (id : OperationId)
  | markStarted (id : OperationId)
  | requestCancel (id : OperationId)
  | commitTerminal (id : OperationId)
  | rejectQueued (id : OperationId)
  | reap (id : OperationId)

/-- What it returns. -/
inductive TrackerAnswer
  | queued (answer : Except OperationStateError OperationId)
  | read (answer : Except OperationStateError OperationLifecycle)
  | returned (answer : Except OperationStateError Unit)
  | requested (answer : Except OperationStateError CancelOutcome)
  | committed (answer : Except OperationStateError Bool)

/-- It returned an error. -/
def TrackerAnswer.refused : TrackerAnswer → Bool
  | .queued (.error _) | .read (.error _) | .returned (.error _) | .requested (.error _)
  | .committed (.error _) => true
  | _ => false

/-- The operation tracker under any sequence of calls. -/
def trackerMachine : Machine OperationTracker TrackerCall TrackerAnswer where
  step tracker
    | .queue slot => performed .queued (OperationTracker.queue slot) tracker
    | .lifecycle id => performed .read (OperationTracker.lifecycle id) tracker
    | .markStarted id => performed .returned (OperationTracker.markStarted id) tracker
    | .requestCancel id => performed .requested (OperationTracker.requestCancel id) tracker
    | .commitTerminal id => performed .committed (OperationTracker.commitTerminal id) tracker
    | .rejectQueued id => performed .returned (OperationTracker.rejectQueued id) tracker
    | .reap id => performed .returned (OperationTracker.reap id) tracker

theorem queue_clean (slot : UInt8) : Clean (OperationTracker.queue slot) := by
  intro s e t h
  unfold OperationTracker.queue at h
  split at h <;> cases h
  rfl

theorem lifecycle_clean (id : OperationId) : Clean (OperationTracker.lifecycle id) := by
  intro s e t h
  unfold OperationTracker.lifecycle at h
  split at h
  · cases h
    rfl
  · split at h <;> cases h
    rfl

theorem lifecycle_reads (id : OperationId) : Reads (OperationTracker.lifecycle id) := by
  intro s a t h
  unfold OperationTracker.lifecycle at h
  split at h
  · cases h
  · split at h <;> cases h
    rfl

/-- A method that begins with the lifecycle is clean when the rest is. -/
theorem guarded_clean {id : OperationId}
    {rest : OperationLifecycle → EStateM OperationStateError OperationTracker α}
    (h : ∀ lifecycle, Clean (rest lifecycle)) : Clean (OperationTracker.lifecycle id >>= rest) :=
  (lifecycle_clean id).bind_reads (lifecycle_reads id) h

theorem setLifecycle_succeeds (lifecycle : OperationLifecycle) :
    Succeeds (OperationTracker.setLifecycle lifecycle) := succeeds_modify _

theorem markStarted_clean (id : OperationId) : Clean (OperationTracker.markStarted id) := by
  refine guarded_clean fun lifecycle => ?_
  cases lifecycle with
  | queued => exact (setLifecycle_succeeds .started).clean
  | _ => exact clean_throw _

theorem rejectQueued_clean (id : OperationId) : Clean (OperationTracker.rejectQueued id) := by
  refine guarded_clean fun lifecycle => ?_
  cases lifecycle with
  | queued => exact (setLifecycle_succeeds .terminal).clean
  | _ => exact clean_throw _

theorem reap_clean (id : OperationId) : Clean (OperationTracker.reap id) := by
  refine guarded_clean fun lifecycle => ?_
  cases lifecycle with
  | terminal => exact (succeeds_modify _).clean
  | _ => exact clean_throw _

theorem requestCancel_clean (id : OperationId) : Clean (OperationTracker.requestCancel id) := by
  refine guarded_clean fun lifecycle => ?_
  have hmoved : Clean (do
      OperationTracker.setLifecycle .cancelRequested
      pure CancelOutcome.requested) :=
    ((setLifecycle_succeeds .cancelRequested).bind fun _ => succeeds_pure _).clean
  cases lifecycle with
  | queued => exact hmoved
  | started => exact hmoved
  | cancelRequested => exact (succeeds_pure _).clean
  | terminal => exact clean_throw _

theorem commitTerminal_clean (id : OperationId) : Clean (OperationTracker.commitTerminal id) := by
  refine guarded_clean fun lifecycle => ?_
  have hwritten : ∀ cancelled : Bool, Succeeds (do
      OperationTracker.setLifecycle .terminal
      pure cancelled) :=
    fun cancelled => (setLifecycle_succeeds .terminal).bind fun _ => succeeds_pure cancelled
  cases lifecycle with
  | started => exact ((succeeds_pure false).bind hwritten).clean
  | cancelRequested => exact ((succeeds_pure true).bind hwritten).clean
  | queued => exact (clean_throw _).bind_succeeds hwritten
  | terminal => exact (clean_throw _).bind_succeeds hwritten

/-- Every rejected call leaves the tracker as it was. -/
theorem tracker_refuses_cleanly : RefusesCleanly trackerMachine TrackerAnswer.refused := by
  intro tracker call h
  cases call with
  | queue slot => exact performed_clean (queue_clean slot) (fun _ => rfl) tracker h
  | lifecycle id => exact performed_clean (lifecycle_clean id) (fun _ => rfl) tracker h
  | markStarted id => exact performed_clean (markStarted_clean id) (fun _ => rfl) tracker h
  | requestCancel id => exact performed_clean (requestCancel_clean id) (fun _ => rfl) tracker h
  | commitTerminal id => exact performed_clean (commitTerminal_clean id) (fun _ => rfl) tracker h
  | rejectQueued id => exact performed_clean (rejectQueued_clean id) (fun _ => rfl) tracker h
  | reap id => exact performed_clean (reap_clean id) (fun _ => rfl) tracker h

end Tracker

section Runner

/-- Every rejected call leaves the runner state as it was. -/
theorem runner_refuses_cleanly : RefusesCleanly runnerMachine RunnerAnswer.refused := by
  intro state call h
  have he : Effect state call (runnerMachine.step state call) := call_effect state call
  rw [Machine.next]
  rw [Machine.output] at h
  generalize runnerMachine.step state call = result at he h
  cases he with
  | queued slot hc => cases h
  | moved ht hc ho => cases (outcome_answer ho).symm.trans h
  | stepped ready => cases h
  | refused ha => rfl

end Runner

section Arbiter

/-- One call on the command arbiter. -/
inductive ArbiterCall (C : Type)
  | submit (command : PendingCommand C)
  | takeStartable
  | markStarted (sequence : CommandSequence) (operation : OperationId)
  | rejectStart (sequence : CommandSequence)
  | requestCancel (sequence : CommandSequence)
  | markCancelRequested (operation : OperationId)
  | finishActive (operation : OperationId)

/-- What it returns. -/
inductive ArbiterAnswer (C : Type)
  | submitted (answer : Except (SubmitError C) Unit)
  | taken (answer : Except CommandArbiterError (PendingCommand C))
  | returned (answer : Except CommandArbiterError Unit)
  | cancelled (answer : CancelArbiterAction)
  | finished (answer : Except CommandArbiterError CommandSequence)

/-- It returned an error, or found nothing to cancel. -/
def ArbiterAnswer.refused : ArbiterAnswer C → Bool
  | .submitted (.error _) | .taken (.error _) | .returned (.error _) | .finished (.error _) => true
  | .cancelled .alreadyRequested | .cancelled .notFound => true
  | _ => false

/-- The command arbiter under any sequence of calls. -/
def arbiterMachine : Machine (CommandArbiter C) (ArbiterCall C) (ArbiterAnswer C) where
  step arbiter
    | .submit command => performed .submitted (CommandArbiter.submit command) arbiter
    | .takeStartable => performed .taken CommandArbiter.takeStartable arbiter
    | .markStarted sequence operation =>
      performed .returned (CommandArbiter.markStarted sequence operation) arbiter
    | .rejectStart sequence => performed .returned (CommandArbiter.rejectStart sequence) arbiter
    | .requestCancel sequence =>
      ((CommandArbiter.requestCancel sequence arbiter).2,
        .cancelled (CommandArbiter.requestCancel sequence arbiter).1)
    | .markCancelRequested operation =>
      performed .returned (CommandArbiter.markCancelRequested operation) arbiter
    | .finishActive operation =>
      performed .finished (CommandArbiter.finishActive operation) arbiter

/-- A rejected submission hands its command back and leaves the arbiter as it was. -/
theorem submit_rejected {command : PendingCommand C} {arbiter next : CommandArbiter C}
    {error : SubmitError C} (h : CommandArbiter.submit command arbiter = .error error next) :
    next = arbiter ∧ error.command = command := by
  unfold CommandArbiter.submit at h
  split at h <;> cases h
  exact ⟨rfl, rfl⟩

theorem takeStartable_clean : Clean (CommandArbiter.takeStartable (C := C)) := by
  intro s e t h
  unfold CommandArbiter.takeStartable at h
  split at h
  · cases h
    rfl
  · split at h <;> cases h
    rfl

theorem arbiter_markStarted_clean (sequence : CommandSequence) (operation : OperationId) :
    Clean (CommandArbiter.markStarted (C := C) sequence operation) := by
  intro s e t h
  unfold CommandArbiter.markStarted at h
  split at h <;> cases h
  rfl

theorem rejectStart_clean (sequence : CommandSequence) :
    Clean (CommandArbiter.rejectStart (C := C) sequence) := by
  intro s e t h
  unfold CommandArbiter.rejectStart at h
  split at h <;> cases h
  rfl

theorem markCancelRequested_clean (operation : OperationId) :
    Clean (CommandArbiter.markCancelRequested (C := C) operation) := by
  intro s e t h
  unfold CommandArbiter.markCancelRequested at h
  split at h
  · cases h
    rfl
  · split at h
    · cases h
      rfl
    · split at h <;> cases h
      rfl

theorem finishActive_clean (operation : OperationId) :
    Clean (CommandArbiter.finishActive (C := C) operation) := by
  intro s e t h
  unfold CommandArbiter.finishActive at h
  split at h
  · cases h
    rfl
  · split at h <;> cases h
    rfl

/-- Every rejected call leaves the arbiter as it was. -/
theorem arbiter_refuses_cleanly :
    RefusesCleanly (arbiterMachine (C := C)) ArbiterAnswer.refused := by
  intro arbiter call h
  cases call with
  | submit command =>
    have hsubmit : Clean (CommandArbiter.submit command) := fun _ _ _ he => (submit_rejected he).1
    exact performed_clean hsubmit (fun _ => rfl) arbiter h
  | takeStartable => exact performed_clean takeStartable_clean (fun _ => rfl) arbiter h
  | markStarted sequence operation =>
    exact performed_clean (arbiter_markStarted_clean sequence operation) (fun _ => rfl) arbiter h
  | rejectStart sequence => exact performed_clean (rejectStart_clean sequence) (fun _ => rfl) arbiter h
  | requestCancel sequence =>
    have he := CommandArbiter.requestCancel_effect sequence arbiter
    simp only [Machine.output, Machine.next, arbiterMachine] at h ⊢
    generalize CommandArbiter.requestCancel sequence arbiter = result at he h ⊢
    cases he with
    | requestActive active ha hs hr hi => cases h
    | alreadyRequested active ha hs hr => rfl
    | removePending hs hp => cases h
    | notFound hs hp => rfl
  | markCancelRequested operation =>
    exact performed_clean (markCancelRequested_clean operation) (fun _ => rfl) arbiter h
  | finishActive operation =>
    exact performed_clean (finishActive_clean operation) (fun _ => rfl) arbiter h

end Arbiter

section Lifecycle

/-- One call on the lifecycle state, from its runner or from a guard. -/
inductive LifecycleStateCall (ε : Type)
  | begin
  | adopt
  | abortStart (id : LifecycleId)
  | activate (id : LifecycleId)
  | finish (id : LifecycleId) (result : Except ε Unit)
  | terminate (id : LifecycleId) (result : Except ε Unit)
  | requestCancel (id : LifecycleId) (waiterAttached : Bool)
  | acknowledgeTerminal (id : LifecycleId)

/-- What it returns. -/
inductive LifecycleStateAnswer (ε : Type)
  | begun (answer : Except LifecycleStateError LifecycleId)
  | activated (answer : Except LifecycleStateError (LifecycleGuard ε))
  | returned (answer : Except LifecycleStateError Unit)

/-- It returned an error. -/
def LifecycleStateAnswer.refused : LifecycleStateAnswer ε → Bool
  | .begun (.error _) | .activated (.error _) | .returned (.error _) => true
  | _ => false

/-- State and wrapped answer of a call. -/
def answered {β : Type} (wrap : Except LifecycleStateError β → LifecycleStateAnswer ε)
    (result : Except LifecycleStateError β × LifecycleState ε) :
    LifecycleState ε × LifecycleStateAnswer ε := (result.2, wrap result.1)

/-- The lifecycle state under any sequence of calls. -/
def lifecycleMachine :
    Machine (LifecycleState ε) (LifecycleStateCall ε) (LifecycleStateAnswer ε) where
  step state
    | .begin => answered .begun (LifecycleRunner.begin state)
    | .adopt => answered .activated (LifecycleRunner.adopt state)
    | .abortStart id => answered .returned (LifecycleRunner.abortStart id state)
    | .activate id => answered .activated (LifecycleRunner.activate id state)
    | .finish id result => answered .returned (LifecycleRunner.finish id result state)
    | .terminate id result => answered .returned (LifecycleRunner.terminate id result state)
    | .requestCancel id waiterAttached =>
      answered .returned (state.requestCancel id waiterAttached)
    | .acknowledgeTerminal id => answered .returned (state.acknowledgeTerminal id)

/-- A result that is an error comes with the state as it was. -/
def CleanResult {β : Type} (state : LifecycleState ε)
    (result : Except LifecycleStateError β × LifecycleState ε) : Prop :=
  ∀ error, result.1 = .error error → result.2 = state

/-- A clean result whose values are no refusals is refused cleanly. -/
theorem answered_clean {β : Type} {wrap : Except LifecycleStateError β → LifecycleStateAnswer ε}
    {state : LifecycleState ε} {result : Except LifecycleStateError β × LifecycleState ε}
    (hr : CleanResult state result) (hw : ∀ a, (wrap (.ok a)).refused = false)
    (h : (answered wrap result).2.refused = true) : (answered wrap result).1 = state := by
  unfold answered at h ⊢
  cases hx : result.1 with
  | ok a =>
    rw [hx, hw] at h
    cases h
  | error error => exact hr error hx

/-- A call that is checked first is clean. -/
theorem clean_ite {β : Type} {state : LifecycleState ε} {p : Prop} [Decidable p] {value : β}
    {next : LifecycleState ε} {error : LifecycleStateError} :
    CleanResult state (if p then (.ok value, next) else (.error error, state)) := by
  intro e h
  split at h
  · cases h
  · next hn => rw [if_neg hn]

theorem begin_clean (state : LifecycleState ε) : CleanResult state (LifecycleRunner.begin state) := by
  intro error h
  unfold LifecycleRunner.begin at h ⊢
  split at h
  · next hbusy => rw [if_pos hbusy]
  · cases h

theorem adopt_clean (state : LifecycleState ε) : CleanResult state (LifecycleRunner.adopt state) := by
  rw [LifecycleRunner.adopt_eq]
  exact clean_ite

theorem abortStart_clean (id : LifecycleId) (state : LifecycleState ε) :
    CleanResult state (LifecycleRunner.abortStart id state) := by
  rw [LifecycleRunner.abortStart_eq]
  exact clean_ite

theorem activate_clean (id : LifecycleId) (state : LifecycleState ε) :
    CleanResult state (LifecycleRunner.activate id state) := by
  rw [LifecycleRunner.activate_eq]
  exact clean_ite

theorem acknowledgeTerminal_clean (id : LifecycleId) (state : LifecycleState ε) :
    CleanResult state (state.acknowledgeTerminal id) := by
  rw [LifecycleState.acknowledgeTerminal_eq]
  exact clean_ite

/-- What follows the locked section of an ending never fails. -/
theorem publishTerminal_clean {id : LifecycleId} {result : Except ε Unit} {unsolicited : Bool}
    {state : LifecycleState ε} {locked : Except LifecycleStateError Bool × LifecycleState ε}
    (he : LifecycleRunner.Ending unsolicited id state locked) :
    CleanResult state (LifecycleRunner.publishTerminal id result locked) := by
  intro error h
  cases he with
  | attached hp => cases h
  | detached hp => cases h
  | early hu hp => cases h
  | refused => rfl

theorem lifecycle_requestCancel_clean (id : LifecycleId) (waiterAttached : Bool)
    (state : LifecycleState ε) : CleanResult state (state.requestCancel id waiterAttached) := by
  intro error h
  rcases LifecycleState.requestCancel_cases id waiterAttached state with
    ⟨-, hx⟩ | ⟨-, hx⟩ | ⟨-, hx⟩
  · rw [hx] at h
    cases h
  · rw [hx] at h
    cases h
  · rw [hx]

/-- Every rejected call leaves the lifecycle state as it was. -/
theorem lifecycle_refuses_cleanly :
    RefusesCleanly (lifecycleMachine (ε := ε)) LifecycleStateAnswer.refused := by
  intro state call h
  cases call with
  | begin => exact answered_clean (begin_clean state) (fun _ => rfl) h
  | adopt => exact answered_clean (adopt_clean state) (fun _ => rfl) h
  | abortStart id => exact answered_clean (abortStart_clean id state) (fun _ => rfl) h
  | activate id => exact answered_clean (activate_clean id state) (fun _ => rfl) h
  | finish id result =>
    have hending := LifecycleRunner.lockFinish_ending id state
    exact answered_clean (publishTerminal_clean hending) (fun _ => rfl) h
  | terminate id result =>
    have hending := LifecycleRunner.lockTerminate_ending id state
    exact answered_clean (publishTerminal_clean hending) (fun _ => rfl) h
  | requestCancel id waiterAttached =>
    exact answered_clean (lifecycle_requestCancel_clean id waiterAttached state) (fun _ => rfl) h
  | acknowledgeTerminal id =>
    exact answered_clean (acknowledgeTerminal_clean id state) (fun _ => rfl) h

end Lifecycle

/-- On every value, whatever the arguments, a call that is rejected leaves the value as it
was, and a rejected submission hands back the command it was given. -/
theorem rejected_calls_write_nothing :
    RefusesCleanly trackerMachine TrackerAnswer.refused ∧
    RefusesCleanly runnerMachine RunnerAnswer.refused ∧
    RefusesCleanly (arbiterMachine (C := C)) ArbiterAnswer.refused ∧
    RefusesCleanly (lifecycleMachine (ε := ε)) LifecycleStateAnswer.refused ∧
    ∀ (command : PendingCommand C) (arbiter : CommandArbiter C) (error : SubmitError C),
      arbiterMachine.output arbiter (.submit command) = .submitted (.error error) →
      error.command = command := by
  refine ⟨tracker_refuses_cleanly, runner_refuses_cleanly, arbiter_refuses_cleanly,
    lifecycle_refuses_cleanly, fun command arbiter error h => ?_⟩
  have hreply : reply (CommandArbiter.submit command arbiter) = .error error :=
    ArbiterAnswer.submitted.inj h
  cases hs : CommandArbiter.submit command arbiter with
  | ok a next => cases (congrArg reply hs).symm.trans hreply
  | error e next =>
    cases (congrArg reply hs).symm.trans hreply
    exact (submit_rejected hs).2

end HisiRfCore.RejectedCalls
