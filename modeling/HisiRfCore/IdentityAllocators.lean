import HisiRfCore.AsyncControl
import HisiRfCore.CommandTransport
import HisiRfCore.IdentityPeriod
import HisiRfCore.RejectedCalls

/-!
# The four identity allocators

The operation tracker, the command sender, the lifecycle state and the async controller
each issue identities from a counter of their own. Each is driven by any calls; the
sender and the controller run beside others that may write anything into the state they
share.
-/

namespace HisiRfCore.IdentityAllocators

open NonZeroCounter StateBorrow BoundedChannel InputOutputMachine IdentityPeriod
open WifiTypes IncrementalContract LifecycleControl RadioStorage AsyncControl RejectedCalls
open CommandTransport (ControlId ControlSender ControlState)

variable {σ τ ι α ε C R : Type} {eventCapacity : ℕ}

section Tracker

/-- Generation and owner of a tracker. -/
def stamp (tracker : OperationTracker) : UInt32 × Option OperationId :=
  (tracker.nextGeneration, tracker.current.map Prod.fst)

theorem setLifecycle_stamp (lifecycle : OperationLifecycle) :
    Keeps stamp (OperationTracker.setLifecycle lifecycle) := by
  refine keeps_modify fun tracker => ?_
  rcases tracker with ⟨generation, _ | current⟩ <;> rfl

theorem lifecycle_stamp (id : OperationId) : Keeps stamp (OperationTracker.lifecycle id) := by
  intro tracker
  cases hx : OperationTracker.lifecycle id tracker with
  | ok a next => rw [after_ok, lifecycle_reads id tracker a next hx]
  | error e next => rw [after_error, lifecycle_clean id tracker e next hx]

/-- A method that begins with the lifecycle keeps the stamp when the rest does. -/
theorem guarded_stamp {id : OperationId}
    {rest : OperationLifecycle → EStateM OperationStateError OperationTracker α}
    (h : ∀ lifecycle, Keeps stamp (rest lifecycle)) :
    Keeps stamp (OperationTracker.lifecycle id >>= rest) := (lifecycle_stamp id).bind h

theorem markStarted_stamp (id : OperationId) : Keeps stamp (OperationTracker.markStarted id) := by
  refine guarded_stamp fun lifecycle => ?_
  cases lifecycle with
  | queued => exact setLifecycle_stamp .started
  | _ => exact keeps_throw _

theorem rejectQueued_stamp (id : OperationId) :
    Keeps stamp (OperationTracker.rejectQueued id) := by
  refine guarded_stamp fun lifecycle => ?_
  cases lifecycle with
  | queued => exact setLifecycle_stamp .terminal
  | _ => exact keeps_throw _

theorem requestCancel_stamp (id : OperationId) :
    Keeps stamp (OperationTracker.requestCancel id) := by
  refine guarded_stamp fun lifecycle => ?_
  have hmoved : Keeps stamp (do
      OperationTracker.setLifecycle .cancelRequested
      pure CancelOutcome.requested) :=
    (setLifecycle_stamp .cancelRequested).bind fun _ => keeps_pure _
  cases lifecycle with
  | queued => exact hmoved
  | started => exact hmoved
  | cancelRequested => exact keeps_pure _
  | terminal => exact keeps_throw _

theorem commitTerminal_stamp (id : OperationId) :
    Keeps stamp (OperationTracker.commitTerminal id) := by
  refine guarded_stamp fun lifecycle => ?_
  have hwritten : ∀ cancelled : Bool, Keeps stamp (do
      OperationTracker.setLifecycle .terminal
      pure cancelled) :=
    fun cancelled => (setLifecycle_stamp .terminal).bind fun _ => keeps_pure cancelled
  cases lifecycle with
  | started => exact (keeps_pure false).bind hwritten
  | cancelRequested => exact (keeps_pure true).bind hwritten
  | queued => exact (keeps_throw _).bind hwritten
  | terminal => exact (keeps_throw _).bind hwritten

/-- Releasing an operation empties the slot, or is refused. -/
theorem reap_cases (id : OperationId) (tracker : OperationTracker) :
    after (OperationTracker.reap id tracker) = tracker ∨
      after (OperationTracker.reap id tracker) = {tracker with current := none} := by
  unfold OperationTracker.reap
  cases hx : OperationTracker.lifecycle id tracker with
  | error error next =>
    rw [bind_error hx]
    exact Or.inl (lifecycle_clean id tracker error next hx)
  | ok lifecycle next =>
    rw [bind_ok hx, lifecycle_reads id tracker lifecycle next hx]
    cases lifecycle with
    | terminal => exact Or.inr rfl
    | _ => exact Or.inl rfl

/-- The tracker; an identity is accepted when it passes the check of every call that
names it. -/
def trackerSource : IdentitySource OperationTracker TrackerCall TrackerAnswer OperationId where
  machine := trackerMachine
  initial := .new
  raw id := id.generation.1
  counter := OperationTracker.nextGeneration
  issued tracker
    | .queue slot => match OperationTracker.queue slot tracker with
      | .ok id _ => some id
      | .error _ _ => none
    | _ => none
  owner tracker := tracker.current.map Prod.fst
  accepts tracker id := ∃ lifecycle, reply (OperationTracker.lifecycle id tracker) = .ok lifecycle

/-- A queueing on a busy tracker is refused. -/
theorem queue_of_some {tracker : OperationTracker} {current : OperationId × OperationLifecycle}
    (h : tracker.current = some current) (slot : UInt8) :
    OperationTracker.queue slot tracker = .error .busy tracker := by
  simp [OperationTracker.queue, h]

/-- Queueing issues the next generation when the slot is free. -/
theorem tracker_queues (tracker : OperationTracker) (slot : UInt8) :
    trackerSource.Effect tracker (.queue slot) := by
  have hnext : trackerSource.machine.next tracker (.queue slot) =
      after (OperationTracker.queue slot tracker) := rfl
  cases hc : tracker.current with
  | some current =>
    have hx := queue_of_some hc slot
    refine .silent ?_ ?_ ?_
    · simp only [trackerSource, hx]
    · rw [hnext, hx, after_error]
    · rw [hnext, hx, after_error]
      exact fun _ hid => hid
  | none =>
    have hx := OperationTracker.queue_of_none hc slot
    refine .issues (tracker.nextId slot) ?_ rfl ?_ (Or.inl ?_)
    · simp only [trackerSource, hx]
    · rw [hnext, hx, after_ok]
      rfl
    · rw [hnext, hx, after_ok]
      rfl

/-- Queueing, rejecting and reaping one operation issues one identity. -/
theorem tracker_renews {tracker : OperationTracker} (h : tracker.current = none) :
    ∃ calls, (trackerSource.issues tracker calls).length = 1 ∧
      (trackerMachine.run tracker calls).current = none := by
  rcases tracker with ⟨generation, current⟩
  cases h
  refine ⟨[.queue 0, .rejectQueued (OperationTracker.nextId ⟨generation, none⟩ 0),
    .reap (OperationTracker.nextId ⟨generation, none⟩ 0)], rfl, ?_⟩
  simp [trackerMachine, Machine.next, performed, OperationTracker.queue,
    OperationTracker.rejectQueued, OperationTracker.reap, bind_apply,
    OperationTracker.lifecycle, OperationTracker.setLifecycle]

/-- Only the owner of the slot passes the check. -/
theorem owner_of_lifecycle {tracker : OperationTracker} {id : OperationId}
    {lifecycle : OperationLifecycle}
    (h : reply (OperationTracker.lifecycle id tracker) = .ok lifecycle) :
    tracker.current.map Prod.fst = some id := by
  unfold OperationTracker.lifecycle at h
  split at h
  · cases h
  · next current _ hc =>
    rw [hc]
    split at h
    · cases h
    · next hid => exact congrArg some (not_not.mp hid)

/-- A call that keeps the stamp issues nothing and moves no owner. -/
theorem silent_of_stamp {tracker : OperationTracker} {call : TrackerCall}
    (hi : trackerSource.issued tracker call = none)
    (h : stamp (trackerMachine.next tracker call) = stamp tracker) :
    trackerSource.Effect tracker call := by
  obtain ⟨hg, hc⟩ := Prod.mk.inj h
  exact .silent hi hg fun _ hid => hc.symm.trans hid

theorem tracker_effect (tracker : OperationTracker) (call : TrackerCall) :
    trackerSource.Effect tracker call := by
  cases call with
  | queue slot => exact tracker_queues tracker slot
  | lifecycle id => exact silent_of_stamp rfl (lifecycle_stamp id tracker)
  | markStarted id => exact silent_of_stamp rfl (markStarted_stamp id tracker)
  | requestCancel id => exact silent_of_stamp rfl (requestCancel_stamp id tracker)
  | commitTerminal id => exact silent_of_stamp rfl (commitTerminal_stamp id tracker)
  | rejectQueued id => exact silent_of_stamp rfl (rejectQueued_stamp id tracker)
  | reap id =>
    have hnext : trackerSource.machine.next tracker (.reap id) =
        after (OperationTracker.reap id tracker) := rfl
    rcases reap_cases id tracker with hr | hr
    · exact silent_of_stamp rfl (congrArg stamp hr)
    · refine .silent rfl ?_ ?_
      · rw [hnext, hr]
        rfl
      · rw [hnext, hr]
        intro id hid
        cases hid

theorem tracker_counted : trackerSource.Counted where
  start := rfl
  free := rfl
  effect := tracker_effect
  accepted := fun ⟨_, h⟩ => owner_of_lifecycle h
  renewable := ⟨fun tracker => tracker.current = none, rfl, fun _ h => tracker_renews h⟩

end Tracker

section Lifecycle

/-- A call on the lifecycle state, or the drop of a stop that was waiting. -/
inductive LifecycleMove (ε : Type)
  | call (call : LifecycleStateCall ε)
  | detachWaiter (id : LifecycleId)

/-- The lifecycle state under any sequence of calls and drops. -/
def moveMachine : Machine (LifecycleState ε) (LifecycleMove ε) Unit where
  step state
    | .call call => (lifecycleMachine.next state call, ())
    | .detachWaiter id => (state.detachWaiter id, ())

/-- Generation that a call names. -/
def named : LifecycleStateCall ε → Option LifecycleId
  | .begin | .adopt => none
  | .abortStart id | .activate id | .finish id _ | .terminate id _ | .requestCancel id _
  | .acknowledgeTerminal id => some id

/-- The lifecycle state; an identity is accepted when it is active, or a call that names
it is not refused. -/
def lifecycleSource :
    IdentitySource (LifecycleState ε) (LifecycleMove ε) Unit LifecycleId where
  machine := moveMachine
  initial := .new
  raw id := id.raw.1
  counter state := state.inner.nextGeneration
  issued state
    | .call .begin => (LifecycleRunner.begin state).1.toOption
    | .call .adopt => (LifecycleRunner.begin state).1.toOption
    | _ => none
  owner state := state.inner.phase.owner
  accepts state id := LifecycleRunner.isActive id state = true ∨
    ∃ call, named call = some id ∧ (lifecycleMachine.output state call).refused = false

/-- The counter is left alone, and the phase is given to no one. -/
def KeepsOwner (state next : LifecycleState ε) : Prop :=
  next.inner.nextGeneration = state.inner.nextGeneration ∧
    ∀ id, next.inner.phase.owner = some id → state.inner.phase.owner = some id

section KeepsOwner

variable {state : LifecycleState ε} {id : LifecycleId} {phase : LifecyclePhase}

theorem keepsOwner_refl (state : LifecycleState ε) : KeepsOwner state state := ⟨rfl, fun _ h => h⟩

/-- The owner may be released. -/
theorem keepsOwner_idle : KeepsOwner state (state.setPhase .idle) :=
  ⟨rfl, fun _ h => by cases h⟩

/-- The owner may move to another phase of its own. -/
theorem keepsOwner_phase (h : state.inner.phase.owner = some id)
    (hp : phase.owner = some id) : KeepsOwner state (state.setPhase phase) :=
  ⟨rfl, fun _ hid => h.trans (hp.symm.trans hid)⟩

/-- Signals are written outside the lock. -/
theorem KeepsOwner.congr {next next' : LifecycleState ε} (h : KeepsOwner state next)
    (hi : next'.inner = next.inner) : KeepsOwner state next' := by
  unfold KeepsOwner at h ⊢
  rw [hi]
  exact h

theorem publishTerminal_inner (id : LifecycleId) (result : Except ε Unit)
    (locked : Except LifecycleStateError Bool × LifecycleState ε) :
    (LifecycleRunner.publishTerminal id result locked).2.inner = locked.2.inner := by
  rcases locked with ⟨error | waiterAttached, state⟩
  · rfl
  · cases waiterAttached <;> rfl

/-- Ending a generation releases it or leaves it to its waiter. -/
theorem ending_keepsOwner {unsolicited : Bool}
    {locked : Except LifecycleStateError Bool × LifecycleState ε}
    (he : LifecycleRunner.Ending unsolicited id state locked) : KeepsOwner state locked.2 := by
  cases he with
  | attached h => exact keepsOwner_phase (by rw [h]; rfl) rfl
  | detached h => exact keepsOwner_idle
  | early hu h => exact keepsOwner_idle
  | refused => exact keepsOwner_refl state

theorem requestCancel_keepsOwner (id : LifecycleId) (waiterAttached : Bool)
    (state : LifecycleState ε) : KeepsOwner state (state.requestCancel id waiterAttached).2 := by
  rcases LifecycleState.requestCancel_cases id waiterAttached state with
    ⟨hp, hx⟩ | ⟨-, hx⟩ | ⟨-, hx⟩
  · have howner : state.inner.phase.owner = some id := by
      rcases hp with hp | hp <;> rw [hp] <;> rfl
    have hmoved : KeepsOwner state (state.setPhase (.cancelling id waiterAttached)) :=
      keepsOwner_phase howner rfl
    rw [hx]
    exact hmoved.congr rfl
  · rw [hx]
    exact keepsOwner_refl state
  · rw [hx]
    exact keepsOwner_refl state

theorem detachWaiter_keepsOwner (id : LifecycleId) (state : LifecycleState ε) :
    KeepsOwner state (state.detachWaiter id) := by
  rcases LifecycleState.detachWaiter_cases id state with ⟨hp, hx⟩ | ⟨-, hx⟩ | ⟨-, -, hx⟩
  · rw [hx]
    exact keepsOwner_phase (by rw [hp]; rfl) rfl
  · rw [hx]
    exact keepsOwner_idle.congr rfl
  · rw [hx]
    exact keepsOwner_refl state

end KeepsOwner

section Accepted

variable {state : LifecycleState ε} {id : LifecycleId}

/-- An ending that is not refused is that of the owner. -/
theorem owner_of_ending {unsolicited : Bool} {result : Except ε Unit}
    {locked : Except LifecycleStateError Bool × LifecycleState ε}
    (he : LifecycleRunner.Ending unsolicited id state locked)
    (h : (answered .returned (LifecycleRunner.publishTerminal id result locked)).2.refused =
      false) : state.inner.phase.owner = some id := by
  cases he with
  | attached hp => exact congrArg LifecyclePhase.owner hp
  | detached hp => exact congrArg LifecyclePhase.owner hp
  | early hu hp => rcases hp with hp | hp <;> exact congrArg LifecyclePhase.owner hp
  | refused => cases h

/-- A request that is not refused is that of the owner. -/
theorem owner_of_requestCancel {waiterAttached : Bool}
    (h : (answered .returned (state.requestCancel id waiterAttached)).2.refused = false) :
    state.inner.phase.owner = some id := by
  by_contra hn
  rw [LifecycleState.requestCancel_of_ne waiterAttached hn] at h
  cases h

/-- A call that names an identity and is not refused is that of the owner. -/
theorem owner_of_call {call : LifecycleStateCall ε} (hn : named call = some id)
    (h : (lifecycleMachine.output state call).refused = false) :
    state.inner.phase.owner = some id := by
  cases call with
  | begin => cases hn
  | adopt => cases hn
  | abortStart other =>
    cases hn
    change (answered .returned (LifecycleRunner.abortStart id state)).2.refused = false at h
    rw [LifecycleRunner.abortStart_eq] at h
    split at h
    · next hp => exact congrArg LifecyclePhase.owner hp
    · cases h
  | activate other =>
    cases hn
    change (answered .activated (LifecycleRunner.activate id state)).2.refused = false at h
    rw [LifecycleRunner.activate_eq] at h
    split at h
    · next hp => exact congrArg LifecyclePhase.owner hp
    · cases h
  | finish other result =>
    cases hn
    exact owner_of_ending (LifecycleRunner.lockFinish_ending id state) h
  | terminate other result =>
    cases hn
    exact owner_of_ending (LifecycleRunner.lockTerminate_ending id state) h
  | requestCancel other waiterAttached =>
    cases hn
    exact owner_of_requestCancel h
  | acknowledgeTerminal other =>
    cases hn
    change (answered .returned (state.acknowledgeTerminal id)).2.refused = false at h
    rw [LifecycleState.acknowledgeTerminal_eq] at h
    split at h
    · next hp => exact congrArg LifecyclePhase.owner hp
    · cases h

end Accepted

/-- A call that leaves the owner alone issues nothing. -/
theorem silent_of_keepsOwner {state : LifecycleState ε} {move : LifecycleMove ε}
    (hi : lifecycleSource.issued state move = none)
    (h : KeepsOwner state (moveMachine.next state move)) : lifecycleSource.Effect state move :=
  .silent hi h.1 h.2

/-- An idle lifecycle begins a fresh generation. -/
theorem begin_of_idle {state : LifecycleState ε} (h : state.inner.phase = .idle) :
    LifecycleRunner.begin state = (.ok (LifecycleRunner.freshId state),
      {state with inner := ⟨advance state.inner.nextGeneration,
        .starting (LifecycleRunner.freshId state)⟩}) := by
  simp [LifecycleRunner.begin, h]

/-- Any other one is busy. -/
theorem begin_of_ne {state : LifecycleState ε} (h : state.inner.phase ≠ .idle) :
    LifecycleRunner.begin state = (.error .busy, state) := by
  simp [LifecycleRunner.begin, h]

/-- Beginning issues the next generation when the lifecycle is idle. -/
theorem lifecycle_begins (state : LifecycleState ε) :
    lifecycleSource.Effect state (.call .begin) := by
  have hnext : lifecycleSource.machine.next state (.call .begin) =
      (LifecycleRunner.begin state).2 := rfl
  have hissued : lifecycleSource.issued state (.call .begin) =
      (LifecycleRunner.begin state).1.toOption := rfl
  by_cases hp : state.inner.phase = .idle
  · rw [begin_of_idle hp] at hnext hissued
    exact .issues (LifecycleRunner.freshId state) hissued rfl (by rw [hnext]; rfl)
      (Or.inl (by rw [hnext]; rfl))
  · rw [begin_of_ne hp] at hnext hissued
    exact .silent hissued (by rw [hnext]) (fun id hid => by rwa [hnext] at hid)

/-- Adoption begins a generation and activates it at once. -/
theorem lifecycle_adopts (state : LifecycleState ε) :
    lifecycleSource.Effect state (.call .adopt) := by
  have hnext : lifecycleSource.machine.next state (.call .adopt) =
      (LifecycleRunner.adopt state).2 := rfl
  have hissued : lifecycleSource.issued state (.call .adopt) =
      (LifecycleRunner.begin state).1.toOption := rfl
  rw [LifecycleRunner.adopt_eq] at hnext
  by_cases hp : state.inner.phase = .idle
  · rw [begin_of_idle hp] at hissued
    rw [if_pos hp] at hnext
    exact .issues (LifecycleRunner.freshId state) hissued rfl (by rw [hnext]; rfl)
      (Or.inl (by rw [hnext]; rfl))
  · rw [begin_of_ne hp] at hissued
    rw [if_neg hp] at hnext
    exact .silent hissued (by rw [hnext]) (fun id hid => by rwa [hnext] at hid)

theorem lifecycle_effect (state : LifecycleState ε) (move : LifecycleMove ε) :
    lifecycleSource.Effect state move := by
  cases move with
  | detachWaiter id => exact silent_of_keepsOwner rfl (detachWaiter_keepsOwner id state)
  | call call =>
    cases call with
    | begin => exact lifecycle_begins state
    | adopt => exact lifecycle_adopts state
    | abortStart id =>
      refine silent_of_keepsOwner rfl ?_
      change KeepsOwner state (LifecycleRunner.abortStart id state).2
      rw [LifecycleRunner.abortStart_eq]
      split
      · exact keepsOwner_idle
      · exact keepsOwner_refl state
    | activate id =>
      refine silent_of_keepsOwner rfl ?_
      change KeepsOwner state (LifecycleRunner.activate id state).2
      rw [LifecycleRunner.activate_eq]
      split
      · next hp => exact keepsOwner_phase (congrArg LifecyclePhase.owner hp) rfl
      · exact keepsOwner_refl state
    | finish id result =>
      have he := ending_keepsOwner (LifecycleRunner.lockFinish_ending id state)
      exact silent_of_keepsOwner rfl (he.congr (publishTerminal_inner id result _))
    | terminate id result =>
      have he := ending_keepsOwner (LifecycleRunner.lockTerminate_ending id state)
      exact silent_of_keepsOwner rfl (he.congr (publishTerminal_inner id result _))
    | requestCancel id waiterAttached =>
      exact silent_of_keepsOwner rfl (requestCancel_keepsOwner id waiterAttached state)
    | acknowledgeTerminal id =>
      refine silent_of_keepsOwner rfl ?_
      change KeepsOwner state (state.acknowledgeTerminal id).2
      rw [LifecycleState.acknowledgeTerminal_eq]
      split
      · exact keepsOwner_idle
      · exact keepsOwner_refl state

/-- Beginning a generation and aborting its start issues one identity. -/
theorem lifecycle_renews {state : LifecycleState ε} (h : state.inner.phase = .idle) :
    ∃ moves, (lifecycleSource.issues state moves).length = 1 ∧
      (moveMachine.run state moves).inner.phase = .idle := by
  have hbegin : moveMachine.next state (.call .begin) =
      {state with inner := ⟨advance state.inner.nextGeneration,
        .starting (LifecycleRunner.freshId state)⟩} :=
    congrArg Prod.snd (begin_of_idle h)
  have hissued : lifecycleSource.issued state (.call .begin) =
      some (LifecycleRunner.freshId state) :=
    congrArg (fun result => result.1.toOption) (begin_of_idle h)
  refine ⟨[.call .begin, .call (.abortStart (LifecycleRunner.freshId state))], ?_, ?_⟩
  · simp only [IdentitySource.issues, hissued]
    rfl
  · rw [run_cons, run_cons, run_nil, hbegin]
    simp [moveMachine, Machine.next, lifecycleMachine, answered, LifecycleRunner.abortStart,
      LifecycleState.setPhase]

theorem lifecycle_counted : (lifecycleSource (ε := ε)).Counted where
  start := rfl
  free := rfl
  effect := lifecycle_effect
  accepted := by
    rintro state id (hactive | ⟨call, hn, hr⟩)
    · exact congrArg LifecyclePhase.owner (LifecycleRunner.isActive_iff.mp hactive)
    · exact owner_of_call hn hr
  renewable := ⟨fun state => state.inner.phase = .idle, rfl, fun _ h => lifecycle_renews h⟩

end Lifecycle

/-- One move in a run of an owner beside others. -/
inductive SharedMove (ι τ : Type)
  | own (input : ι)
  | others (shared : τ)

/-- The owner of a local state moves by its own steps; between them the others may write
anything into the state that is shared. -/
def besideOthers (step : ι → σ → τ → σ × τ) : Machine (σ × τ) (SharedMove ι τ) Unit where
  step s
    | .own input => (step input s.1 s.2, ())
    | .others shared => ((s.1, shared), ())

section Sender

/-- One call on the command sender. -/
inductive SenderCall (C : Type)
  | trySubmit (command : C)
  | tryTakeCompletion

/-- The sender and the shared state after a call. -/
def senderStep : SenderCall C → ControlSender → ControlState C R →
    ControlSender × ControlState C R
  | .trySubmit command, sender, state => (sender.trySubmit command state).2
  | .tryTakeCompletion, sender, state => (sender.tryTakeCompletion state).2

/-- The sender; an identity is accepted when the sender takes its completion. -/
def senderSource : IdentitySource (ControlSender × ControlState C R)
    (SharedMove (SenderCall C) (ControlState C R)) Unit ControlId where
  machine := besideOthers senderStep
  initial := (⟨0, none⟩, ⟨.new, .new⟩)
  raw id := id.raw.1
  counter s := s.1.nextId
  issued s
    | .own (.trySubmit _) => if s.1.outstanding.isSome then none else some s.1.allocateId.1
    | _ => none
  owner s := s.1.outstanding
  accepts s id := ∃ taken, (s.1.tryTakeCompletion s.2).1 = .ok (some taken) ∧ taken.id = id

/-- With nothing outstanding a submission allocates; a full channel wastes the identity. -/
theorem trySubmit_sender {sender : ControlSender} (h : sender.outstanding = none) (command : C)
    (state : ControlState C R) :
    ∃ outstanding, (sender.trySubmit command state).2.1 = ⟨advance sender.nextId, outstanding⟩ ∧
      (outstanding = some sender.allocateId.1 ∨ outstanding = none) := by
  have hfree : ¬sender.outstanding.isSome = true := by
    rw [h]
    exact Bool.false_ne_true
  unfold ControlSender.trySubmit
  rw [if_neg hfree]
  dsimp only
  split
  · exact ⟨_, rfl, Or.inl rfl⟩
  · exact ⟨_, rfl, Or.inr h⟩

/-- With a command outstanding nothing happens. -/
theorem trySubmit_of_some {sender : ControlSender} {id : ControlId}
    (h : sender.outstanding = some id) (command : C) (state : ControlState C R) :
    sender.trySubmit command state = (.error ⟨command⟩, sender, state) := by
  simp [ControlSender.trySubmit, h]

/-- A submission issues the next identity when nothing is outstanding. -/
theorem sender_submits (s : ControlSender × ControlState C R) (command : C) :
    senderSource.Effect s (.own (.trySubmit command)) := by
  have hnext : senderSource.machine.next s (.own (.trySubmit command)) =
      (s.1.trySubmit command s.2).2 := rfl
  have hissued : senderSource.issued s (.own (.trySubmit command)) =
      if s.1.outstanding.isSome then none else some s.1.allocateId.1 := rfl
  cases ho : s.1.outstanding with
  | some id =>
    rw [ho] at hissued
    rw [trySubmit_of_some ho] at hnext
    exact .silent hissued (by rw [hnext]) (fun id hid => by rwa [hnext] at hid)
  | none =>
    rw [ho] at hissued
    obtain ⟨outstanding, hx, houtstanding⟩ := trySubmit_sender ho command s.2
    refine .issues s.1.allocateId.1 hissued rfl ?_ ?_
    · rw [hnext]
      exact congrArg ControlSender.nextId hx
    · have howner : senderSource.owner (senderSource.machine.next s (.own (.trySubmit command))) =
          outstanding := by
        rw [hnext]
        exact congrArg ControlSender.outstanding hx
      rwa [howner]

/-- Taking a completion allocates nothing and may release the owner. -/
theorem sender_takes (s : ControlSender × ControlState C R) :
    senderSource.Effect s (.own .tryTakeCompletion) := by
  have hnext : senderSource.machine.next s (.own .tryTakeCompletion) =
      (s.1.tryTakeCompletion s.2).2 := rfl
  have hkept : (s.1.tryTakeCompletion s.2).2.1.nextId = s.1.nextId ∧
      ∀ id, (s.1.tryTakeCompletion s.2).2.1.outstanding = some id → s.1.outstanding = some id := by
    unfold ControlSender.tryTakeCompletion
    split
    · exact ⟨rfl, fun _ h => h⟩
    · split
      · exact ⟨rfl, fun _ h => h⟩
      · split
        · exact ⟨rfl, fun _ h => h⟩
        · exact ⟨rfl, fun _ h => by cases h⟩
  exact .silent rfl (by rw [hnext]; exact hkept.1) (by rw [hnext]; exact hkept.2)

theorem sender_effect (s : ControlSender × ControlState C R)
    (move : SharedMove (SenderCall C) (ControlState C R)) : senderSource.Effect s move := by
  cases move with
  | others shared => exact .silent rfl rfl fun _ h => h
  | own call =>
    cases call with
    | trySubmit command => exact sender_submits s command
    | tryTakeCompletion => exact sender_takes s

/-- The sender takes a completion of what is outstanding only. -/
theorem outstanding_of_taken {sender : ControlSender} {state : ControlState C R}
    {taken : CommandTransport.ControlCompletion R}
    (h : (sender.tryTakeCompletion state).1 = .ok (some taken)) :
    sender.outstanding = some taken.id := by
  unfold ControlSender.tryTakeCompletion at h
  split at h
  · cases h
  · split at h
    · cases h
    · next expected ho =>
      split at h
      · cases h
      · next hid =>
        cases h
        rw [ho, not_not.mp hid]

/-- A command that is sent, answered by the others and taken back issues one identity. -/
theorem sender_renews [Inhabited C] [Inhabited R] {s : ControlSender × ControlState C R}
    (h : s.1.outstanding = none) :
    ∃ moves, (senderSource.issues s moves).length = 1 ∧
      (senderSource.machine.run s moves).1.outstanding = none := by
  have hissued : senderSource.issued s (.own (.trySubmit default)) = some s.1.allocateId.1 := by
    simp only [senderSource, h, Option.isSome_none, Bool.false_eq_true, if_false]
  have hsubmit : senderSource.machine.next s (.own (.trySubmit default)) =
      (s.1.trySubmit default s.2).2 := rfl
  obtain ⟨outstanding, hx, rfl | rfl⟩ := trySubmit_sender h default s.2
  · let answered : ControlState C R := ⟨.new, Signal.new.signal ⟨s.1.allocateId.1, default⟩⟩
    refine ⟨[.own (.trySubmit default), .others answered, .own .tryTakeCompletion], ?_, ?_⟩
    · simp only [IdentitySource.issues, hissued]
      rfl
    · have hothers : senderSource.machine.next (s.1.trySubmit default s.2).2 (.others answered) =
          (⟨advance s.1.nextId, some s.1.allocateId.1⟩, answered) := Prod.ext hx rfl
      rw [run_cons, hsubmit, run_cons, hothers]
      simp [senderSource, besideOthers, Machine.next, senderStep,
        ControlSender.tryTakeCompletion, Signal.tryTake, Signal.signal, answered]
  · refine ⟨[.own (.trySubmit default)], ?_, ?_⟩
    · simp only [IdentitySource.issues, hissued]
      rfl
    · rw [run_cons, run_nil, hsubmit]
      exact congrArg ControlSender.outstanding hx

theorem sender_counted [Inhabited C] [Inhabited R] : (senderSource (C := C) (R := R)).Counted where
  start := rfl
  free := rfl
  effect := sender_effect
  accepted := by
    rintro s id ⟨taken, h, rfl⟩
    exact outstanding_of_taken h
  renewable := ⟨fun s => s.1.outstanding = none, rfl, fun _ h => sender_renews h⟩

end Sender

section Controller

/-- The controller; a sequence is accepted when its future takes the completion. -/
def controllerSource (shared : SharedState eventCapacity) :
    IdentitySource (ControlPlane × SharedState eventCapacity)
      (SharedMove ControlStep (SharedState eventCapacity)) Unit UInt32 where
  machine := besideOthers fun step plane shared => plane.step shared step
  initial := (.new, shared)
  raw sequence := sequence
  counter s := s.1.nextSequence
  issued s
    | .own .allocate => match s.1.future with
      | .created call => some (s.1.allocateSequence call).nextSequence
      | _ => none
    | _ => none
  owner s := s.1.future.requested.map Command.sequence
  accepts s sequence := ∃ call kind,
    (s.1.step s.2 .observe).1.future = .finishing sequence call kind

/-- The counter is left alone, and the future keeps its sequence or has none. -/
def KeepsSequence (plane next : ControlPlane) : Prop :=
  next.nextSequence = plane.nextSequence ∧
    ∀ sequence, next.future.requested.map Command.sequence = some sequence →
      plane.future.requested.map Command.sequence = some sequence

theorem keepsSequence_refl (plane : ControlPlane) : KeepsSequence plane plane :=
  ⟨rfl, fun _ h => h⟩

section Plane

variable (plane : ControlPlane) (shared : SharedState eventCapacity) {step : ControlStep}

/-- A created future waits for its allocation. -/
theorem allocated_of_created {plane : ControlPlane} {call : ControlCall}
    (hf : plane.future = .created call) (h : step ≠ .allocate) :
    (plane.step shared step).1.allocated = plane.allocated := by
  cases step with
  | allocate => exact absurd rfl h
  | _ => simp [ControlPlane.step, hf]

/-- A step other than the allocation keeps the sequence of the future. -/
theorem plane_keeps (h : step ≠ .allocate) : KeepsSequence plane (plane.step shared step).1 := by
  have hcount := fun call (hf : plane.future = .created call) =>
    allocated_of_created shared hf h
  have he := step_effect plane shared step
  generalize plane.step shared step = next at he hcount
  cases he with
  | quiet shared' hm => exact keepsSequence_refl plane
  | unsent future hu hf =>
    refine ⟨rfl, fun sequence hid => ?_⟩
    rcases hf with rfl | ⟨call, rfl⟩ <;> cases hid
  | allocated call hf => exact absurd (hcount call hf) (Nat.succ_ne_self _)
  | sent sequence call hf shared' commands hq hr hs hm =>
    refine ⟨rfl, fun sequence hid => ?_⟩
    rw [hf]
    exact hid
  | discarded sequence call hf completion hv hs => exact keepsSequence_refl plane
  | taken sequence call kind hf hv =>
    refine ⟨rfl, fun sequence hid => ?_⟩
    rw [hf]
    exact hid
  | resolved sequence call kind hf result hr => exact ⟨rfl, fun sequence hid => by cases hid⟩
  | dropped command hf => exact ⟨rfl, fun sequence hid => by cases hid⟩

end Plane

/-- Allocation issues the next sequence to a created future. -/
theorem controller_allocates {initial : SharedState eventCapacity}
    (s : ControlPlane × SharedState eventCapacity) :
    (controllerSource initial).Effect s (.own .allocate) := by
  rcases s with ⟨⟨nextSequence, future, allocated, resolved, dropped⟩, shared⟩
  cases future with
  | created call => exact .issues (advance nextSequence) rfl rfl rfl (Or.inl rfl)
  | _ => exact .silent rfl rfl fun _ h => h

theorem controller_effect {initial : SharedState eventCapacity}
    (s : ControlPlane × SharedState eventCapacity)
    (move : SharedMove ControlStep (SharedState eventCapacity)) :
    (controllerSource initial).Effect s move := by
  have hsilent : ∀ step, step ≠ .allocate → (controllerSource initial).issued s (.own step) = none →
      (controllerSource initial).Effect s (.own step) := by
    intro step hs hi
    obtain ⟨hc, ho⟩ := plane_keeps s.1 s.2 hs
    exact .silent hi hc ho
  cases move with
  | others shared => exact .silent rfl rfl fun _ h => h
  | own step =>
    cases step with
    | allocate => exact controller_allocates s
    | _ => exact hsilent _ nofun rfl

/-- A call that is created, given its sequence and dropped issues one identity. -/
theorem controller_renews {initial : SharedState eventCapacity}
    {s : ControlPlane × SharedState eventCapacity} (h : s.1.future = .idle) :
    ∃ moves, ((controllerSource initial).issues s moves).length = 1 ∧
      ((controllerSource initial).machine.run s moves).1.future = .idle := by
  rcases s with ⟨⟨nextSequence, future, allocated, resolved, dropped⟩, shared⟩
  cases h
  exact ⟨[.own (.call .disconnect), .own .allocate, .own .drop], rfl, rfl⟩

theorem controller_counted (shared : SharedState eventCapacity) :
    (controllerSource shared).Counted where
  start := rfl
  free := rfl
  effect := controller_effect
  accepted := by
    rintro s sequence ⟨call, kind, hf⟩
    have hobserve : ControlStep.observe ≠ .allocate := nofun
    have hk := plane_keeps s.1 s.2 hobserve
    exact hk.2 sequence (by rw [hf]; rfl)
  renewable := ⟨fun s => s.1.future = .idle, rfl, fun _ h => controller_renews h⟩

end Controller

/-- Each of the four allocators, from its first allocation on and across every wrap of its
counter, issues identities that are never zero and repeat with a period of exactly one
less than the word size; a stale identity is accepted again only after a period of later
allocations. -/
theorem identities_periodic [Inhabited C] [Inhabited R] (shared : SharedState eventCapacity) :
    trackerSource.Periodic ∧ (senderSource (C := C) (R := R)).Periodic ∧
    (lifecycleSource (ε := ε)).Periodic ∧ (controllerSource shared).Periodic :=
  ⟨tracker_counted.isPeriodic, sender_counted.isPeriodic, lifecycle_counted.isPeriodic,
    (controller_counted shared).isPeriodic⟩

end HisiRfCore.IdentityAllocators
