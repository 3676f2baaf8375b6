import HisiRfCore.LifecycleCalls

/-!
# Lifecycle calls, one locked section or signal at a time

Runner and guards run on different threads. Each locked section and each operation on a
signal is one step, and any other party may step between two of them. A whole call is its
steps with nothing in between.
-/

namespace HisiRfCore.LifecycleInterleaving

open LifecycleControl LifecycleStages LifecycleCalls InputOutputMachine

variable {ε : Type}

/-- Where the runner stands inside a call. -/
inductive RunnerActivity (ε : Type)
  | ready
  | adopting (id : LifecycleId)
  | publishing (terminal : LifecycleTerminal ε)
  deriving DecidableEq

/-- The shared state with the places of all parties. -/
structure LifecycleParties (ε : Type) where
  /-- State shared by runner and guards. -/
  state : LifecycleState ε
  /-- The runner. -/
  runner : RunnerActivity ε
  /-- Guards in order of activation, the closed ones included. -/
  guards : List (LifecycleGuard ε)

/-- A call that the runner makes. -/
inductive RunnerCall (ε : Type)
  | begin
  | adopt
  | abortStart (id : LifecycleId)
  | activate (id : LifecycleId)
  | tryTakeCancel
  | finish (id : LifecycleId) (result : Except ε Unit)
  | terminate (id : LifecycleId) (result : Except ε Unit)
  deriving DecidableEq

/-- The first step of a call, or the next one of the call in progress. -/
inductive LifecycleStep (ε : Type)
  | call (call : RunnerCall ε)
  | runner
  | pollStop (slot : ℕ)
  | dropGuard (slot : ℕ)
  | guard (slot : ℕ)
  deriving DecidableEq

namespace LifecycleParties

/-- Nothing allocated and nobody inside a call. -/
def new : LifecycleParties ε := ⟨.new, .ready, []⟩

/-- Guard in a slot with its new progress. -/
def put (s : LifecycleParties ε) (state : LifecycleState ε) (slot : ℕ) (guard : LifecycleGuard ε)
    (progress : GuardProgress ε) : LifecycleParties ε :=
  {s with state := state, guards := s.guards.set slot {guard with progress := progress}}

/-- The runner leaves the lock of `finish` or `terminate`. -/
def unlock (s : LifecycleParties ε) (terminal : LifecycleTerminal ε) :
    Except LifecycleStateError Bool × LifecycleState ε → LifecycleParties ε × LifecycleAnswer ε
  | (.error error, state) => ({s with state := state}, .returned (.error error))
  | (.ok true, state) => ({s with state := state, runner := .publishing terminal}, .nothing)
  | (.ok false, state) => ({s with state := state}, .returned (.ok ()))

/-- The runner keeps the guard of an activation and is ready again. -/
def receive (s : LifecycleParties ε) :
    Except LifecycleStateError (LifecycleGuard ε) × LifecycleState ε →
      LifecycleParties ε × LifecycleAnswer ε
  | (.ok guard, state) => (⟨state, .ready, s.guards ++ [guard]⟩, .activated (.ok guard.id))
  | (.error error, state) => (⟨state, .ready, s.guards⟩, .activated (.error error))

/-- First step of a call of the runner. -/
def enter (s : LifecycleParties ε) : RunnerCall ε → LifecycleParties ε × LifecycleAnswer ε
  | .begin =>
    ({s with state := (LifecycleRunner.begin s.state).2}, .begun (LifecycleRunner.begin s.state).1)
  | .adopt =>
    match LifecycleRunner.begin s.state with
    | (.error error, state) => ({s with state := state}, .activated (.error error))
    | (.ok id, state) => ({s with state := state, runner := .adopting id}, .nothing)
  | .abortStart id =>
    ({s with state := (LifecycleRunner.abortStart id s.state).2},
      .returned (LifecycleRunner.abortStart id s.state).1)
  | .activate id => s.receive (LifecycleRunner.activate id s.state)
  | .tryTakeCancel =>
    ({s with state := (LifecycleRunner.tryTakeCancel s.state).2},
      .taken (LifecycleRunner.tryTakeCancel s.state).1)
  | .finish id result => s.unlock ⟨id, result⟩ (LifecycleRunner.lockFinish id s.state)
  | .terminate id result => s.unlock ⟨id, result⟩ (LifecycleRunner.lockTerminate id s.state)

/-- A `stop` polls the terminal signal. -/
def read (s : LifecycleParties ε) (slot : ℕ) (guard : LifecycleGuard ε) :
    LifecycleParties ε × LifecycleAnswer ε :=
  match guard.readTerminal s.state with
  | (.pending, state) => (s.put state slot guard .waiting, .polled guard.id none)
  | (.unrelated, state) =>
    (s.put state slot guard .closed, .polled guard.id (some (.error .stale)))
  | (.matching result, state) => (s.put state slot guard (.acknowledging result), .nothing)

/-- First step of a poll of `stop`. -/
def poll (s : LifecycleParties ε) (slot : ℕ) (guard : LifecycleGuard ε) :
    LifecycleParties ε × LifecycleAnswer ε :=
  match guard.progress with
  | .held =>
    match s.state.lockRequest guard.id true with
    | (.error _, state) =>
      (s.put state slot guard .closed, .polled guard.id (some (.error .stale)))
    | (.ok true, state) => (s.put state slot guard (.requesting true), .nothing)
    | (.ok false, state) => (s.put state slot guard .polling, .nothing)
  | .waiting => s.read slot guard
  | _ => (s, .nothing)

/-- First step of the drop of a guard or `stop` future. -/
def drop (s : LifecycleParties ε) (slot : ℕ) (guard : LifecycleGuard ε) :
    LifecycleParties ε × LifecycleAnswer ε :=
  match guard.progress with
  | .held =>
    match s.state.lockRequest guard.id false with
    | (.ok true, state) => (s.put state slot guard (.requesting false), .nothing)
    | (_, state) => (s.put state slot guard .closed, .dropped guard.id)
  | .waiting => (s.put (s.state.detachWaiter guard.id) slot guard .closed, .dropped guard.id)
  | _ => (s, .nothing)

/-- Next step of the call in progress on a guard. -/
def resume (s : LifecycleParties ε) (slot : ℕ) (guard : LifecycleGuard ε) :
    LifecycleParties ε × LifecycleAnswer ε :=
  match guard.progress with
  | .requesting true => (s.put (s.state.signalCancel guard.id) slot guard .polling, .nothing)
  | .requesting false =>
    (s.put (s.state.signalCancel guard.id) slot guard .closed, .dropped guard.id)
  | .polling => s.read slot guard
  | .acknowledging result =>
    (s.put (guard.acknowledge result s.state).2 slot guard .closed,
      .polled guard.id (some (guard.acknowledge result s.state).1))
  | _ => (s, .nothing)

/-- One step of one party. -/
def step (s : LifecycleParties ε) : LifecycleStep ε → LifecycleParties ε × LifecycleAnswer ε
  | .call call =>
    match s.runner with
    | .ready => s.enter call
    | _ => (s, .nothing)
  | .runner =>
    match s.runner with
    | .ready => (s, .nothing)
    | .adopting id => s.receive (LifecycleRunner.activate id s.state)
    | .publishing terminal =>
      ({s with state := LifecycleRunner.publish terminal s.state, runner := .ready},
        .returned (.ok ()))
  | .pollStop slot =>
    match s.guards[slot]? with
    | none => (s, .nothing)
    | some guard => s.poll slot guard
  | .dropGuard slot =>
    match s.guards[slot]? with
    | none => (s, .nothing)
    | some guard => s.drop slot guard
  | .guard slot =>
    match s.guards[slot]? with
    | none => (s, .nothing)
    | some guard => s.resume slot guard

/-- Nobody is inside a `finish`, a `terminate`, a poll of `stop` or a drop. -/
def Quiet (s : LifecycleParties ε) : Prop :=
  (∀ terminal, s.runner ≠ .publishing terminal) ∧
  ∀ guard ∈ s.guards, guard.progress = .held ∨ guard.progress = .waiting ∨
    guard.progress = .closed

end LifecycleParties

/-- Runner and guards, interleaved. -/
def partyMachine : Machine (LifecycleParties ε) (LifecycleStep ε) (LifecycleAnswer ε) :=
  ⟨LifecycleParties.step⟩

/-- Steps of a whole call; those that are not needed do nothing. -/
def callSteps : LifecycleCall ε → List (LifecycleStep ε)
  | .begin => [.call .begin]
  | .adopt => [.call .adopt, .runner]
  | .abortStart id => [.call (.abortStart id)]
  | .activate id => [.call (.activate id)]
  | .tryTakeCancel => [.call .tryTakeCancel]
  | .finish id result => [.call (.finish id result), .runner]
  | .terminate id result => [.call (.terminate id result), .runner]
  | .pollStop slot => [.pollStop slot, .guard slot, .guard slot, .guard slot]
  | .dropGuard slot => [.dropGuard slot, .guard slot]

/-- The parties of a system where nobody is inside a call. -/
def LifecycleParties.between (s : LifecycleSystem ε) : LifecycleParties ε :=
  ⟨s.state, .ready, s.guards⟩

/-- No call is in progress on the guard. -/
def Settled (guard : LifecycleGuard ε) : Prop :=
  guard.progress = .held ∨ guard.progress = .waiting ∨ guard.progress = .closed

section WholeCalls

variable {s : LifecycleParties ε} {state : LifecycleState ε} {slot : ℕ}
  {guard : LifecycleGuard ε}

/-- Only the last progress of a guard counts. -/
@[simp] theorem put_put (first state : LifecycleState ε) (progress next : GuardProgress ε) :
    (s.put first slot guard progress).put state slot {guard with progress := progress} next =
      s.put state slot guard next := by
  simp [LifecycleParties.put]

@[simp] theorem put_state (progress : GuardProgress ε) :
    (s.put state slot guard progress).state = state := rfl

/-- What stands in a slot after a step on one. -/
theorem put_guards {state : LifecycleState ε} {progress : GuardProgress ε}
    (hslot : s.guards[slot]? = some guard) (other : ℕ) :
    (s.put state slot guard progress).guards[other]? =
      if other = slot then some {guard with progress := progress} else s.guards[other]? := by
  have hlt := (List.getElem?_eq_some_iff.mp hslot).1
  simp only [LifecycleParties.put, List.getElem?_set]
  by_cases he : other = slot
  · cases he
    simp [hlt]
  · simp [he, Ne.symm he]

/-- The next step of a call in progress finds the guard where the last one left it. -/
theorem next_put (hlt : slot < s.guards.length) (progress : GuardProgress ε) :
    partyMachine.next (s.put state slot guard progress) (.guard slot) =
      ((s.put state slot guard progress).resume slot {guard with progress := progress}).1 := by
  simp [partyMachine, Machine.next, LifecycleParties.step, LifecycleParties.put, hlt]

/-- Nothing is left to do for a guard between calls. -/
theorem next_settled (hlt : slot < s.guards.length) {progress : GuardProgress ε}
    (hp : progress = .held ∨ progress = .waiting ∨ progress = .closed) :
    partyMachine.next (s.put state slot guard progress) (.guard slot) =
      s.put state slot guard progress := by
  rw [next_put hlt]
  rcases hp with rfl | rfl | rfl <;> rfl

/-- Neither is for one that was left there. -/
theorem next_resting {s : LifecycleSystem ε} (hslot : s.guards[slot]? = some guard)
    (hp : guard.progress = .waiting ∨ guard.progress = .closed) :
    partyMachine.next (.between s) (.guard slot) = .between s := by
  rcases hp with hp | hp <;>
    simp [partyMachine, Machine.next, LifecycleParties.step, LifecycleParties.between, hslot,
      LifecycleParties.resume, hp]

/-- A poll of the signal and the acknowledgement make one poll of the `stop` at its await. -/
theorem read_resumed (hlt : slot < s.guards.length) (guard : LifecycleGuard ε) :
    partyMachine.next (s.read slot guard).1 (.guard slot) =
      {s with state := (guard.awaitTerminal s.state).2.2
              guards := s.guards.set slot (guard.awaitTerminal s.state).2.1} := by
  unfold LifecycleParties.read LifecycleGuard.awaitTerminal
  rcases guard.readTerminal s.state with ⟨_ | _ | result, state⟩
  · exact next_settled hlt (Or.inr (Or.inl rfl))
  · exact next_settled hlt (Or.inr (Or.inr rfl))
  · rw [next_put hlt]
    simp only [LifecycleParties.resume, put_put, put_state]
    rfl

/-- A waiting or resolved `stop` has nothing left to do. -/
theorem await_settled (hlt : slot < s.guards.length) (guard : LifecycleGuard ε)
    (before : LifecycleState ε) :
    partyMachine.next
        {s with state := (guard.awaitTerminal before).2.2
                guards := s.guards.set slot (guard.awaitTerminal before).2.1} (.guard slot) =
      {s with state := (guard.awaitTerminal before).2.2
              guards := s.guards.set slot (guard.awaitTerminal before).2.1} := by
  unfold LifecycleGuard.awaitTerminal
  rcases guard.readTerminal before with ⟨_ | _ | result, state⟩
  · exact next_settled hlt (Or.inr (Or.inl rfl))
  · exact next_settled hlt (Or.inr (Or.inr rfl))
  · exact next_settled hlt (Or.inr (Or.inr rfl))

/-- A `stop` that has its request behind it reads, acknowledges and is done. -/
theorem polling_resumed (hlt : slot < s.guards.length) (guard : LifecycleGuard ε)
    (state : LifecycleState ε) :
    partyMachine.run (s.put state slot guard .polling) [.guard slot, .guard slot] =
      {s with state := (guard.awaitTerminal state).2.2
              guards := s.guards.set slot (guard.awaitTerminal state).2.1} := by
  have hlt' : slot < (s.put state slot guard .polling).guards.length := by
    simpa [LifecycleParties.put] using hlt
  rw [run_cons, run_cons, run_nil, next_put hlt]
  simp only [LifecycleParties.resume]
  rw [read_resumed hlt']
  simp only [LifecycleParties.put, List.set_set]
  rfl

/-- A whole poll of `stop` is its steps. -/
theorem whole_poll (s : LifecycleSystem ε) {slot : ℕ} {guard : LifecycleGuard ε}
    (hslot : s.guards[slot]? = some guard) (hs : Settled guard) :
    partyMachine.run (.between s) (callSteps (.pollStop slot)) =
      .between (s.step (.pollStop slot)).1 := by
  have hlt : slot < (LifecycleParties.between s).guards.length :=
    (List.getElem?_eq_some_iff.mp hslot).1
  have hfirst : partyMachine.next (.between s) (.pollStop slot) =
      ((LifecycleParties.between s).poll slot guard).1 := by
    simp [partyMachine, Machine.next, LifecycleParties.step, LifecycleParties.between, hslot]
  have hidle : ∀ state, partyMachine.run
      ((LifecycleParties.between s).put state slot guard .closed)
        [.guard slot, .guard slot, .guard slot] =
      (LifecycleParties.between s).put state slot guard .closed := by
    intro state
    simp only [run_cons, run_nil, next_settled hlt (Or.inr (Or.inr rfl))]
  rw [callSteps, run_cons, hfirst]
  rcases hs with hp | hp | hp
  · simp only [LifecycleSystem.step, hslot, resting, hp, if_true, LifecycleGuard.pollStop,
      LifecycleParties.poll, LifecycleState.requestCancel]
    rcases hx : s.state.lockRequest guard.id true with ⟨error | _ | _, state⟩
    · rw [show (LifecycleParties.between s).state.lockRequest guard.id true = _ from hx]
      exact hidle state
    · rw [show (LifecycleParties.between s).state.lockRequest guard.id true = _ from hx]
      have hread := polling_resumed hlt guard state
      rw [show [LifecycleStep.guard slot, .guard slot, .guard slot] =
        [.guard slot, .guard slot] ++ [.guard slot] from rfl, run_append, hread]
      exact await_settled hlt guard state
    · rw [show (LifecycleParties.between s).state.lockRequest guard.id true = _ from hx]
      rw [run_cons, next_put hlt]
      simp only [LifecycleParties.resume, put_put, put_state]
      exact polling_resumed hlt guard (state.signalCancel guard.id)
  · simp only [LifecycleSystem.step, hslot, resting, hp, if_true, LifecycleGuard.pollStop,
      LifecycleParties.poll]
    rw [run_cons, read_resumed hlt, run_cons, await_settled hlt guard, run_cons,
      await_settled hlt guard]
    rfl
  · simp only [LifecycleSystem.step, hslot, resting, hp, Bool.false_eq_true, if_false,
      LifecycleParties.poll, run_cons, run_nil, next_resting hslot (Or.inr hp)]

/-- A whole drop is its steps. -/
theorem whole_drop (s : LifecycleSystem ε) {slot : ℕ} {guard : LifecycleGuard ε}
    (hslot : s.guards[slot]? = some guard) (hs : Settled guard) :
    partyMachine.run (.between s) (callSteps (.dropGuard slot)) =
      .between (s.step (.dropGuard slot)).1 := by
  have hlt : slot < (LifecycleParties.between s).guards.length :=
    (List.getElem?_eq_some_iff.mp hslot).1
  have hfirst : partyMachine.next (.between s) (.dropGuard slot) =
      ((LifecycleParties.between s).drop slot guard).1 := by
    simp [partyMachine, Machine.next, LifecycleParties.step, LifecycleParties.between, hslot]
  rw [callSteps, run_cons, hfirst, run_cons, run_nil]
  rcases hs with hp | hp | hp
  · simp only [LifecycleSystem.step, hslot, resting, hp, if_true, LifecycleParties.drop,
      LifecycleGuard.drop_of_held hp, LifecycleState.requestCancel]
    rcases hx : s.state.lockRequest guard.id false with ⟨error | _ | _, state⟩
    · rw [show (LifecycleParties.between s).state.lockRequest guard.id false = _ from hx]
      exact next_settled hlt (Or.inr (Or.inr rfl))
    · rw [show (LifecycleParties.between s).state.lockRequest guard.id false = _ from hx]
      exact next_settled hlt (Or.inr (Or.inr rfl))
    · rw [show (LifecycleParties.between s).state.lockRequest guard.id false = _ from hx,
        next_put hlt]
      simp only [LifecycleParties.resume, put_put, put_state]
      rfl
  · simp only [LifecycleSystem.step, hslot, resting, hp, if_true, LifecycleParties.drop,
      LifecycleGuard.drop_of_waiting hp]
    exact next_settled hlt (Or.inr (Or.inr rfl))
  · simp only [LifecycleSystem.step, hslot, resting, hp, Bool.false_eq_true, if_false,
      LifecycleParties.drop, next_resting hslot (Or.inr hp)]

/-- So is each call of the runner that leaves the lock with a signal due. -/
theorem whole_ending (s : LifecycleSystem ε) {id : LifecycleId} {result : Except ε Unit}
    (outcome : Except LifecycleStateError Bool × LifecycleState ε) :
    partyMachine.next ((LifecycleParties.between s).unlock ⟨id, result⟩ outcome).1 .runner =
      .between {s with state := (LifecycleRunner.publishTerminal id result outcome).2} := by
  rcases outcome with ⟨error | _ | _, state⟩ <;> rfl

/-- A whole call is its steps with nothing in between. -/
theorem whole_call (s : LifecycleSystem ε) (hs : ∀ guard ∈ s.guards, Settled guard)
    (call : LifecycleCall ε) :
    partyMachine.run (.between s) (callSteps call) = .between (s.step call).1 := by
  cases call with
  | begin | abortStart | tryTakeCancel => rfl
  | activate id =>
    simp only [callSteps, run_cons, run_nil, LifecycleSystem.step]
    show ((LifecycleParties.between s).receive (LifecycleRunner.activate id s.state)).1 = _
    rcases LifecycleRunner.activate id s.state with ⟨error | guard, state⟩ <;> rfl
  | adopt =>
    simp only [callSteps, run_cons, run_nil, LifecycleSystem.step, LifecycleRunner.adopt]
    rcases hx : LifecycleRunner.begin s.state with ⟨error | id, state⟩
    · simp [partyMachine, Machine.next, LifecycleParties.step, LifecycleParties.enter,
        LifecycleParties.between, hx, LifecycleSystem.receive]
    · simp only [partyMachine, Machine.next, LifecycleParties.step, LifecycleParties.enter,
        LifecycleParties.between, hx]
      rcases LifecycleRunner.activate id state with ⟨error | guard, next⟩ <;> rfl
  | finish id result => exact whole_ending s (LifecycleRunner.lockFinish id s.state)
  | terminate id result => exact whole_ending s (LifecycleRunner.lockTerminate id s.state)
  | pollStop slot =>
    cases hslot : s.guards[slot]? with
    | none =>
      simp [callSteps, partyMachine, Machine.next, LifecycleParties.step, LifecycleSystem.step,
        LifecycleParties.between, hslot]
    | some guard => exact whole_poll s hslot (hs guard (List.mem_of_getElem? hslot))
  | dropGuard slot =>
    cases hslot : s.guards[slot]? with
    | none =>
      simp [callSteps, partyMachine, Machine.next, LifecycleParties.step, LifecycleSystem.step,
        LifecycleParties.between, hslot]
    | some guard => exact whole_drop s hslot (hs guard (List.mem_of_getElem? hslot))

/-- A poll leaves the `stop` at its await or resolved. -/
theorem settled_pollStop (hs : Settled guard) (state : LifecycleState ε) :
    Settled (guard.pollStop state).2.1 := by
  have hawait : ∀ before, Settled (guard.awaitTerminal before).2.1 := by
    intro before
    unfold LifecycleGuard.awaitTerminal
    rcases guard.readTerminal before with ⟨_ | _ | result, next⟩
    · exact Or.inr (Or.inl rfl)
    · exact Or.inr (Or.inr rfl)
    · exact Or.inr (Or.inr rfl)
  unfold LifecycleGuard.pollStop
  split
  · split
    · exact Or.inr (Or.inr rfl)
    · exact hawait _
  · exact hawait state
  · exact hs

/-- Whole calls leave no guard inside a call. -/
theorem settled_step {s : LifecycleSystem ε} (hs : ∀ guard ∈ s.guards, Settled guard)
    (call : LifecycleCall ε) : ∀ guard ∈ (s.step call).1.guards, Settled guard := by
  have hset : ∀ slot (guard : LifecycleGuard ε), Settled guard →
      ∀ other ∈ s.guards.set slot guard, Settled other := by
    intro slot guard hg other hmem
    rcases List.mem_or_eq_of_mem_set hmem with hold | rfl
    · exact hs other hold
    · exact hg
  have hreceive : ∀ id, ∀ guard ∈ s.guards ++ [(⟨id, .held⟩ : LifecycleGuard ε)],
      Settled guard := by
    intro id guard hmem
    rcases List.mem_append.mp hmem with hold | hnew
    · exact hs guard hold
    · cases List.mem_singleton.mp hnew
      exact Or.inl rfl
  cases call with
  | begin | abortStart | tryTakeCancel | finish | terminate => exact hs
  | adopt =>
    simp only [LifecycleSystem.step, LifecycleRunner.adopt_eq]
    split
    · exact hreceive _
    · exact hs
  | activate id =>
    simp only [LifecycleSystem.step, LifecycleRunner.activate_eq]
    split
    · exact hreceive id
    · exact hs
  | pollStop slot =>
    simp only [LifecycleSystem.step]
    split
    · exact hs
    next guard hslot =>
      split
      · exact hset slot _ (settled_pollStop (hs guard (List.mem_of_getElem? hslot)) s.state)
      · exact hs
  | dropGuard slot =>
    simp only [LifecycleSystem.step]
    split
    · exact hs
    · split
      · exact hset slot _ (Or.inr (Or.inr rfl))
      · exact hs

end WholeCalls

/-- Every run of whole calls is a run of their steps. -/
theorem calls_are_steps (calls : List (LifecycleCall ε)) :
    partyMachine.run .new (calls.flatMap callSteps) = .between (callMachine.run .new calls) := by
  induction calls using List.reverseRecOn with
  | nil => rfl
  | append_singleton before call ih =>
    have hs : ∀ guard ∈ (callMachine.run .new before).guards, Settled guard :=
      run_invariant callMachine (I := fun s => ∀ guard ∈ s.guards, Settled guard) (fun _ h => by cases h)
        (fun s call hs => settled_step hs call) before
    rw [List.flatMap_append, run_append, ih, run_concat, List.flatMap_singleton]
    exact whole_call _ hs call

end HisiRfCore.LifecycleInterleaving
