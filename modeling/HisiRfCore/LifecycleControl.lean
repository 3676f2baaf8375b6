import HisiRfCore.BoundedChannel
import HisiRfCore.NonZeroCounter

/-!
# Lifecycle of one backend resource

A runner starts and ends generations of a lifecycle; an application holds a guard for
each started one. Dropping the guard requests a cancellation, and stopping it requests
one and waits for the result of the runner. The phase is behind a lock; the request and
the result travel through two signals. Each call is a locked section followed, for
`request_cancel`, `finish` and `terminate`, by a signal outside the lock.
-/

namespace HisiRfCore.LifecycleControl

open NonZeroCounter BoundedChannel

variable {ε : Type}

/-- Generation-tagged identity shared by start, cancellation and terminal result. -/
@[ext]
structure LifecycleId where
  /-- The stable non-zero representation. -/
  raw : NonZeroU32
  deriving DecidableEq

/-- Where the one lifecycle stands. -/
inductive LifecyclePhase
  | idle
  | starting (id : LifecycleId)
  | active (id : LifecycleId)
  | cancelling (id : LifecycleId) (waiterAttached : Bool)
  | terminal (id : LifecycleId)
  deriving DecidableEq

/-- Generation that a phase belongs to. -/
def LifecyclePhase.owner : LifecyclePhase → Option LifecycleId
  | .idle => none
  | .starting id | .active id | .cancelling id _ | .terminal id => some id

/-- What the lock protects. -/
structure LifecycleInner where
  /-- Last allocated generation. -/
  nextGeneration : UInt32
  /-- Where the lifecycle stands. -/
  phase : LifecyclePhase
  deriving DecidableEq

/-- A lifecycle cannot begin or transition from its current state. -/
inductive LifecycleStateError
  | busy | stale | invalidTransition
  deriving DecidableEq

/-- Result that the runner publishes to an attached waiter. -/
structure LifecycleTerminal (ε : Type) where
  /-- Generation that ended. -/
  id : LifecycleId
  /-- Result of its backend. -/
  result : Except ε Unit
  deriving DecidableEq

/-- Error returned by an explicit lifecycle stop. -/
inductive LifecycleStopError (ε : Type)
  | stale
  | backend (error : ε)
  deriving DecidableEq

/-- State shared by one runner and its guards. -/
structure LifecycleState (ε : Type) where
  /-- The part behind the lock. -/
  inner : LifecycleInner
  /-- Latest cancellation request. -/
  cancellation : Signal LifecycleId
  /-- Latest terminal result. -/
  terminal : Signal (LifecycleTerminal ε)
  deriving DecidableEq

namespace LifecycleState

variable {state : LifecycleState ε} {id : LifecycleId}

/-- No generation allocated and nothing signalled. -/
def new : LifecycleState ε := ⟨⟨0, .idle⟩, .new, .new⟩

/-- Replace the phase. -/
def setPhase (phase : LifecyclePhase) (state : LifecycleState ε) : LifecycleState ε :=
  {state with inner := {state.inner with phase := phase}}

@[simp] theorem setPhase_phase (phase : LifecyclePhase) :
    (state.setPhase phase).inner.phase = phase := rfl

@[simp] theorem setPhase_nextGeneration (phase : LifecyclePhase) :
    (state.setPhase phase).inner.nextGeneration = state.inner.nextGeneration := rfl

@[simp] theorem setPhase_cancellation (phase : LifecyclePhase) :
    (state.setPhase phase).cancellation = state.cancellation := rfl

@[simp] theorem setPhase_terminal (phase : LifecyclePhase) :
    (state.setPhase phase).terminal = state.terminal := rfl

/-- Locked section of `request_cancel`; its value says whether the phase moved. -/
def lockRequest (id : LifecycleId) (waiterAttached : Bool) (state : LifecycleState ε) :
    Except LifecycleStateError Bool × LifecycleState ε :=
  match state.inner.phase with
  | .starting current | .active current =>
    if current = id then (.ok true, state.setPhase (.cancelling id waiterAttached))
    else (.error .stale, state)
  | .cancelling current _ | .terminal current =>
    if current = id then (.ok false, state) else (.error .stale, state)
  | .idle => (.error .stale, state)

/-- A request moves a live generation, joins one that is ending, or is refused. -/
theorem lockRequest_cases (id : LifecycleId) (waiterAttached : Bool) (state : LifecycleState ε) :
    ((state.inner.phase = .starting id ∨ state.inner.phase = .active id) ∧
      state.lockRequest id waiterAttached =
        (.ok true, state.setPhase (.cancelling id waiterAttached))) ∨
    (((∃ attached, state.inner.phase = .cancelling id attached) ∨
        state.inner.phase = .terminal id) ∧
      state.lockRequest id waiterAttached = (.ok false, state)) ∨
    (state.inner.phase.owner ≠ some id ∧
      state.lockRequest id waiterAttached = (.error .stale, state)) := by
  unfold lockRequest
  cases state.inner.phase with
  | idle => simp [LifecyclePhase.owner]
  | starting current => by_cases h : current = id <;> simp [LifecyclePhase.owner, h]
  | active current => by_cases h : current = id <;> simp [LifecyclePhase.owner, h]
  | cancelling current attached => by_cases h : current = id <;> simp [LifecyclePhase.owner, h]
  | terminal current => by_cases h : current = id <;> simp [LifecyclePhase.owner, h]

/-- Signal the request, after the lock is released. -/
def signalCancel (id : LifecycleId) (state : LifecycleState ε) : LifecycleState ε :=
  {state with cancellation := state.cancellation.signal id}

@[simp] theorem signalCancel_inner : (state.signalCancel id).inner = state.inner := rfl

/-- Move a live generation to its cancellation and tell the runner. -/
def requestCancel (id : LifecycleId) (waiterAttached : Bool) (state : LifecycleState ε) :
    Except LifecycleStateError Unit × LifecycleState ε :=
  match state.lockRequest id waiterAttached with
  | (.error error, state) => (.error error, state)
  | (.ok moved, state) => (.ok (), if moved then state.signalCancel id else state)

/-- A whole request signals exactly when the phase moved. -/
theorem requestCancel_cases (id : LifecycleId) (waiterAttached : Bool) (state : LifecycleState ε) :
    ((state.inner.phase = .starting id ∨ state.inner.phase = .active id) ∧
      state.requestCancel id waiterAttached =
        (.ok (), (state.setPhase (.cancelling id waiterAttached)).signalCancel id)) ∨
    (((∃ attached, state.inner.phase = .cancelling id attached) ∨
        state.inner.phase = .terminal id) ∧
      state.requestCancel id waiterAttached = (.ok (), state)) ∨
    (state.inner.phase.owner ≠ some id ∧
      state.requestCancel id waiterAttached = (.error .stale, state)) := by
  unfold requestCancel
  rcases lockRequest_cases id waiterAttached state with ⟨hp, hx⟩ | ⟨hp, hx⟩ | ⟨hp, hx⟩ <;> rw [hx]
  · exact Or.inl ⟨hp, rfl⟩
  · exact Or.inr (Or.inl ⟨hp, rfl⟩)
  · exact Or.inr (Or.inr ⟨hp, rfl⟩)

/-- The request of an active generation moves it. -/
theorem requestCancel_of_active (waiterAttached : Bool) (h : state.inner.phase = .active id) :
    state.requestCancel id waiterAttached =
      (.ok (), (state.setPhase (.cancelling id waiterAttached)).signalCancel id) := by
  simp [requestCancel, lockRequest, h]

/-- The request of a generation that does not own the phase is refused. -/
theorem requestCancel_of_ne (waiterAttached : Bool) (h : state.inner.phase.owner ≠ some id) :
    state.requestCancel id waiterAttached = (.error .stale, state) := by
  rcases requestCancel_cases id waiterAttached state with ⟨hp, -⟩ | ⟨hp, -⟩ | ⟨-, hx⟩
  · rcases hp with hp | hp <;> (rw [hp] at h; exact absurd rfl h)
  · rcases hp with ⟨_, hp⟩ | hp <;> (rw [hp] at h; exact absurd rfl h)
  · exact hx

/-- Give up waiting: the result, if there is one, is discarded inside the lock. -/
def detachWaiter (id : LifecycleId) (state : LifecycleState ε) : LifecycleState ε :=
  match state.inner.phase with
  | .cancelling current true =>
    if current = id then state.setPhase (.cancelling id false) else state
  | .terminal current =>
    if current = id then {state.setPhase .idle with terminal := state.terminal.tryTake.2}
    else state
  | _ => state

/-- Detaching keeps the cancellation going, frees a finished generation, or does nothing. -/
theorem detachWaiter_cases (id : LifecycleId) (state : LifecycleState ε) :
    (state.inner.phase = .cancelling id true ∧
      state.detachWaiter id = state.setPhase (.cancelling id false)) ∨
    (state.inner.phase = .terminal id ∧
      state.detachWaiter id = {state.setPhase .idle with terminal := state.terminal.tryTake.2}) ∨
    (state.inner.phase ≠ .cancelling id true ∧ state.inner.phase ≠ .terminal id ∧
      state.detachWaiter id = state) := by
  unfold detachWaiter
  cases state.inner.phase with
  | idle => simp
  | starting current => simp
  | active current => simp
  | cancelling current attached =>
    cases attached <;> by_cases h : current = id <;> simp [h]
  | terminal current => by_cases h : current = id <;> simp [h]

/-- A waiting generation is detached. -/
theorem detachWaiter_of_cancelling (h : state.inner.phase = .cancelling id true) :
    state.detachWaiter id = state.setPhase (.cancelling id false) := by
  simp [detachWaiter, h]

/-- A finished generation is freed. -/
theorem detachWaiter_of_terminal (h : state.inner.phase = .terminal id) :
    state.detachWaiter id = {state.setPhase .idle with terminal := state.terminal.tryTake.2} := by
  simp [detachWaiter, h]

/-- Release the generation whose result was read. -/
def acknowledgeTerminal (id : LifecycleId) (state : LifecycleState ε) :
    Except LifecycleStateError Unit × LifecycleState ε :=
  match state.inner.phase with
  | .terminal current =>
    if current = id then (.ok (), state.setPhase .idle) else (.error .stale, state)
  | _ => (.error .stale, state)

/-- Only the generation whose result is published is released. -/
theorem acknowledgeTerminal_eq (id : LifecycleId) (state : LifecycleState ε) :
    state.acknowledgeTerminal id =
      if state.inner.phase = .terminal id then (.ok (), state.setPhase .idle)
      else (.error .stale, state) := by
  unfold acknowledgeTerminal
  cases state.inner.phase <;> simp

end LifecycleState

/-- How far a guard has got; only a held guard and a waiting `stop` are left between calls. -/
inductive GuardProgress (ε : Type)
  | held
  | requesting (waiterAttached : Bool)
  | polling
  | waiting
  | acknowledging (result : Except ε Unit)
  | closed
  deriving DecidableEq

/-- Unique active lifecycle token, or the `stop` future that consumed it. -/
structure LifecycleGuard (ε : Type) where
  /-- Generation it was activated for. -/
  id : LifecycleId
  /-- How far it has got. -/
  progress : GuardProgress ε
  deriving DecidableEq

/-- What a `stop` future finds in the terminal signal. -/
inductive TerminalRead (ε : Type)
  | pending
  | unrelated
  | matching (result : Except ε Unit)
  deriving DecidableEq

namespace LifecycleGuard

/-- The first poll of `stop` has requested the cancellation. -/
def cancelRequested (guard : LifecycleGuard ε) : Bool :=
  match guard.progress with
  | .polling | .waiting | .acknowledging _ => true
  | _ => false

/-- `stop` has returned. -/
def terminalConsumed (guard : LifecycleGuard ε) : Bool :=
  match guard.progress with
  | .closed => true
  | _ => false

/-- One poll of the terminal signal. -/
def readTerminal (guard : LifecycleGuard ε) (state : LifecycleState ε) :
    TerminalRead ε × LifecycleState ε :=
  match state.terminal.tryTake with
  | (none, _) => (.pending, state)
  | (some terminal, signal) =>
    (if terminal.id ≠ guard.id then .unrelated else .matching terminal.result,
      {state with terminal := signal})

/-- Acknowledge a matching result and return it. -/
def acknowledge (guard : LifecycleGuard ε) (result : Except ε Unit) (state : LifecycleState ε) :
    Except (LifecycleStopError ε) Unit × LifecycleState ε :=
  match state.acknowledgeTerminal guard.id with
  | (.error _, state) => (.error .stale, state)
  | (.ok (), state) => (result.mapError .backend, state)

/-- A poll of `stop` at its await. -/
def awaitTerminal (guard : LifecycleGuard ε) (state : LifecycleState ε) :
    Option (Except (LifecycleStopError ε) Unit) × LifecycleGuard ε × LifecycleState ε :=
  match guard.readTerminal state with
  | (.pending, state) => (none, {guard with progress := .waiting}, state)
  | (.unrelated, state) => (some (.error .stale), {guard with progress := .closed}, state)
  | (.matching result, state) =>
    (some (guard.acknowledge result state).1, {guard with progress := .closed},
      (guard.acknowledge result state).2)

/-- Without a result the `stop` goes on waiting. -/
theorem awaitTerminal_of_none {guard : LifecycleGuard ε} {state : LifecycleState ε}
    (h : state.terminal.value = none) :
    guard.awaitTerminal state = (none, {guard with progress := .waiting}, state) := by
  simp [awaitTerminal, readTerminal, Signal.tryTake, h]

/-- The result of its own finished generation resolves it and frees the lifecycle. -/
theorem awaitTerminal_of_matching {guard : LifecycleGuard ε} {state : LifecycleState ε}
    {result : Except ε Unit} (h : state.terminal.value = some ⟨guard.id, result⟩)
    (hp : state.inner.phase = .terminal guard.id) :
    guard.awaitTerminal state =
      (some (result.mapError .backend), {guard with progress := .closed},
        {state.setPhase .idle with terminal := state.terminal.tryTake.2}) := by
  simp [awaitTerminal, readTerminal, Signal.tryTake, h, acknowledge,
    LifecycleState.acknowledgeTerminal_eq, hp, LifecycleState.setPhase]

/-- A poll of `stop`: the first one requests the cancellation before it waits. -/
def pollStop (guard : LifecycleGuard ε) (state : LifecycleState ε) :
    Option (Except (LifecycleStopError ε) Unit) × LifecycleGuard ε × LifecycleState ε :=
  match guard.progress with
  | .held =>
    match state.requestCancel guard.id true with
    | (.error _, state) => (some (.error .stale), {guard with progress := .closed}, state)
    | (.ok (), state) => guard.awaitTerminal state
  | .waiting => guard.awaitTerminal state
  | _ => (none, guard, state)

/-- Drop of a guard or of its `stop` future. -/
def drop (guard : LifecycleGuard ε) (state : LifecycleState ε) : LifecycleState ε :=
  if guard.terminalConsumed then state
  else if guard.cancelRequested then state.detachWaiter guard.id
  else (state.requestCancel guard.id false).2

/-- A held guard requests a cancellation that nobody waits for. -/
theorem drop_of_held {guard : LifecycleGuard ε} (h : guard.progress = .held)
    (state : LifecycleState ε) : guard.drop state = (state.requestCancel guard.id false).2 := by
  simp [drop, terminalConsumed, cancelRequested, h]

/-- A waiting `stop` detaches. -/
theorem drop_of_waiting {guard : LifecycleGuard ε} (h : guard.progress = .waiting)
    (state : LifecycleState ε) : guard.drop state = state.detachWaiter guard.id := by
  simp [drop, terminalConsumed, cancelRequested, h]

end LifecycleGuard

namespace LifecycleRunner

open LifecycleState

/-- Whether a generation is the active one. -/
def isActive (id : LifecycleId) (state : LifecycleState ε) : Bool :=
  match state.inner.phase with
  | .active current => current = id
  | _ => false

/-- The active generation is the one in the active phase. -/
theorem isActive_iff {id : LifecycleId} {state : LifecycleState ε} :
    isActive id state = true ↔ state.inner.phase = .active id := by
  unfold isActive
  cases state.inner.phase <;> simp

/-- Identity that the next generation receives. -/
def freshId (state : LifecycleState ε) : LifecycleId :=
  ⟨⟨advance state.inner.nextGeneration, advance_ne_zero _⟩⟩

/-- Reserve a fresh generation before submitting a backend start request. -/
def begin (state : LifecycleState ε) : Except LifecycleStateError LifecycleId × LifecycleState ε :=
  if state.inner.phase ≠ .idle then (.error .busy, state)
  else
    (.ok (freshId state),
      {state with inner := ⟨advance state.inner.nextGeneration, .starting (freshId state)⟩})

/-- Abort a start request that the backend rejected synchronously. -/
def abortStart (id : LifecycleId) (state : LifecycleState ε) :
    Except LifecycleStateError Unit × LifecycleState ε :=
  match state.inner.phase with
  | .starting current =>
    if current = id then (.ok (), state.setPhase .idle) else (.error .stale, state)
  | _ => (.error .stale, state)

/-- Only a starting generation is aborted. -/
theorem abortStart_eq (id : LifecycleId) (state : LifecycleState ε) :
    abortStart id state =
      if state.inner.phase = .starting id then (.ok (), state.setPhase .idle)
      else (.error .stale, state) := by
  unfold abortStart
  cases state.inner.phase <;> simp

/-- Convert the matching backend start callback into the unique active guard. -/
def activate (id : LifecycleId) (state : LifecycleState ε) :
    Except LifecycleStateError (LifecycleGuard ε) × LifecycleState ε :=
  match state.inner.phase with
  | .starting current =>
    if current = id then (.ok ⟨id, .held⟩, state.setPhase (.active id)) else (.error .stale, state)
  | _ => (.error .stale, state)

/-- Only a starting generation is activated. -/
theorem activate_eq (id : LifecycleId) (state : LifecycleState ε) :
    activate id state =
      if state.inner.phase = .starting id then (.ok ⟨id, .held⟩, state.setPhase (.active id))
      else (.error .stale, state) := by
  unfold activate
  cases state.inner.phase <;> simp

/-- Adopt an unsolicited backend lifecycle and return its active guard. -/
def adopt (state : LifecycleState ε) :
    Except LifecycleStateError (LifecycleGuard ε) × LifecycleState ε :=
  match begin state with
  | (.error error, state) => (.error error, state)
  | (.ok id, state) => activate id state

/-- An idle lifecycle is adopted by a fresh active generation. -/
theorem adopt_eq (state : LifecycleState ε) :
    adopt state =
      if state.inner.phase = .idle then
        (.ok ⟨freshId state, .held⟩,
          {state with inner := ⟨advance state.inner.nextGeneration, .active (freshId state)⟩})
      else (.error .busy, state) := by
  unfold adopt begin
  by_cases h : state.inner.phase = .idle <;> simp [h, activate, setPhase]

/-- Take one cancellation request without waiting. -/
def tryTakeCancel (state : LifecycleState ε) : Option LifecycleId × LifecycleState ε :=
  (state.cancellation.tryTake.1, {state with cancellation := state.cancellation.tryTake.2})

/-- Locked section of `finish`; its value says whether a waiter is attached. -/
def lockFinish (id : LifecycleId) (state : LifecycleState ε) :
    Except LifecycleStateError Bool × LifecycleState ε :=
  match state.inner.phase with
  | .cancelling current waiterAttached =>
    if current = id then
      (.ok waiterAttached, state.setPhase (if waiterAttached then .terminal id else .idle))
    else (.error .stale, state)
  | _ => (.error .stale, state)

/-- Locked section of `terminate`; its value says whether a waiter is attached. -/
def lockTerminate (id : LifecycleId) (state : LifecycleState ε) :
    Except LifecycleStateError Bool × LifecycleState ε :=
  match state.inner.phase with
  | .starting current | .active current =>
    if current = id then (.ok false, state.setPhase .idle) else (.error .stale, state)
  | .cancelling current waiterAttached =>
    if current = id then
      (.ok waiterAttached, state.setPhase (if waiterAttached then .terminal id else .idle))
    else (.error .stale, state)
  | _ => (.error .stale, state)

/-- What the locked section of `finish`, or of `terminate` when it is unsolicited, may do. -/
inductive Ending (unsolicited : Bool) (id : LifecycleId) (state : LifecycleState ε) :
    Except LifecycleStateError Bool × LifecycleState ε → Prop
  | attached (h : state.inner.phase = .cancelling id true) :
    Ending unsolicited id state (.ok true, state.setPhase (.terminal id))
  | detached (h : state.inner.phase = .cancelling id false) :
    Ending unsolicited id state (.ok false, state.setPhase .idle)
  | early (hu : unsolicited = true)
      (h : state.inner.phase = .starting id ∨ state.inner.phase = .active id) :
    Ending unsolicited id state (.ok false, state.setPhase .idle)
  | refused : Ending unsolicited id state (.error .stale, state)

/-- `finish` ends a cancelling generation. -/
theorem lockFinish_ending (id : LifecycleId) (state : LifecycleState ε) :
    Ending false id state (lockFinish id state) := by
  unfold lockFinish
  split
  next current attached h =>
    by_cases hc : current = id
    · cases hc
      cases attached with
      | true => simpa using Ending.attached h
      | false => simpa using Ending.detached h
    · simpa [hc] using Ending.refused
  next => exact .refused

/-- `terminate` also ends one that was not asked to. -/
theorem lockTerminate_ending (id : LifecycleId) (state : LifecycleState ε) :
    Ending true id state (lockTerminate id state) := by
  unfold lockTerminate
  split
  next current h =>
    by_cases hc : current = id
    · cases hc
      simpa using Ending.early rfl (Or.inl h)
    · simpa [hc] using Ending.refused
  next current h =>
    by_cases hc : current = id
    · cases hc
      simpa using Ending.early rfl (Or.inr h)
    · simpa [hc] using Ending.refused
  next current attached h =>
    by_cases hc : current = id
    · cases hc
      cases attached with
      | true => simpa using Ending.attached h
      | false => simpa using Ending.detached h
    · simpa [hc] using Ending.refused
  next => exact .refused

/-- Signal a terminal result, after the lock is released. -/
def publish (terminal : LifecycleTerminal ε) (state : LifecycleState ε) : LifecycleState ε :=
  {state with terminal := state.terminal.signal terminal}

/-- What `finish` and `terminate` do after their locked section. -/
def publishTerminal (id : LifecycleId) (result : Except ε Unit) :
    Except LifecycleStateError Bool × LifecycleState ε →
      Except LifecycleStateError Unit × LifecycleState ε
  | (.error error, state) => (.error error, state)
  | (.ok waiterAttached, state) =>
    (.ok (), if waiterAttached then publish ⟨id, result⟩ state else state)

/-- Publish the terminal result of the matching backend stop operation. -/
def finish (id : LifecycleId) (result : Except ε Unit) (state : LifecycleState ε) :
    Except LifecycleStateError Unit × LifecycleState ε :=
  publishTerminal id result (lockFinish id state)

/-- Terminate a lifecycle after an unsolicited backend stop. -/
def terminate (id : LifecycleId) (result : Except ε Unit) (state : LifecycleState ε) :
    Except LifecycleStateError Unit × LifecycleState ε :=
  publishTerminal id result (lockTerminate id state)

end LifecycleRunner

end HisiRfCore.LifecycleControl
