import HisiRfCore.KeyedHistory
import HisiRfCore.LifecycleControl

/-!
# The life of one generation

A generation goes once through a fixed chain of stages, whatever happens to the others:
it is started, activated, ended by its guard, by its runner or by both, and then past.
The stages are an automaton over the calls that concern the generation. What its calls
have answered is read off the stage.
-/

namespace HisiRfCore.LifecycleStages

open LifecycleControl

variable {ε : Type}

/-- A whole call of the runner, or of the application on the guard in a slot. -/
inductive LifecycleCall (ε : Type)
  | begin
  | adopt
  | abortStart (id : LifecycleId)
  | activate (id : LifecycleId)
  | tryTakeCancel
  | finish (id : LifecycleId) (result : Except ε Unit)
  | terminate (id : LifecycleId) (result : Except ε Unit)
  | pollStop (slot : ℕ)
  | dropGuard (slot : ℕ)
  deriving DecidableEq

/-- What the call returns; the calls on a guard name its generation. -/
inductive LifecycleAnswer (ε : Type)
  | begun (answer : Except LifecycleStateError LifecycleId)
  | activated (answer : Except LifecycleStateError LifecycleId)
  | returned (answer : Except LifecycleStateError Unit)
  | taken (request : Option LifecycleId)
  | polled (id : LifecycleId) (answer : Option (Except (LifecycleStopError ε) Unit))
  | dropped (id : LifecycleId)
  | nothing
  deriving DecidableEq

/-- Calls of a run with what each returned. -/
abbrev LifecycleHistory (ε : Type) := List (LifecycleCall ε × LifecycleAnswer ε)

/-- Generation that a call has moved; a refused call moves none. -/
def concerns : LifecycleCall ε × LifecycleAnswer ε → Option LifecycleId
  | (.begin, .begun (.ok id)) => some id
  | (_, .activated (.ok id)) => some id
  | (.abortStart id, .returned (.ok ())) => some id
  | (.finish id _, .returned (.ok ())) => some id
  | (.terminate id _, .returned (.ok ())) => some id
  | (_, .polled id _) => some id
  | (_, .dropped id) => some id
  | _ => none

/-- The calls that concern one generation, in order. -/
def story (history : LifecycleHistory ε) (id : LifecycleId) : LifecycleHistory ε :=
  history.filter fun entry => concerns entry = some id

/-- A call lengthens the story of the generation it concerns. -/
theorem story_concat_of_eq {history : LifecycleHistory ε} {id : LifecycleId}
    {entry : LifecycleCall ε × LifecycleAnswer ε} (h : concerns entry = some id) :
    story (history ++ [entry]) id = story history id ++ [entry] :=
  KeyedHistory.story_concat_of_eq h

/-- It leaves every other story alone. -/
theorem story_concat_of_ne {history : LifecycleHistory ε} {id : LifecycleId}
    {entry : LifecycleCall ε × LifecycleAnswer ε} (h : concerns entry ≠ some id) :
    story (history ++ [entry]) id = story history id :=
  KeyedHistory.story_concat_of_ne h

/-- Generations begun or adopted, in order. -/
def generations (history : LifecycleHistory ε) : List LifecycleId :=
  history.filterMap fun
    | (.begin, .begun (.ok id)) | (.adopt, .activated (.ok id)) => some id
    | _ => none

theorem generations_concat (history : LifecycleHistory ε)
    (entry : LifecycleCall ε × LifecycleAnswer ε) :
    generations (history ++ [entry]) = generations history ++ generations [entry] :=
  List.filterMap_append

/-- The call gave a generation its guard. -/
def activates : LifecycleCall ε × LifecycleAnswer ε → Bool
  | (_, .activated _) => true
  | _ => false

/-- The call polled a `stop`. -/
def polls : LifecycleCall ε × LifecycleAnswer ε → Bool
  | (_, .polled _ _) => true
  | _ => false

/-- The call dropped a guard, or the `stop` future that consumed it. -/
def drops : LifecycleCall ε × LifecycleAnswer ε → Bool
  | (_, .dropped _) => true
  | _ => false

/-- The call terminated a generation. -/
def terminates : LifecycleCall ε × LifecycleAnswer ε → Bool
  | (.terminate _ _, _) => true
  | _ => false

/-- Result with which a `finish` or `terminate` ended a generation. -/
def endsWith : LifecycleCall ε × LifecycleAnswer ε → Option (Except ε Unit)
  | (.finish _ result, _) | (.terminate _ result, _) => some result
  | _ => none

/-- Result with which a `stop` resolved, other than stale. -/
def delivers : LifecycleCall ε × LifecycleAnswer ε → Option (Except ε Unit)
  | (_, .polled _ (some (.ok ()))) => some (.ok ())
  | (_, .polled _ (some (.error (.backend error)))) => some (.error error)
  | _ => none

section Story

variable (calls : LifecycleHistory ε) (entry : LifecycleCall ε × LifecycleAnswer ε)

/-- Whether the generation of a story received its guard. -/
def activated : Bool := calls.any activates

/-- Whether its `stop` was polled. -/
def polled : Bool := calls.any polls

/-- Whether its guard or `stop` future was dropped. -/
def dropped : Bool := calls.any drops

/-- Whether the runner terminated it. -/
def terminated : Bool := calls.any terminates

/-- Guard dropped, `stop` polled or generation terminated. -/
def released : Bool := dropped calls || polled calls || terminated calls

/-- Results with which the runner ended it. -/
def ended : List (Except ε Unit) := calls.filterMap endsWith

/-- Results with which its `stop` resolved. -/
def delivered : List (Except ε Unit) := calls.filterMap delivers

@[simp] theorem activated_concat :
    activated (calls ++ [entry]) = (activated calls || activates entry) := by
  simp only [activated, List.any_append, List.any_cons, List.any_nil, Bool.or_false]

@[simp] theorem polled_concat : polled (calls ++ [entry]) = (polled calls || polls entry) := by
  simp only [polled, List.any_append, List.any_cons, List.any_nil, Bool.or_false]

@[simp] theorem dropped_concat : dropped (calls ++ [entry]) = (dropped calls || drops entry) := by
  simp only [dropped, List.any_append, List.any_cons, List.any_nil, Bool.or_false]

@[simp] theorem terminated_concat :
    terminated (calls ++ [entry]) = (terminated calls || terminates entry) := by
  simp only [terminated, List.any_append, List.any_cons, List.any_nil, Bool.or_false]

@[simp] theorem ended_concat : ended (calls ++ [entry]) = ended calls ++ (endsWith entry).toList := by
  cases h : endsWith entry <;> simp [ended, List.filterMap_append, h]

@[simp] theorem delivered_concat :
    delivered (calls ++ [entry]) = delivered calls ++ (delivers entry).toList := by
  cases h : delivers entry <;> simp [delivered, List.filterMap_append, h]

end Story

/-- How far one generation has got. -/
inductive Stage (ε : Type)
  | unborn
  | starting
  | active
  /-- Terminated while its guard is held. -/
  | invalidated
  /-- A `stop` waits for the runner. -/
  | stopping
  /-- Nobody waits for the runner. -/
  | detached
  /-- The result waits for the `stop`. -/
  | finished (result : Except ε Unit)
  | past

namespace Stage

variable {id : LifecycleId} {stage next : Stage ε} {calls : LifecycleHistory ε}
  {entry : LifecycleCall ε × LifecycleAnswer ε}

/-- The calls that move a generation, and where they move it. -/
inductive Moves (id : LifecycleId) :
    Stage ε → LifecycleCall ε × LifecycleAnswer ε → Stage ε → Prop
  | begin : Moves id .unborn (.begin, .begun (.ok id)) .starting
  | adopt : Moves id .unborn (.adopt, .activated (.ok id)) .active
  | abort : Moves id .starting (.abortStart id, .returned (.ok ())) .past
  | activate : Moves id .starting (.activate id, .activated (.ok id)) .active
  | finish (result : Except ε Unit) :
    Moves id .stopping (.finish id result, .returned (.ok ())) (.finished result)
  | finishDetached (result : Except ε Unit) :
    Moves id .detached (.finish id result, .returned (.ok ())) .past
  | terminateStarting (result : Except ε Unit) :
    Moves id .starting (.terminate id result, .returned (.ok ())) .past
  | terminateActive (result : Except ε Unit) :
    Moves id .active (.terminate id result, .returned (.ok ())) .invalidated
  | terminate (result : Except ε Unit) :
    Moves id .stopping (.terminate id result, .returned (.ok ())) (.finished result)
  | terminateDetached (result : Except ε Unit) :
    Moves id .detached (.terminate id result, .returned (.ok ())) .past
  | stop (slot : ℕ) : Moves id .active (.pollStop slot, .polled id none) .stopping
  | stale (slot : ℕ) :
    Moves id .invalidated (.pollStop slot, .polled id (some (.error .stale))) .past
  | wait (slot : ℕ) : Moves id .stopping (.pollStop slot, .polled id none) .stopping
  | deliver (slot : ℕ) (result : Except ε Unit) :
    Moves id (.finished result)
      (.pollStop slot, .polled id (some (result.mapError .backend))) .past
  | drop (slot : ℕ) : Moves id .active (.dropGuard slot, .dropped id) .detached
  | dropInvalidated (slot : ℕ) : Moves id .invalidated (.dropGuard slot, .dropped id) .past
  | detach (slot : ℕ) : Moves id .stopping (.dropGuard slot, .dropped id) .detached
  | discard (slot : ℕ) (result : Except ε Unit) :
    Moves id (.finished result) (.dropGuard slot, .dropped id) .past

/-- A call that moves a generation concerns it. -/
theorem Moves.concerns (h : Moves id stage entry next) : concerns entry = some id := by
  cases h <;> rfl

/-- What the calls so far have said of a generation in each stage. -/
def Told (calls : LifecycleHistory ε) : Stage ε → Prop
  | .unborn | .starting =>
    activated calls = false ∧ released calls = false ∧ ended calls = [] ∧ delivered calls = []
  | .active =>
    activated calls = true ∧ released calls = false ∧ ended calls = [] ∧ delivered calls = []
  | .invalidated =>
    terminated calls = true ∧ polled calls = false ∧ (∃ result, ended calls = [result]) ∧
      delivered calls = []
  | .stopping => polled calls = true ∧ ended calls = [] ∧ delivered calls = []
  | .detached => released calls = true ∧ ended calls = [] ∧ delivered calls = []
  | .finished result => polled calls = true ∧ ended calls = [result] ∧ delivered calls = []
  | .past =>
    (activated calls = true → released calls = true) ∧ (ended calls).length ≤ 1 ∧
      (delivered calls).Sublist (ended calls)

/-- Each move tells what the next stage says. -/
theorem Told.concat (h : Told calls stage) (hm : Moves id stage entry next) :
    Told (calls ++ [entry]) next := by
  cases hm with
  | deliver slot result =>
    obtain ⟨hp, he, hd⟩ := h
    cases result <;> simp [Told, released, drops, polls, terminates, endsWith, delivers,
      Except.mapError, hp, he, hd]
  | stale | dropInvalidated =>
    obtain ⟨ht, hp, ⟨result, he⟩, hd⟩ := h
    simp [Told, released, activates, drops, polls, terminates, endsWith, delivers, ht, he, hd]
  | _ =>
    simp [Told, released, activates, drops, polls, terminates, endsWith, delivers] at h ⊢
    simp [h]

/-- A generation is active from its activation to its release. -/
theorem Told.active_iff (h : Told calls stage) :
    stage = .active ↔ activated calls = true ∧ released calls = false := by
  cases stage with
  | unborn | starting | active => simp [h.1, h.2.1]
  | past =>
    constructor
    · exact fun hs => by cases hs
    · rintro ⟨ha, hr⟩
      rw [h.1 ha] at hr
      cases hr
  | detached => simp [h.1]
  | invalidated | stopping | finished => simp [released, h.1]

/-- A generation is ended at most once, and only what ended it is delivered. -/
theorem Told.delivered_ended (h : Told calls stage) :
    (ended calls).length ≤ 1 ∧ (delivered calls).Sublist (ended calls) := by
  cases stage with
  | past => exact h.2
  | invalidated =>
    obtain ⟨-, -, ⟨result, he⟩, hd⟩ := h
    simp [he, hd]
  | unborn | starting | active =>
    obtain ⟨-, -, he, hd⟩ := h
    simp [he, hd]
  | stopping | detached | finished =>
    obtain ⟨-, he, hd⟩ := h
    simp [he, hd]

/-- A poll of `stop` answers stale for a generation terminated before the first poll,
the result for one that has ended since, and otherwise nothing yet. -/
theorem Told.poll_answer (h : Told calls stage) {slot : ℕ}
    {answer : Option (Except (LifecycleStopError ε) Unit)}
    (hm : Moves id stage (.pollStop slot, .polled id answer) next) :
    (answer = some (.error .stale) ↔ terminated calls = true ∧ polled calls = false) ∧
    ∀ result : Except ε Unit, answer = some (result.mapError .backend) ↔
      ended calls = [result] ∧ polled calls = true := by
  cases hm with
  | stop =>
    obtain ⟨-, hr, he, -⟩ := h
    simp only [released, Bool.or_eq_false_iff] at hr
    simp [hr, he]
  | stale =>
    obtain ⟨ht, hp, -, -⟩ := h
    refine ⟨by simp [ht, hp], fun result => ?_⟩
    cases result <;> simp [Except.mapError, hp]
  | wait =>
    obtain ⟨hp, he, -⟩ := h
    simp [hp, he]
  | deliver slot result =>
    obtain ⟨hp, he, -⟩ := h
    refine ⟨by cases result <;> simp [Except.mapError, hp], fun other => ?_⟩
    cases result <;> cases other <;> simp [Except.mapError, hp, he]

end Stage

/-- Every call so far has moved the generation it concerns along its life. -/
def Lawful (history : LifecycleHistory ε) : Prop :=
  ∀ before entry after, history = before ++ entry :: after →
    ∀ id, concerns entry = some id → ∃ stage next : Stage ε,
      stage.Told (story before id) ∧ Stage.Moves id stage entry next

/-- One more such call. -/
theorem Lawful.concat {history : LifecycleHistory ε}
    {entry : LifecycleCall ε × LifecycleAnswer ε} (h : Lawful history)
    (he : ∀ id, concerns entry = some id → ∃ stage next : Stage ε,
      stage.Told (story history id) ∧ Stage.Moves id stage entry next) :
    Lawful (history ++ [entry]) := by
  intro before other after hsplit
  rcases List.eq_nil_or_concat after with rfl | ⟨rest, last, rfl⟩
  · obtain ⟨rfl, hlast⟩ := List.append_inj' hsplit rfl
    cases hlast
    exact he
  · rw [List.concat_eq_append, ← List.cons_append, ← List.append_assoc] at hsplit
    obtain ⟨rfl, -⟩ := List.append_inj' hsplit rfl
    exact h before other rest rfl

end HisiRfCore.LifecycleStages
