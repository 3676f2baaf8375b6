import HisiRfCore.InputOutputMachine
import HisiRfCore.NonZeroCounter
import HisiRfCore.BoundedChannel

/-!
# Internal command transport

A controller and its runner share a one-slot command channel and a completion
signal. One command is outstanding at a time, and its identity has one place: the
channel, the receiver's active slot or the signal. Sender and receiver are
interleaved; publishing a completion and releasing the active slot are two steps.
-/

namespace HisiRfCore.CommandTransport

open NonZeroCounter BoundedChannel InputOutputMachine

variable {C R : Type}

/-- Generation-tagged identity for one accepted control command. -/
structure ControlId where
  /-- The stable non-zero representation. -/
  raw : NonZeroU32
  deriving DecidableEq

/-- One command whose ownership moved from a controller to its runner. -/
structure ControlCommand (C : Type) where
  /-- Identity assigned by the unique controller. -/
  id : ControlId
  /-- The owned protocol command. -/
  command : C
  deriving DecidableEq

/-- One terminal result published by the unique runner. -/
structure ControlCompletion (R : Type) where
  /-- Identity of the completed command. -/
  id : ControlId
  /-- The owned protocol result. -/
  result : R
  deriving DecidableEq

/-- Rejected submission that preserves command ownership. -/
structure ControlSubmitError (C : Type) where
  /-- The command that was not accepted. -/
  command : C
  deriving DecidableEq

/-- A completion did not belong to the controller's outstanding command. -/
structure StaleControlCompletion (R : Type) where
  /-- Identity still owned by the controller. -/
  expected : Option ControlId
  /-- Unexpected identity supplied by the transport. -/
  received : ControlId
  /-- The unmatched result. -/
  result : R
  deriving DecidableEq

/-- Runner-side completion failure. -/
inductive ControlCompleteErrorKind
  | noActiveCommand | staleCommand
  deriving DecidableEq

/-- Rejected runner completion. -/
structure ControlCompleteError (R : Type) where
  /-- Stable failure class. -/
  kind : ControlCompleteErrorKind
  /-- The result that was not published. -/
  result : R
  deriving DecidableEq

/-- State shared by one protocol controller and runner. -/
structure ControlState (C R : Type) where
  /-- Commands from the controller. -/
  commands : Channel (ControlCommand C) 1
  /-- Latest completion of the runner. -/
  completion : Signal (ControlCompletion R)
  deriving DecidableEq

/-- Unique protocol-side command capability. -/
structure ControlSender where
  /-- Last allocated identity. -/
  nextId : UInt32
  /-- Identity currently owned by the controller. -/
  outstanding : Option ControlId
  deriving DecidableEq

/-- Unique runner-side command capability. -/
structure ControlReceiver where
  /-- Identity currently owned by the runner. -/
  active : Option ControlId
  deriving DecidableEq

namespace ControlSender

/-- Allocate the next non-zero identity. -/
def allocateId (sender : ControlSender) : ControlId × ControlSender :=
  (⟨⟨advance sender.nextId, advance_ne_zero _⟩⟩, {sender with nextId := advance sender.nextId})

/-- Submit one command without blocking or replacing live work. -/
def trySubmit (command : C) (sender : ControlSender) (state : ControlState C R) :
    Except (ControlSubmitError C) ControlId × ControlSender × ControlState C R :=
  if sender.outstanding.isSome then (.error ⟨command⟩, sender, state)
  else
    let (id, sender) := sender.allocateId
    match state.commands.trySend ⟨id, command⟩ with
    | (.ok (), commands) =>
      (.ok id, {sender with outstanding := some id}, {state with commands := commands})
    | (.error rejected, commands) =>
      (.error ⟨rejected.command⟩, sender, {state with commands := commands})

/-- Take the matching terminal completion, if the runner published one. -/
def tryTakeCompletion (sender : ControlSender) (state : ControlState C R) :
    Except (StaleControlCompletion R) (Option (ControlCompletion R)) × ControlSender ×
      ControlState C R :=
  match state.completion.tryTake with
  | (none, completion) => (.ok none, sender, {state with completion := completion})
  | (some taken, completion) =>
    match sender.outstanding with
    | none =>
      (.error ⟨none, taken.id, taken.result⟩, sender, {state with completion := completion})
    | some expected =>
      if taken.id ≠ expected then
        (.error ⟨some expected, taken.id, taken.result⟩, sender,
          {state with completion := completion})
      else
        (.ok (some taken), {sender with outstanding := none}, {state with completion := completion})

end ControlSender

namespace ControlReceiver

/-- Take the oldest command when the runner does not already own one. -/
def tryTakeCommand (receiver : ControlReceiver) (state : ControlState C R) :
    Option (ControlCommand C) × ControlReceiver × ControlState C R :=
  if receiver.active.isSome then (none, receiver, state)
  else
    match state.commands.tryReceive with
    | (none, commands) => (none, receiver, {state with commands := commands})
    | (some command, commands) =>
      (some command, {receiver with active := some command.id}, {state with commands := commands})

/-- The checks and the signal of `complete`. -/
def publish (id : ControlId) (result : R) (receiver : ControlReceiver) (state : ControlState C R) :
    Except (ControlCompleteError R) Unit × ControlState C R :=
  match receiver.active with
  | none => (.error ⟨.noActiveCommand, result⟩, state)
  | some active =>
    if active ≠ id then (.error ⟨.staleCommand, result⟩, state)
    else (.ok (), {state with completion := state.completion.signal ⟨id, result⟩})

/-- The tail of a successful `complete`. -/
def release (receiver : ControlReceiver) : ControlReceiver := {receiver with active := none}

/-- Publish exactly one terminal result for the runner-owned command. -/
def complete (id : ControlId) (result : R) (receiver : ControlReceiver) (state : ControlState C R) :
    Except (ControlCompleteError R) Unit × ControlReceiver × ControlState C R :=
  match receiver.publish id result state with
  | (.ok (), state) => (.ok (), receiver.release, state)
  | (.error error, state) => (.error error, receiver, state)

end ControlReceiver

/-- Both capabilities, the state they share, and the place of the receiver in `complete`. -/
structure Transport (C R : Type) where
  /-- The shared state. -/
  state : ControlState C R
  /-- The sender. -/
  sender : ControlSender
  /-- The receiver. -/
  receiver : ControlReceiver
  /-- The completion is published, the active slot not yet released. -/
  completing : Bool
  deriving DecidableEq

/-- The capabilities right after the claim. -/
def Transport.new : Transport C R := ⟨⟨.new, .new⟩, ⟨0, none⟩, ⟨none⟩, false⟩

/-- An atomic step of one of the two owners. -/
inductive TransportInput (C R : Type)
  | submit (command : C)
  | takeCompletion
  | takeCommand
  | complete (id : ControlId) (result : R)
  | release

/-- What the step returns to its owner. -/
inductive TransportOutput (C R : Type)
  | submitted (answer : Except (ControlSubmitError C) ControlId)
  | completion (answer : Except (StaleControlCompletion R) (Option (ControlCompletion R)))
  | command (answer : Option (ControlCommand C))
  | completed (answer : Except (ControlCompleteError R) Unit)
  | nothing

/-- One step; the receiver takes no other one inside `complete`. -/
def Transport.step (s : Transport C R) : TransportInput C R → Transport C R × TransportOutput C R
  | .submit command =>
    let (answer, sender, state) := s.sender.trySubmit command s.state
    ({s with state := state, sender := sender}, .submitted answer)
  | .takeCompletion =>
    let (answer, sender, state) := s.sender.tryTakeCompletion s.state
    ({s with state := state, sender := sender}, .completion answer)
  | .takeCommand =>
    if s.completing then (s, .nothing)
    else
      let (answer, receiver, state) := s.receiver.tryTakeCommand s.state
      ({s with state := state, receiver := receiver}, .command answer)
  | .complete id result =>
    if s.completing then (s, .nothing)
    else
      match s.receiver.publish id result s.state with
      | (.ok (), state) => ({s with state := state, completing := true}, .completed (.ok ()))
      | (.error error, state) => ({s with state := state}, .completed (.error error))
  | .release =>
    if s.completing then
      ({s with receiver := s.receiver.release, completing := false}, .nothing)
    else (s, .nothing)

/-- Sender and receiver, interleaved. -/
def transportMachine : Machine (Transport C R) (TransportInput C R) (TransportOutput C R) :=
  ⟨Transport.step⟩

/-- A whole call of `complete` is its steps with nothing in between. -/
theorem complete_steps (s : Transport C R) (id : ControlId) (result : R)
    (h : s.completing = false) :
    transportMachine.run s [.complete id result, .release] =
      {s with
        receiver := (s.receiver.complete id result s.state).2.1
        state := (s.receiver.complete id result s.state).2.2} := by
  rcases s with ⟨state, sender, receiver, completing⟩
  cases h
  simp only [run_cons, run_nil, transportMachine, Machine.next, Transport.step,
    ControlReceiver.complete]
  rcases hp : receiver.publish id result state with ⟨_ | _, state'⟩ <;>
    simp only [Bool.false_eq_true, if_false, if_true]

/-- Steps of a run with what each returned. -/
abbrev TransportHistory (C R : Type) := List (TransportInput C R × TransportOutput C R)

/-- Accepted commands, in order. -/
def accepted (history : TransportHistory C R) : List (ControlCommand C) :=
  history.filterMap fun
    | (.submit command, .submitted (.ok id)) => some ⟨id, command⟩
    | _ => none

/-- Commands taken by the receiver, in order. -/
def taken (history : TransportHistory C R) : List (ControlCommand C) :=
  history.filterMap fun
    | (.takeCommand, .command answer) => answer
    | _ => none

/-- Completions of the successful calls of `complete`, in order. -/
def answered (history : TransportHistory C R) : List (ControlCompletion R) :=
  history.filterMap fun
    | (.complete id result, .completed (.ok ())) => some ⟨id, result⟩
    | _ => none

/-- Completions returned to the sender, in order. -/
def returned (history : TransportHistory C R) : List (ControlCompletion R) :=
  history.filterMap fun
    | (.takeCompletion, .completion (.ok answer)) => answer
    | _ => none

namespace Transport

/-- Command that the receiver owns; inside `complete` it is already answered. -/
def held (s : Transport C R) : Option ControlId :=
  if s.completing then none else s.receiver.active

/-- Identities in the channel, in the active slot and in the signal. -/
def located (s : Transport C R) : List ControlId :=
  s.state.commands.queued.map ControlCommand.id ++ s.held.toList ++
    (s.state.completion.value.map ControlCompletion.id).toList

end Transport

/-- The outstanding command has one place, and the histories of the two owners agree. -/
structure Owned (history : TransportHistory C R) (s : Transport C R) : Prop where
  /-- The outstanding identity has exactly one place, any other none. -/
  located : s.located = s.sender.outstanding.toList
  /-- Accepted commands are taken in order, at most once each. -/
  accepted : accepted history = taken history ++ s.state.commands.queued
  /-- Completions are returned in order, exactly once each. -/
  answered : answered history = returned history ++ s.state.completion.value.toList
  /-- Each completion is that of the command taken in its turn. -/
  owners : (taken history).map ControlCommand.id =
    (CommandTransport.answered history).map ControlCompletion.id ++ s.held.toList
  /-- No completion was stale. -/
  matching : ∀ i error, (i, .completion (.error error)) ∉ history

section Places

variable {s : Transport C R} {id : ControlId}

/-- With nothing outstanding all three places are empty. -/
theorem places_of_none (h : s.located = s.sender.outstanding.toList)
    (hn : s.sender.outstanding = none) :
    s.state.commands.queued = [] ∧ s.held = none ∧ s.state.completion.value = none := by
  rw [hn, Option.toList_none, Transport.located, List.append_eq_nil_iff, List.append_eq_nil_iff,
    List.map_eq_nil_iff, Option.toList_eq_nil_iff, Option.toList_eq_nil_iff,
    Option.map_eq_none_iff] at h
  exact ⟨h.1.1, h.1.2, h.2⟩

/-- A queued command is the outstanding one, and the other two places are empty. -/
theorem places_of_queued {command : ControlCommand C} {rest : List (ControlCommand C)}
    (h : s.located = s.sender.outstanding.toList)
    (hq : s.state.commands.queued = command :: rest) :
    s.sender.outstanding = some command.id ∧ rest = [] ∧ s.held = none ∧
      s.state.completion.value = none := by
  rw [Transport.located, hq] at h
  cases ho : s.sender.outstanding with
  | none => simp [ho] at h
  | some outstanding =>
    rw [ho, Option.toList_some, List.map_cons, List.cons_append, List.cons_append,
      List.cons.injEq, List.append_eq_nil_iff, List.append_eq_nil_iff, List.map_eq_nil_iff,
      Option.toList_eq_nil_iff, Option.toList_eq_nil_iff, Option.map_eq_none_iff] at h
    exact ⟨congrArg some h.1.symm, h.2.1.1, h.2.1.2, h.2.2⟩

/-- A command that the receiver owns is the outstanding one. -/
theorem places_of_held (h : s.located = s.sender.outstanding.toList) (hh : s.held = some id) :
    s.sender.outstanding = some id ∧ s.state.commands.queued = [] ∧
      s.state.completion.value = none := by
  cases hq : s.state.commands.queued with
  | cons command rest => cases (places_of_queued h hq).2.2.1.symm.trans hh
  | nil =>
    rw [Transport.located, hq, hh] at h
    cases ho : s.sender.outstanding with
    | none => simp [ho] at h
    | some outstanding =>
      rw [ho, List.map_nil, List.nil_append, Option.toList_some, Option.toList_some,
        List.singleton_append, List.cons.injEq, Option.toList_eq_nil_iff,
        Option.map_eq_none_iff] at h
      exact ⟨congrArg some h.1.symm, rfl, h.2⟩

/-- A published completion is that of the outstanding command. -/
theorem places_of_published {completion : ControlCompletion R}
    (h : s.located = s.sender.outstanding.toList)
    (hv : s.state.completion.value = some completion) :
    s.sender.outstanding = some completion.id ∧ s.state.commands.queued = [] ∧
      s.held = none := by
  cases hq : s.state.commands.queued with
  | cons command rest => cases (places_of_queued h hq).2.2.2.symm.trans hv
  | nil =>
    cases hh : s.held with
    | some id => cases (places_of_held h hh).2.2.symm.trans hv
    | none =>
      rw [Transport.located, hq, hh, hv] at h
      cases ho : s.sender.outstanding with
      | none => simp [ho] at h
      | some outstanding =>
        simp only [ho, List.map_nil, Option.toList_none, List.append_nil, List.nil_append,
          Option.map_some, Option.toList_some, List.cons.injEq, and_true] at h
        exact ⟨congrArg some h.symm, rfl, rfl⟩

end Places

section Steps

variable {s : Transport C R} {history : TransportHistory C R}

/-- With a command outstanding a submission hands its command back and changes nothing. -/
theorem submit_busy {id : ControlId} (h : s.sender.outstanding = some id) (command : C) :
    s.step (.submit command) = (s, .submitted (.error ⟨command⟩)) := by
  simp only [Transport.step, ControlSender.trySubmit, h, Option.isSome_some, if_true]

/-- With nothing outstanding a submission is accepted under a new identity. -/
theorem submit_free (h : s.sender.outstanding = none) (hq : s.state.commands.queued = [])
    (command : C) :
    ∃ next id, s.step (.submit command) = (next, .submitted (.ok id)) ∧
      next.sender.outstanding = some id ∧ next.state.commands.queued = [⟨id, command⟩] ∧
      next.state.completion = s.state.completion ∧ next.held = s.held := by
  have hlt : s.state.commands.queued.length < 1 := by
    rw [hq]
    exact Nat.one_pos
  obtain ⟨commands, hx, -, -, hqueued⟩ :=
    trySend_accepted (⟨s.sender.allocateId.1, command⟩ : ControlCommand C) hlt
  rw [hq, List.nil_append] at hqueued
  refine ⟨{s with
    state := {s.state with commands := commands}
    sender := {s.sender.allocateId.2 with outstanding := some s.sender.allocateId.1}},
    s.sender.allocateId.1, ?_, rfl, hqueued, rfl, rfl⟩
  simp only [Transport.step, ControlSender.trySubmit, h, Option.isSome_none, Bool.false_eq_true,
    if_false, hx]

/-- Taking a completion returns what the signal holds, and ends the outstanding command. -/
theorem takeCompletion_located (h : s.located = s.sender.outstanding.toList) :
    s.step .takeCompletion =
      ({s with
        state := {s.state with completion := s.state.completion.tryTake.2}
        sender := {s.sender with
          outstanding := if s.state.completion.value.isSome then none else s.sender.outstanding}},
        .completion (.ok s.state.completion.value)) := by
  cases hv : s.state.completion.value with
  | none => simp [Transport.step, ControlSender.tryTakeCompletion, Signal.tryTake, hv]
  | some completion =>
    have ho := (places_of_published h hv).1
    simp [Transport.step, ControlSender.tryTakeCompletion, Signal.tryTake, hv, ho]

/-- A receiver that is busy, or finds no command, leaves everything alone. -/
theorem takeCommand_idle
    (h : s.completing = true ∨ s.receiver.active ≠ none ∨ s.state.commands.queued = []) :
    ∃ answer, s.step .takeCommand = (s, answer) ∧ (answer = .nothing ∨ answer = .command none) := by
  simp only [Transport.step]
  split
  · exact ⟨_, rfl, Or.inl rfl⟩
  · next hc =>
    unfold ControlReceiver.tryTakeCommand
    split
    · exact ⟨_, rfl, Or.inr rfl⟩
    · next ha =>
      rcases h with h | h | h
      · exact (hc h).elim
      · exact (ha (Option.isSome_iff_ne_none.mpr h)).elim
      · rw [tryReceive_of_nil h]
        exact ⟨_, rfl, Or.inr rfl⟩

/-- A free receiver takes the oldest command and owns it. -/
theorem takeCommand_taken {command : ControlCommand C} {rest : List (ControlCommand C)}
    (hc : s.completing = false) (ha : s.receiver.active = none)
    (hq : s.state.commands.queued = command :: rest) :
    ∃ next, s.step .takeCommand = (next, .command (some command)) ∧ next.sender = s.sender ∧
      next.state.completion = s.state.completion ∧ next.state.commands.queued = rest ∧
      next.held = some command.id := by
  obtain ⟨commands, hx, -, -, hqueued⟩ := tryReceive_taken hq
  refine ⟨{s with
    state := {s.state with commands := commands}, receiver := ⟨some command.id⟩}, ?_, rfl, rfl,
    hqueued, ?_⟩
  · simp only [Transport.step, hc, ControlReceiver.tryTakeCommand, ha, Option.isSome_none,
      Bool.false_eq_true, if_false, hx]
  · simp only [Transport.held, hc, Bool.false_eq_true, if_false]

/-- A completion without its command is rejected and changes nothing. -/
theorem complete_rejected {id : ControlId} (h : s.held ≠ some id) (result : R) :
    ∃ answer, s.step (.complete id result) = (s, answer) ∧
      (answer = .nothing ∨ ∃ error, answer = .completed (.error error)) := by
  simp only [Transport.step]
  split
  · exact ⟨_, rfl, Or.inl rfl⟩
  · next hc =>
    unfold ControlReceiver.publish
    cases ha : s.receiver.active with
    | none => exact ⟨_, rfl, Or.inr ⟨_, rfl⟩⟩
    | some active =>
      have hne : active ≠ id := by
        intro heq
        rw [Transport.held, if_neg hc, ha, heq] at h
        exact h rfl
      dsimp only
      rw [if_pos hne]
      exact ⟨_, rfl, Or.inr ⟨_, rfl⟩⟩

/-- The completion of the owned command is signalled. -/
theorem complete_published {id : ControlId} (h : s.held = some id) (result : R) :
    ∃ next, s.step (.complete id result) = (next, .completed (.ok ())) ∧ next.sender = s.sender ∧
      next.state.commands = s.state.commands ∧ next.held = none ∧
      next.state.completion.value = some ⟨id, result⟩ := by
  have hc : s.completing = false := by
    cases hc : s.completing with
    | true => simp [Transport.held, hc] at h
    | false => rfl
  have ha : s.receiver.active = some id := by
    rw [← h, Transport.held, hc, if_neg Bool.false_ne_true]
  refine ⟨{s with
    state := {s.state with completion := s.state.completion.signal ⟨id, result⟩}
    completing := true}, ?_, rfl, rfl, rfl, rfl⟩
  simp only [Transport.step, hc, Bool.false_eq_true, if_false, ControlReceiver.publish, ha,
    ne_eq, not_true_eq_false]

/-- The tail of a completion moves no command. -/
theorem release_held :
    ∃ next, s.step .release = (next, .nothing) ∧ next.sender = s.sender ∧
      next.state = s.state ∧ next.held = s.held := by
  simp only [Transport.step]
  split
  · next hc =>
    refine ⟨_, rfl, rfl, rfl, ?_⟩
    rw [Transport.held, Transport.held, if_pos hc, if_neg Bool.false_ne_true]
    rfl
  · exact ⟨_, rfl, rfl, rfl, rfl⟩

end Steps

section Histories

variable {s next : Transport C R} {history : TransportHistory C R}
  {entry : TransportInput C R × TransportOutput C R}

/-- A step that moves no command and returns nothing of one changes no history. -/
theorem owned_silent (h : Owned history s) (hs : next.sender = s.sender)
    (hstate : next.state = s.state) (hheld : next.held = s.held) (ha : accepted [entry] = [])
    (ht : taken [entry] = []) (hd : answered [entry] = []) (hr : returned [entry] = [])
    (hm : ∀ error, entry.2 ≠ .completion (.error error)) : Owned (history ++ [entry]) next := by
  refine ⟨?_, ?_, ?_, ?_, ?_⟩
  · rw [Transport.located, hstate, hheld, hs]
    exact h.located
  · rw [accepted, taken, List.filterMap_append, List.filterMap_append, ← accepted, ← accepted,
      ← taken, ← taken, ha, ht, List.append_nil, List.append_nil, hstate]
    exact h.accepted
  · rw [answered, returned, List.filterMap_append, List.filterMap_append, ← answered, ← answered,
      ← returned, ← returned, hd, hr, List.append_nil, List.append_nil, hstate]
    exact h.answered
  · rw [taken, answered, List.filterMap_append, List.filterMap_append, ← taken, ← taken,
      ← answered, ← answered, hd, ht, List.append_nil, List.append_nil, hheld]
    exact h.owners
  · intro i error hx
    rcases List.mem_append.mp hx with hx | hx
    · exact h.matching i error hx
    · exact hm error (congrArg Prod.snd (List.mem_singleton.mp hx)).symm

/-- A submission keeps the histories in agreement. -/
theorem owned_submit (h : Owned history s) (command : C) :
    Owned (history ++ [(.submit command, (s.step (.submit command)).2)])
      (s.step (.submit command)).1 := by
  cases ho : s.sender.outstanding with
  | some id =>
    rw [submit_busy ho]
    exact owned_silent h rfl rfl rfl rfl rfl rfl rfl (by simp)
  | none =>
    obtain ⟨hqueued, hheld, hvalue⟩ := places_of_none h.located ho
    obtain ⟨next, id, hs, hid, hq, hc, hh⟩ := submit_free ho hqueued command
    rw [hs]
    refine ⟨?_, ?_, ?_, ?_, ?_⟩
    · simp [Transport.located, hq, hc, hh, hid, hheld, hvalue]
    · have haccepted := h.accepted
      simp only [accepted, taken, hqueued, List.append_nil] at haccepted
      simp [accepted, taken, hq, haccepted]
    · simpa [answered, returned, hc] using h.answered
    · simpa [answered, taken, hh] using h.owners
    · simpa using h.matching

/-- So does the end of the outstanding command. -/
theorem owned_takeCompletion (h : Owned history s) :
    Owned (history ++ [(.takeCompletion, (s.step .takeCompletion).2)])
      (s.step .takeCompletion).1 := by
  rw [takeCompletion_located h.located]
  have hheld : ∀ (state : ControlState C R) (sender : ControlSender),
      Transport.held {s with state := state, sender := sender} = s.held := fun _ _ => rfl
  refine ⟨?_, ?_, ?_, ?_, ?_⟩
  · cases hv : s.state.completion.value with
    | none =>
      have hl := h.located
      simp only [Transport.located, hv] at hl
      simpa [Transport.located, Signal.tryTake, hheld] using hl
    | some completion =>
      obtain ⟨-, hq, hh⟩ := places_of_published h.located hv
      simp [Transport.located, Signal.tryTake, hheld, hq, hh]
  · simpa [accepted, taken] using h.accepted
  · have hanswered := h.answered
    simp only [answered, returned] at hanswered
    cases hv : s.state.completion.value <;>
      simpa [answered, returned, Signal.tryTake, hv] using hanswered
  · simpa [answered, taken, hheld] using h.owners
  · simpa using h.matching

/-- So does the receipt of a command. -/
theorem owned_takeCommand (h : Owned history s) :
    Owned (history ++ [(.takeCommand, (s.step .takeCommand).2)]) (s.step .takeCommand).1 := by
  by_cases hidle : s.completing = true ∨ s.receiver.active ≠ none ∨ s.state.commands.queued = []
  · obtain ⟨answer, hs, rfl | rfl⟩ := takeCommand_idle hidle <;> rw [hs]
    · exact owned_silent h rfl rfl rfl rfl rfl rfl rfl (by simp)
    · exact owned_silent h rfl rfl rfl rfl rfl rfl rfl (by simp)
  · push Not at hidle
    obtain ⟨hc, ha, hqueued⟩ := hidle
    obtain ⟨command, rest, hq⟩ := List.exists_cons_of_ne_nil hqueued
    obtain ⟨ho, hrest, hheld, hvalue⟩ := places_of_queued h.located hq
    obtain ⟨next, hs, hsender, hcompletion, hnext, hown⟩ :=
      takeCommand_taken (Bool.eq_false_iff.mpr hc) ha hq
    rw [hs]
    have howners := h.owners
    simp only [hheld, Option.toList_none, List.append_nil, taken, answered] at howners
    refine ⟨?_, ?_, ?_, ?_, ?_⟩
    · simp [Transport.located, hnext, hrest, hown, hcompletion, hvalue, hsender, ho]
    · simpa [accepted, taken, hnext, hq] using h.accepted
    · simpa [answered, returned, hcompletion] using h.answered
    · simpa [answered, taken, hown] using howners
    · simpa using h.matching

/-- So does a completion, published or rejected. -/
theorem owned_complete (h : Owned history s) (id : ControlId) (result : R) :
    Owned (history ++ [(.complete id result, (s.step (.complete id result)).2)])
      (s.step (.complete id result)).1 := by
  by_cases hown : s.held = some id
  · obtain ⟨ho, hq, hvalue⟩ := places_of_held h.located hown
    obtain ⟨next, hs, hsender, hcommands, hheld, hnext⟩ := complete_published hown result
    rw [hs]
    have hanswered := h.answered
    simp only [hvalue, Option.toList_none, List.append_nil, answered, returned] at hanswered
    refine ⟨?_, ?_, ?_, ?_, ?_⟩
    · simp [Transport.located, hcommands, hq, hheld, hnext, hsender, ho]
    · simpa [accepted, taken, hcommands] using h.accepted
    · simpa [answered, returned, hnext] using hanswered
    · have howners := h.owners
      simp only [hown, taken, answered] at howners
      simpa [answered, taken, hheld] using howners
    · simpa using h.matching
  · obtain ⟨answer, hs, rfl | ⟨error, rfl⟩⟩ := complete_rejected hown result <;> rw [hs]
    · exact owned_silent h rfl rfl rfl rfl rfl rfl rfl (by simp)
    · exact owned_silent h rfl rfl rfl rfl rfl rfl rfl (by simp)

/-- So does the tail of a completion. -/
theorem owned_release (h : Owned history s) :
    Owned (history ++ [(.release, (s.step .release).2)]) (s.step .release).1 := by
  obtain ⟨next, hs, hsender, hstate, hheld⟩ := @release_held _ _ s
  rw [hs]
  exact owned_silent h hsender hstate hheld rfl rfl rfl rfl (by simp)

end Histories

section Runs

/-- Transport after a schedule of both owners. -/
def transportRun (inputs : List (TransportInput C R)) : Transport C R :=
  transportMachine.run .new inputs

/-- Steps of that schedule with what each returned. -/
def transportHistory (inputs : List (TransportInput C R)) : TransportHistory C R :=
  transportMachine.transcript .new inputs

/-- The outstanding command has one place after every schedule. -/
theorem run_owned (inputs : List (TransportInput C R)) :
    Owned (transportHistory inputs) (transportRun inputs) := by
  refine transcript_invariant transportMachine (G := fun _ => True) ?_ (fun _ _ _ => trivial) ?_
    inputs trivial
  · exact ⟨rfl, rfl, rfl, rfl, fun i error hx => by cases hx⟩
  · intro history s i _ h
    cases i with
    | submit command => exact owned_submit h command
    | takeCompletion => exact owned_takeCompletion h
    | takeCommand => exact owned_takeCommand h
    | complete id result => exact owned_complete h id result
    | release => exact owned_release h

/-- After every schedule, also past the wrap of the identities: the outstanding command
has exactly one place; a submission fails exactly when a command is outstanding, and
then changes nothing; accepted commands are taken at most once, in order; each
completion answers the command taken in its turn and is returned once, unless it still
waits in the signal; and no completion is stale. -/
theorem single_owners (inputs : List (TransportInput C R)) :
    (transportRun inputs).located = (transportRun inputs).sender.outstanding.toList ∧
    (∀ command, ((∃ error, transportMachine.output (transportRun inputs) (.submit command) =
        .submitted (.error error)) ↔ (transportRun inputs).sender.outstanding ≠ none) ∧
      ∀ error, transportMachine.output (transportRun inputs) (.submit command) =
        .submitted (.error error) → error = ⟨command⟩ ∧
          transportMachine.next (transportRun inputs) (.submit command) = transportRun inputs) ∧
    accepted (transportHistory inputs) =
      taken (transportHistory inputs) ++ (transportRun inputs).state.commands.queued ∧
    (taken (transportHistory inputs)).map ControlCommand.id =
      (answered (transportHistory inputs)).map ControlCompletion.id ++
        (transportRun inputs).held.toList ∧
    answered (transportHistory inputs) = returned (transportHistory inputs) ++
      (transportRun inputs).state.completion.value.toList ∧
    transportMachine.output (transportRun inputs) .takeCompletion =
      .completion (.ok (transportRun inputs).state.completion.value) ∧
    ∀ i error, (i, .completion (.error error)) ∉ transportHistory inputs := by
  have h := run_owned inputs
  generalize transportRun inputs = s at h ⊢
  refine ⟨h.located, ?_, h.accepted, h.owners, h.answered, ?_, h.matching⟩
  · intro command
    unfold Machine.output Machine.next transportMachine
    cases ho : s.sender.outstanding with
    | some id =>
      dsimp only
      rw [submit_busy ho]
      refine ⟨⟨fun _ => Option.some_ne_none _, fun _ => ⟨_, rfl⟩⟩, ?_⟩
      intro error hx
      cases hx
      exact ⟨rfl, rfl⟩
    | none =>
      obtain ⟨next, id, hs, -⟩ := submit_free ho (places_of_none h.located ho).1 command
      dsimp only
      rw [hs]
      refine ⟨⟨?_, fun hx => (hx rfl).elim⟩, ?_⟩
      · rintro ⟨error, hx⟩
        cases hx
      · intro error hx
        cases hx
  · exact congrArg Prod.snd (takeCompletion_located h.located)

end Runs

end HisiRfCore.CommandTransport
