import HisiRfCore.CommandTransport
import HisiRfCore.ForwardSimulation

/-!
# The command transport is one remote call at a time

What the two owners say to each other through the channel and the signal, however
their steps are interleaved: a request, its receipt, its answer and the collection of
the answer, in this order, before the next request. The transport is related to an
abstract remote call, whose turns decide which calls of either owner succeed.
-/

namespace HisiRfCore.TransportDialogue

open BoundedChannel InputOutputMachine ForwardSimulation CommandTransport

variable {C R : Type}

/-- What one owner tells the other. -/
inductive Utterance (C R : Type)
  | request (command : ControlCommand C)
  | receive (command : ControlCommand C)
  | answer (completion : ControlCompletion R)
  | collect (completion : ControlCompletion R)

/-- Where the one remote call stands. -/
inductive Rpc (C R : Type)
  | idle
  | requested (command : ControlCommand C)
  | serving (id : ControlId)
  | answered (completion : ControlCompletion R)

/-- The owners speak in turn, each about the call of the other. -/
inductive Turn : Rpc C R → Utterance C R → Rpc C R → Prop
  | request (command : ControlCommand C) : Turn .idle (.request command) (.requested command)
  | receive (command : ControlCommand C) :
      Turn (.requested command) (.receive command) (.serving command.id)
  | answer (completion : ControlCompletion R) :
      Turn (.serving completion.id) (.answer completion) (.answered completion)
  | collect (completion : ControlCompletion R) :
      Turn (.answered completion) (.collect completion) .idle

section Calls

/-- A whole remote call. -/
def whole (call : ControlCommand C × R) : List (Utterance C R) :=
  [.request call.1, .receive call.1, .answer ⟨call.1.id, call.2⟩, .collect ⟨call.1.id, call.2⟩]

/-- What was said of the call that stands so. -/
def Begun : Rpc C R → List (Utterance C R) → Prop
  | .idle, said => said = []
  | .requested command, said => said = [.request command]
  | .serving id, said => ∃ command, command.id = id ∧ said = [.request command, .receive command]
  | .answered completion, said => ∃ command, command.id = completion.id ∧
      said = [.request command, .receive command, .answer completion]

/-- A turn continues the call, or ends it with all four utterances. -/
theorem begun_turn {a b : Rpc C R} {said : List (Utterance C R)} {u : Utterance C R}
    (h : Begun a said) (ht : Turn a u b) :
    Begun b (said ++ [u]) ∨ Begun b [] ∧ ∃ call, said ++ [u] = whole call := by
  cases ht with
  | request command =>
    have hs : said = [] := h
    exact Or.inl (by rw [hs]; rfl)
  | receive command =>
    have hs : said = [.request command] := h
    exact Or.inl ⟨command, rfl, by rw [hs]; rfl⟩
  | answer completion =>
    obtain ⟨command, hid, hs⟩ := h
    exact Or.inl ⟨command, hid, by rw [hs]; rfl⟩
  | collect completion =>
    obtain ⟨command, hid, hs⟩ := h
    refine Or.inr ⟨rfl, (command, completion.result), ?_⟩
    rw [hs, whole, hid]
    rfl

/-- The turns from an idle transport are whole calls, one after another, and then what
was said of the present one. -/
theorem trace_serial {said : List (Utterance C R)} {a : Rpc C R} (h : Trace Turn .idle said a) :
    ∃ (calls : List (ControlCommand C × R)) (tail : List (Utterance C R)),
      said = calls.flatMap whole ++ tail ∧ Begun a tail := by
  induction h with
  | nil => exact ⟨[], [], rfl, rfl⟩
  | snoc _ hlast ih =>
    obtain ⟨calls, tail, rfl, hbegun⟩ := ih
    rcases begun_turn hbegun hlast with hnext | ⟨hnext, call, hwhole⟩
    · exact ⟨calls, _, List.append_assoc _ _ _, hnext⟩
    · refine ⟨calls ++ [call], [], ?_, hnext⟩
      rw [List.append_assoc, hwhole, List.flatMap_append, List.flatMap_singleton,
        List.append_nil]

end Calls

section Transports

variable {s next : Transport C R}

/-- The remote call that a transport is in. -/
def rpc (s : Transport C R) : Rpc C R :=
  match s.state.completion.value, s.held, s.state.commands.queued with
  | some completion, _, _ => .answered completion
  | none, some id, _ => .serving id
  | none, none, command :: _ => .requested command
  | none, none, [] => .idle

/-- What a step tells the other owner. -/
def utterance : TransportInput C R × TransportOutput C R → Option (Utterance C R)
  | (.submit command, .submitted (.ok id)) => some (.request ⟨id, command⟩)
  | (.takeCommand, .command (some command)) => some (.receive command)
  | (.complete id result, .completed (.ok ())) => some (.answer ⟨id, result⟩)
  | (.takeCompletion, .completion (.ok (some completion))) => some (.collect completion)
  | _ => none

/-- What a step would tell, if its owner may speak. -/
def Offers : TransportInput C R → Utterance C R → Prop
  | .submit command, .request sent => sent.command = command
  | .takeCommand, .receive _ => True
  | .complete id result, .answer completion => completion = ⟨id, result⟩
  | .takeCompletion, .collect _ => True
  | _, _ => False

/-- The call is where its command is. -/
theorem rpc_congr (hv : next.state.completion.value = s.state.completion.value)
    (hh : next.held = s.held) (hq : next.state.commands.queued = s.state.commands.queued) :
    rpc next = rpc s := by
  simp only [rpc, hv, hh, hq]

/-- A published completion answers the call. -/
theorem rpc_published {completion : ControlCompletion R}
    (hv : s.state.completion.value = some completion) : rpc s = .answered completion := by
  simp only [rpc, hv]

/-- A command that the receiver owns is being served. -/
theorem rpc_held {id : ControlId} (hv : s.state.completion.value = none)
    (hh : s.held = some id) : rpc s = .serving id := by
  simp only [rpc, hv, hh]

/-- A queued command is requested. -/
theorem rpc_queued {command : ControlCommand C} {rest : List (ControlCommand C)}
    (hv : s.state.completion.value = none) (hh : s.held = none)
    (hq : s.state.commands.queued = command :: rest) : rpc s = .requested command := by
  simp only [rpc, hv, hh, hq]

/-- With all three places empty there is no call. -/
theorem rpc_empty (hv : s.state.completion.value = none) (hh : s.held = none)
    (hq : s.state.commands.queued = []) : rpc s = .idle := by
  simp only [rpc, hv, hh, hq]

/-- A call answers exactly with its published completion. -/
theorem rpc_answered {completion : ControlCompletion R} (h : rpc s = .answered completion) :
    s.state.completion.value = some completion := by
  unfold rpc at h
  split at h <;> cases h
  assumption

/-- A call is served exactly by the receiver that owns its command. -/
theorem rpc_serving {id : ControlId} (h : rpc s = .serving id) : s.held = some id := by
  unfold rpc at h
  split at h <;> cases h
  assumption

/-- A requested command waits in the channel, and nothing else is under way. -/
theorem rpc_requested {command : ControlCommand C} (h : rpc s = .requested command) :
    s.held = none ∧ ∃ rest, s.state.commands.queued = command :: rest := by
  unfold rpc at h
  split at h <;> cases h
  exact ⟨by assumption, _, by assumption⟩

/-- An idle transport has nothing outstanding. -/
theorem rpc_idle (h : s.located = s.sender.outstanding.toList) (hidle : rpc s = .idle) :
    s.sender.outstanding = none := by
  unfold rpc at hidle
  split at hidle <;> cases hidle
  next hv hh hq =>
    rw [Transport.located, hq, hh, hv] at h
    exact Option.toList_eq_nil_iff.mp h.symm

end Transports

section Steps

variable {s : Transport C R}

/-- A step that tells something takes the turn of its owner, and one that tells nothing
leaves the call alone. An owner whose turn it is tells something. -/
structure Converses (s : Transport C R) (i : TransportInput C R) : Prop where
  /-- What is told is a turn. -/
  said : Said Turn (rpc s) (utterance (i, (s.step i).2)) (rpc (s.step i).1)
  /-- Whose turn it is speaks; the receiver is not inside the completion before. -/
  speaks : ∀ u a b, Offers i u → rpc s = a → Turn a u b →
    (i = .takeCommand → s.completing = false) → (utterance (i, (s.step i).2)).isSome = true

/-- A submission requests, or finds a call under way. -/
theorem converses_submit (h : s.located = s.sender.outstanding.toList) (command : C) :
    Converses s (.submit command) := by
  cases ho : s.sender.outstanding with
  | some id =>
    refine ⟨?_, ?_⟩
    · rw [submit_busy ho]
      exact rfl
    · intro u a b hoffer ha hturn _
      cases hturn with
      | request sent =>
        have hnone := rpc_idle h ha
        rw [ho] at hnone
        cases hnone
      | _ => exact hoffer.elim
  | none =>
    obtain ⟨hqueued, hheld, hvalue⟩ := places_of_none h ho
    obtain ⟨next, id, hs, -, hq, hc, hh⟩ := submit_free ho hqueued command
    refine ⟨?_, ?_⟩
    · rw [hs, rpc_empty hvalue hheld hqueued,
        rpc_queued ((congrArg Signal.value hc).trans hvalue) (hh.trans hheld) hq]
      exact Turn.request _
    · intro _ _ _ _ _ _ _
      rw [hs]
      rfl

/-- The sender collects the answer, or finds none. -/
theorem converses_takeCompletion (h : s.located = s.sender.outstanding.toList) :
    Converses s .takeCompletion := by
  refine ⟨?_, ?_⟩
  · rw [takeCompletion_located h]
    cases hv : s.state.completion.value with
    | none => exact rpc_congr (hv.symm ▸ rfl) rfl rfl
    | some completion =>
      obtain ⟨-, hq, hh⟩ := places_of_published h hv
      have hidle : rpc {s with
          state := {s.state with completion := s.state.completion.tryTake.2}
          sender := {s.sender with outstanding := none}} = .idle := rpc_empty rfl hh hq
      rw [rpc_published hv]
      exact hidle.symm ▸ Turn.collect completion
  · intro u a b hoffer ha hturn _
    cases hturn with
    | collect completion =>
      rw [takeCompletion_located h, rpc_answered ha]
      rfl
    | _ => exact hoffer.elim

/-- The receiver takes the requested command, or finds none. -/
theorem converses_takeCommand (h : s.located = s.sender.outstanding.toList) :
    Converses s .takeCommand := by
  by_cases hidle : s.completing = true ∨ s.receiver.active ≠ none ∨ s.state.commands.queued = []
  · obtain ⟨answer, hs, hanswer⟩ := takeCommand_idle hidle
    refine ⟨?_, ?_⟩
    · rw [hs]
      rcases hanswer with rfl | rfl <;> exact rfl
    · intro u a b hoffer ha hturn hfree
      cases hturn with
      | receive command =>
        obtain ⟨hheld, rest, hq⟩ := rpc_requested ha
        have hc := hfree rfl
        rw [Transport.held, hc, if_neg Bool.false_ne_true] at hheld
        rw [hc, hheld, hq] at hidle
        simp at hidle
      | _ => exact hoffer.elim
  · push Not at hidle
    obtain ⟨hc, ha, hqueued⟩ := hidle
    obtain ⟨command, rest, hq⟩ := List.exists_cons_of_ne_nil hqueued
    obtain ⟨-, hrest, hheld, hvalue⟩ := places_of_queued h hq
    obtain ⟨next, hs, -, hcompletion, -, hown⟩ :=
      takeCommand_taken (Bool.eq_false_iff.mpr hc) ha hq
    refine ⟨?_, ?_⟩
    · rw [hs, rpc_queued hvalue hheld hq,
        rpc_held ((congrArg Signal.value hcompletion).trans hvalue) hown]
      exact Turn.receive command
    · intro _ _ _ _ _ _ _
      rw [hs]
      rfl

/-- The receiver answers the command that it serves, and no other. -/
theorem converses_complete (h : s.located = s.sender.outstanding.toList) (id : ControlId)
    (result : R) : Converses s (.complete id result) := by
  by_cases hown : s.held = some id
  · obtain ⟨-, hq, hvalue⟩ := places_of_held h hown
    obtain ⟨next, hs, -, -, -, hnext⟩ := complete_published hown result
    refine ⟨?_, ?_⟩
    · rw [hs, rpc_held hvalue hown, rpc_published hnext]
      exact Turn.answer ⟨id, result⟩
    · intro _ _ _ _ _ _ _
      rw [hs]
      rfl
  · obtain ⟨answer, hs, hanswer⟩ := complete_rejected hown result
    refine ⟨?_, ?_⟩
    · rw [hs]
      rcases hanswer with rfl | ⟨error, rfl⟩ <;> exact rfl
    · intro u a b hoffer ha hturn _
      cases hturn with
      | answer completion =>
        have hc : completion = ⟨id, result⟩ := hoffer
        rw [hc] at ha
        exact (hown (rpc_serving ha)).elim
      | _ => exact hoffer.elim

/-- The tail of a completion tells nothing. -/
theorem converses_release : Converses s .release := by
  obtain ⟨next, hs, -, hstate, hheld⟩ := @release_held _ _ s
  refine ⟨?_, ?_⟩
  · rw [hs]
    exact rpc_congr (by rw [hstate]) hheld (by rw [hstate])
  · intro u _ _ hoffer _ _ _
    cases u <;> exact hoffer.elim

/-- Every step converses. -/
theorem converses (h : s.located = s.sender.outstanding.toList) (i : TransportInput C R) :
    Converses s i := by
  cases i with
  | submit command => exact converses_submit h command
  | takeCompletion => exact converses_takeCompletion h
  | takeCommand => exact converses_takeCommand h
  | complete id result => exact converses_complete h id result
  | release => exact converses_release

/-- What a step tells is what its owner may say. -/
theorem utterance_offers {i : TransportInput C R} {o : TransportOutput C R} {u : Utterance C R}
    (h : utterance (i, o) = some u) : Offers i u := by
  unfold utterance at h
  split at h
  · next he =>
    cases he
    cases h
    rfl
  · next he =>
    cases he
    cases h
    trivial
  · next he =>
    cases he
    cases h
    rfl
  · next he =>
    cases he
    cases h
    trivial
  · cases h

/-- The receiver takes no command inside the completion before. -/
theorem takeCommand_free (h : (utterance (.takeCommand, (s.step .takeCommand).2)).isSome = true) :
    s.completing = false := by
  by_contra hc
  simp only [Transport.step, Bool.eq_true_of_not_eq_false hc, if_true, utterance,
    Option.isSome_none, Bool.false_eq_true] at h

/-- A step tells something exactly when it is the turn of its owner. -/
theorem speaks_iff (h : s.located = s.sender.outstanding.toList) (i : TransportInput C R) :
    (utterance (i, (s.step i).2)).isSome = true ↔
      (∃ u b, Offers i u ∧ Turn (rpc s) u b) ∧ (i = .takeCommand → s.completing = false) := by
  have hc := converses h i
  constructor
  · intro hsome
    obtain ⟨u, hu⟩ := Option.isSome_iff_exists.mp hsome
    have hsaid := hc.said
    rw [hu] at hsaid
    refine ⟨⟨u, _, utterance_offers hu, hsaid⟩, ?_⟩
    rintro rfl
    exact takeCommand_free hsome
  · rintro ⟨⟨u, b, hoffer, hturn⟩, hfree⟩
    exact hc.speaks u _ b hoffer rfl hturn hfree

end Steps

section Runs

/-- What the owners told each other in a schedule. -/
def conversation (inputs : List (TransportInput C R)) : List (Utterance C R) :=
  transportMachine.observed (fun s i => utterance (i, transportMachine.output s i)) .new inputs

/-- The conversation of every schedule is a trace of the abstract remote call. -/
theorem conversation_traced (inputs : List (TransportInput C R)) :
    Trace Turn .idle (conversation inputs) (rpc (transportRun inputs)) := by
  have hstep : ∀ s (i : TransportInput C R) (a : Rpc C R),
      (∃ before, s = transportRun before) ∧ rpc s = a →
      ∃ b, ((∃ before, transportMachine.next s i = transportRun before) ∧
        rpc (transportMachine.next s i) = b) ∧
        Said Turn a (utterance (i, transportMachine.output s i)) b := by
    rintro s i _ ⟨⟨before, rfl⟩, rfl⟩
    have hnext : transportMachine.next (transportRun before) i = transportRun (before ++ [i]) :=
      (run_concat transportMachine _ before i).symm
    exact ⟨_, ⟨⟨_, hnext⟩, rfl⟩, (converses (run_owned before).located i).said⟩
  have hstart : (∃ before, Transport.new = transportRun (C := C) (R := R) before) ∧
      rpc (C := C) (R := R) .new = .idle := ⟨⟨[], rfl⟩, rfl⟩
  obtain ⟨a, ⟨-, ha⟩, htrace⟩ := run_traced transportMachine hstep hstart inputs
  rw [transportRun, ha]
  exact htrace

/-- After every schedule the owners have held whole remote calls, one after another, each
with the answer to its own request, and then the part of the present call that leads to
where its command is. A call of either owner succeeds exactly when it is its turn, and
when the receiver has left the completion before. -/
theorem transport_serial (inputs : List (TransportInput C R)) :
    (∃ (calls : List (ControlCommand C × R)) (tail : List (Utterance C R)),
      conversation inputs = calls.flatMap whole ++ tail ∧ Begun (rpc (transportRun inputs)) tail) ∧
    ∀ i : TransportInput C R,
      (utterance (i, transportMachine.output (transportRun inputs) i)).isSome = true ↔
        (∃ u b, Offers i u ∧ Turn (rpc (transportRun inputs)) u b) ∧
          (i = .takeCommand → (transportRun inputs).completing = false) :=
  ⟨trace_serial (conversation_traced inputs), speaks_iff (run_owned inputs).located⟩

end Runs

end HisiRfCore.TransportDialogue
