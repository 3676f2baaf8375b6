import HisiRfCore.DriverCancellation
import HisiRfCore.IncrementalService

/-!
# The ledger of the runner agrees with its driver

The two-slot ledger repeats what the arbiter owns. Between two calls it holds the
sequences of the active and the pending command with the kinds they were received
with, so its own failures cannot occur. A received command is signalled once, by
the step that publishes its terminal event.
-/

namespace HisiRfCore.LedgerAgreement

open StateBorrow BoundedChannel WifiTypes RadioStorage AsyncControl ServiceProtocol
open ServiceDelivery IncrementalContract CommandArbitration BackendDriver DriverCoherence
open DriverCalls DriverCancellation IncrementalFacade IncrementalInterleaving
open IncrementalService InputOutputMachine

variable {B E : Type} {eventCapacity : ℕ}

section Ledger

variable {ledger : CommandLedger} {sequence : CommandSequence} {kind : CommandKindTag}
  {entry : CommandSequence × CommandKindTag}

/-- An insertion adds one entry at most. -/
theorem mem_insert (h : entry ∈ (ledger.insert sequence kind).2.entries) :
    entry ∈ ledger.entries ∨ entry = (sequence, kind) := by
  rcases ledger with ⟨first, second⟩
  cases first with
  | none =>
    rcases List.mem_append.mp h with hm | hm
    · exact Or.inr (List.mem_singleton.mp hm)
    · exact Or.inl (List.mem_append_right _ hm)
  | some first =>
    cases second with
    | none =>
      rcases List.mem_append.mp h with hm | hm
      · exact Or.inl (List.mem_append_left _ hm)
      · exact Or.inr (List.mem_singleton.mp hm)
    | some second => exact Or.inl h

/-- A removal adds no entry. -/
theorem mem_remove (h : entry ∈ (ledger.remove sequence).2.entries) : entry ∈ ledger.entries := by
  unfold CommandLedger.remove at h
  split at h
  · exact List.mem_append_right _ h
  · split at h
    · rcases List.mem_append.mp h with hm | hm
      · exact List.mem_append_left _ hm
      · cases hm
    · exact h

/-- The kind that a removal returns is that of an entry of the sequence. -/
theorem mem_of_remove (h : (ledger.remove sequence).1 = some kind) :
    (sequence, kind) ∈ ledger.entries := by
  have hslot : ∀ {slot : Option (CommandSequence × CommandKindTag)},
      CommandLedger.holds sequence slot = true → slot.map Prod.snd = some kind →
      (sequence, kind) ∈ slot.toList := by
    intro slot hh hk
    obtain ⟨held, rfl⟩ := CommandLedger.holds_iff.mp hh
    cases hk
    exact List.mem_singleton.mpr rfl
  unfold CommandLedger.remove at h
  split at h
  · next hf => exact List.mem_append_left _ (hslot hf h)
  · split at h
    · next hs => exact List.mem_append_right _ (hslot hs h)
    · cases h

end Ledger

/-- Each entry of the ledger has the kind of its received command. -/
def Kinds (s : IncrementalSystem B eventCapacity) : Prop :=
  ∀ entry ∈ s.frame.runner.ledger.entries, ∃ command ∈ s.frame.shared.commands.received,
    command.sequence = entry.1.get ∧ entry.2 = .fromCommand command.kind

/-- What the runner keeps between two calls. -/
structure Agrees (s : IncrementalSystem B eventCapacity) : Prop where
  /-- The ledger holds the sequences of the active and the pending command, once each. -/
  sequences : (s.frame.runner.ledger.entries.map Prod.fst).Perm
    s.frame.runner.driver.arbiter.owned
  /-- The two slots of the driver hold different sequences. -/
  distinct : s.frame.runner.driver.arbiter.owned.Nodup
  /-- Each sequence is entered with the kind of its command. -/
  kinds : Kinds s
  /-- A received command that the driver does not own has one completion. -/
  answered : ∀ command ∈ s.frame.shared.commands.received,
    (∀ sequence ∈ s.frame.runner.driver.arbiter.owned, sequence.get ≠ command.sequence) →
    ∃ kind, s.frame.shared.completion.written.filter (fun x => x.sequence = command.sequence) =
      [⟨command.sequence, kind⟩]
  /-- A command that the driver owns has none. -/
  unanswered : ∀ command ∈ s.frame.shared.commands.received,
    (∃ sequence ∈ s.frame.runner.driver.arbiter.owned, sequence.get = command.sequence) →
    s.frame.shared.completion.written.filter (fun x => x.sequence = command.sequence) = []

/-- Event that the driver reported in this call and the next step publishes. -/
def reported (s : IncrementalSystem B eventCapacity) : Option IncrementalDriverEvent :=
  match s.phase with
  | .publishing event => some event
  | .requesting taken _ =>
    (CommandSequence.tryFromRaw taken).bind fun sequence =>
      match reply (IncrementalBackendDriver.requestCancel sequence s.frame.runner.driver) with
      | .ok event => event
      | .error _ => none
  | _ => none

section Reports

variable {s : IncrementalSystem B eventCapacity} {sequence : CommandSequence} {ready : WaitSet}

/-- The removal of the pending command is reported. -/
theorem reported_removed (hp : s.phase = .requesting sequence.get ready)
    (ha : s.frame.runner.driver.arbiter.activeSequence ≠ some sequence)
    (hpend : s.frame.runner.driver.arbiter.pendingSequence = some sequence) :
    reported s = some (.cancelled sequence false) := by
  have hx := CommandSequence.tryFromRaw_get sequence
  simp only [reported, hp, hx, Option.bind_some, request_pending hpend ha]

/-- Any other cancellation reports nothing. -/
theorem reported_requested (hp : s.phase = .requesting sequence.get ready)
    (hk : s.frame.runner.driver.arbiter.activeSequence = some sequence ∨
      s.frame.runner.driver.arbiter.pendingSequence ≠ some sequence) : reported s = none := by
  have hx := CommandSequence.tryFromRaw_get sequence
  have heffect := CommandArbiter.requestCancel_effect sequence s.frame.runner.driver.arbiter
  simp only [reported, hp, hx, Option.bind_some, requestCancel_apply, reply_ok]
  generalize CommandArbiter.requestCancel sequence s.frame.runner.driver.arbiter = effect
    at heffect
  cases heffect with
  | requestActive active ha hs hr hi => rfl
  | alreadyRequested active ha hs hr => rfl
  | removePending hs hq =>
    rcases hk with hk | hk
    · exact (hs hk).elim
    · exact (hk hq).elim
  | notFound hs hq => rfl

end Reports

/-- The failures that the runner would report if the ledger and the driver disagreed. -/
def Disagreement : IncrementalRadioRunnerError → Prop
  | .invalidCommandSequence | .commandCapacity | .commandArbiter _ | .missingCommand => True
  | .driver _ | .completionMismatch => False

variable [IncrementalWifiBackend B]

/-- What one step of a call returns and signals. -/
structure Publishes (ready : WaitSet) (s : IncrementalSystem B eventCapacity) : Prop where
  /-- The ledger, the arbiter and the channel never disagree. -/
  agreeing : ∀ error, (runnerStep ready s).2 = some (.error error) → ¬ Disagreement error
  /-- Without a terminal event nothing is signalled. -/
  silent : (∀ event, reported s = some event → event.terminal = none) →
    (runnerStep ready s).1.frame.shared.completion.written = s.frame.shared.completion.written
  /-- A terminal event ends the call and signals one completion: of the command's own
  kind, or a protocol failure when the event is a success of another kind. -/
  signalled : ∀ event sequence, reported s = some event → event.terminal = some sequence →
    (runnerStep ready s).2 ≠ none ∧
    ∃ command ∈ s.frame.shared.commands.received, command.sequence = sequence.get ∧
    ∃ kind, (runnerStep ready s).1.frame.shared.completion.written =
        s.frame.shared.completion.written ++ [⟨command.sequence, kind⟩] ∧
      (kind.tag = some (.fromCommand command.kind) ∨ kind = .protocol) ∧
      (kind = .protocol ↔ ∃ completion, event = .completed sequence completion ∧
        completion.tag ≠ .fromCommand command.kind)

section Steps

variable {s : IncrementalSystem B eventCapacity} {t : Service eventCapacity}

omit [IncrementalWifiBackend B] in
/-- A terminal event publishes a protocol failure exactly when it is a success of
another kind. -/
theorem publishedKind_protocol {kind : CommandKindTag} {event : IncrementalDriverEvent}
    {sequence : CommandSequence} (ht : event.terminal = some sequence) :
    publishedKind kind event = .protocol ↔
      ∃ completion, event = .completed sequence completion ∧ completion.tag ≠ kind := by
  have htag := @publishedKind_tag kind event sequence ht
  cases event with
  | completed x completion =>
    cases ht
    have hm : mismatched kind (.completed sequence completion) = true ↔ completion.tag ≠ kind := by
      rw [← successfulCompletion_eq_none]
      exact Option.isNone_iff_eq_none
    constructor
    · intro hp
      refine ⟨completion, rfl, hm.mp ?_⟩
      by_contra hne
      rw [if_neg hne, hp] at htag
      cases htag
    · rintro ⟨c, hc, hne⟩
      cases hc
      rwa [if_pos (hm.mpr hne)] at htag
  | cancelled x suppressed =>
    constructor
    · intro hp
      rw [if_neg (by simp [mismatched]), hp] at htag
      cases htag
    · rintro ⟨c, hc, -⟩
      cases hc
  | failed x error pending =>
    constructor
    · intro hp
      rw [if_neg (by simp [mismatched]), hp] at htag
      cases htag
    · rintro ⟨c, hc, -⟩
      cases hc
  | _ => cases ht

/-- Every step of a call keeps the kinds: a command is entered when it is submitted. -/
theorem kinds_runner (ready : WaitSet) (hs : Simulates s t) (hb : Bounded t) (h : Kinds s) :
    Kinds (runnerStep ready s).1 := by
  have he := runnerStep_effect ready hs hb
  have hkeep : ∀ (ledger : CommandLedger) (commands : Channel Command 1),
      (∀ entry ∈ ledger.entries, entry ∈ s.frame.runner.ledger.entries) →
      commands = s.frame.shared.commands → ∀ entry ∈ ledger.entries,
      ∃ command ∈ commands.received, command.sequence = entry.1.get ∧
        entry.2 = .fromCommand command.kind := by
    intro ledger commands hsub hc entry hm
    rw [hc]
    exact h entry (hsub entry hm)
  generalize runnerStep ready s = next at he
  cases he with
  | received command rest ready frame hp hc hq ho hm =>
    have hledger : frame.runner.ledger = s.frame.runner.ledger := congrArg Owner.ledger ho
    have hreceived : frame.shared.commands.received =
        s.frame.shared.commands.received ++ [command] :=
      (congrArg (fun m => m.commands.received) hm).trans (tryReceive_of_cons hq).2.1
    intro entry hentry
    simp only [hledger] at hentry
    obtain ⟨c, hc, hseq, hkind⟩ := h entry hentry
    refine ⟨c, ?_, hseq, hkind⟩
    simp only [hreceived]
    exact List.mem_append_left _ hc
  | unreceived ready frame hp hn ho hm =>
    have hledger : frame.runner.ledger = s.frame.runner.ledger := congrArg Owner.ledger ho
    exact hkeep _ _ (fun _ hx => hledger ▸ hx) (congrArg Mailbox.commands hm)
  | submitted command ready sequence request frame hp hseq ho hm =>
    have hledger : frame.runner.ledger =
        (s.frame.runner.ledger.insert sequence (.fromCommand command.kind)).2 :=
      congrArg Owner.ledger ho
    have hcommands : frame.shared.commands = s.frame.shared.commands :=
      congrArg Mailbox.commands hm
    intro entry hentry
    simp only [hledger] at hentry
    simp only [hcommands]
    rcases mem_insert hentry with hold | hnew
    · exact h entry hold
    · rw [hnew]
      exact ⟨command, hs.entered command ready hp, hseq.symm, rfl⟩
  | sampled x rest ready frame hp hq ho hm =>
    have hledger : frame.runner.ledger = s.frame.runner.ledger := congrArg Owner.ledger ho
    exact hkeep _ _ (fun _ hx => hledger ▸ hx) (congrArg Mailbox.commands hm)
  | unsampled ready hp hq => exact h
  | requested sequence ready frame hp hk ho hm =>
    have hledger : frame.runner.ledger = s.frame.runner.ledger := congrArg Owner.ledger ho
    exact hkeep _ _ (fun _ hx => hledger ▸ hx) (congrArg Mailbox.commands hm)
  | removed sequence kind ready frame hp ha hpend hk ho hm =>
    have hledger : frame.runner.ledger = (s.frame.runner.ledger.remove sequence).2 :=
      congrArg Owner.ledger ho
    exact hkeep _ _ (fun _ hx => mem_remove (hledger ▸ hx)) (congrArg Mailbox.commands hm)
  | driven ready event drive frame hp hdrive ho hm =>
    have hledger : frame.runner.ledger = s.frame.runner.ledger := congrArg Owner.ledger ho
    exact hkeep _ _ (fun _ hx => hledger ▸ hx) (congrArg Mailbox.commands hm)
  | failed ready error drive frame hp hdrive ho hm =>
    have hledger : frame.runner.ledger = s.frame.runner.ledger := congrArg Owner.ledger ho
    exact hkeep _ _ (fun _ hx => hledger ▸ hx) (congrArg Mailbox.commands hm)
  | published event sequence kind frame hp ht hk ho hm =>
    have hledger : frame.runner.ledger = (s.frame.runner.ledger.remove sequence).2 :=
      congrArg Owner.ledger ho
    exact hkeep _ _ (fun _ hx => mem_remove (hledger ▸ hx)) (congrArg Mailbox.commands hm)
  | unpublished event hp ht => exact h

/-- So does every other step of the system. -/
theorem kinds_step (interrupt : E → B → B) (hs : Simulates s t) (hb : Bounded t) (h : Kinds s)
    (input : IncrementalInput E) : Kinds ((incrementalMachine interrupt).next s input) := by
  cases input with
  | control step =>
    have hreceived : (s.plane.step s.frame.shared step).2.commands.received =
        s.frame.shared.commands.received :=
      (control_forwards (step_effect s.plane s.frame.shared step)).commandsReceived
    intro entry hentry
    simp only [Machine.next, incrementalMachine, hreceived]
    exact h entry hentry
  | runner ready => exact kinds_runner ready hs hb h
  | backendEvent event => exact h

omit [IncrementalWifiBackend B] in
/-- Between two calls the ledger, the driver and the signalled completions agree. -/
theorem agrees_of_idle (hs : Simulates s t) (hd : Delivers t) (h : Kinds s)
    (hp : s.phase = .idle) : Agrees s := by
  obtain ⟨held, hi, hh⟩ := hs.inflight
  simp only [hp, entering, Option.toList_none, List.append_nil] at hi
  have hsequences : held.map Command.sequence =
      s.frame.runner.driver.arbiter.owned.map CommandSequence.get := by
    have hseq := hh.sequences
    simp only [hp, ended, Option.toList_none, List.nil_append] at hseq
    exact hseq
  have hledger := hh.ledger
  simp only [hp, ended, Option.toList_none, List.nil_append] at hledger
  have hnodup : (s.frame.runner.driver.arbiter.owned.map CommandSequence.get).Nodup := by
    have hn := hd.answered_nodup
    rw [List.map_append, hi, hsequences] at hn
    exact hn.of_append_right
  refine ⟨hledger, hnodup.of_map, h, ?_, ?_⟩
  · intro command hc hfree
    rw [← hs.shared] at hc ⊢
    rcases List.mem_append.mp (hd.answers.balanced.mem_iff.mp hc) with ha | hm
    · obtain ⟨⟨c, kind⟩, hmem, rfl⟩ := List.mem_map.mp ha
      exact ⟨kind, hd.completion_answered hmem⟩
    · have hseq : command.sequence ∈
          s.frame.runner.driver.arbiter.owned.map CommandSequence.get := by
        rw [← hsequences, ← hi]
        exact List.mem_map_of_mem hm
      obtain ⟨sequence, hown, he⟩ := List.mem_map.mp hseq
      exact (hfree sequence hown he).elim
  · rintro command hc ⟨sequence, hown, he⟩
    have hseq : command.sequence ∈ held.map Command.sequence := by
      rw [hsequences, ← he]
      exact List.mem_map_of_mem hown
    obtain ⟨c, hm, hsame⟩ := List.mem_map.mp hseq
    rw [← hs.shared] at hc ⊢
    rw [← hi] at hm
    have hc' : c = command := hd.traffic.sequence_inj
      (mem_sent_of_received (hd.inflight_received hm)) (mem_sent_of_received hc) hsame
    rw [hc'] at hm
    exact hd.completion_unanswered (mem_sent_of_received hc) (hd.inflight_unanswered hm)

omit [IncrementalWifiBackend B] in
/-- A step that publishes a terminal event signals its one completion. -/
theorem signalled_publish (h : Kinds s) {event : IncrementalDriverEvent}
    {sequence : CommandSequence} {kind : CommandKindTag} {frame : FacadeFrame B eventCapacity}
    (ht : event.terminal = some sequence)
    (hk : (s.frame.runner.ledger.remove sequence).1 = some kind)
    (hm : frame.shared.mailbox = {s.frame.shared.mailbox with
      completion := s.frame.shared.completion.signal
        ⟨sequence.get, publishedKind kind event⟩}) :
    ∃ command ∈ s.frame.shared.commands.received, command.sequence = sequence.get ∧
    ∃ published, frame.shared.completion.written =
        s.frame.shared.completion.written ++ [⟨command.sequence, published⟩] ∧
      (published.tag = some (.fromCommand command.kind) ∨ published = .protocol) ∧
      (published = .protocol ↔ ∃ completion, event = .completed sequence completion ∧
        completion.tag ≠ .fromCommand command.kind) := by
  obtain ⟨command, hc, hseq, hkind⟩ := h _ (mem_of_remove hk)
  dsimp only at hseq hkind
  refine ⟨command, hc, hseq, publishedKind kind event, ?_, ?_, ?_⟩
  · rw [hseq]
    exact congrArg (fun m => m.completion.written) hm
  · have htag := @publishedKind_tag kind event sequence ht
    rw [← hkind]
    split at htag
    · exact Or.inr htag
    · exact Or.inl htag
  · rw [← hkind]
    exact publishedKind_protocol ht

/-- Every step of a call returns and signals as promised. -/
theorem publishes_of_kinds (ready : WaitSet) (hs : Simulates s t) (hb : Bounded t)
    (h : Kinds s) : Publishes ready s := by
  have he := runnerStep_effect ready hs hb
  have hquiet : ∀ {frame : FacadeFrame B eventCapacity} {next : Mailbox},
      frame.shared.mailbox = next → next.completion = s.frame.shared.completion →
      frame.shared.completion.written = s.frame.shared.completion.written := by
    intro frame next hm hc
    rw [← hc, ← hm]
    rfl
  have hnone : reported s = none → ∀ event sequence, reported s = some event →
      event.terminal = some sequence → ∀ p : Prop, p := by
    intro hr event sequence hx
    rw [hr] at hx
    cases hx
  constructor
  · intro error hx
    generalize runnerStep ready s = next at he hx
    cases he with
    | removed sequence kind ready frame hp ha hpend hk ho hm => cases hx
    | failed ready error' drive frame hp hdrive ho hm =>
      cases hx
      exact id
    | published event sequence kind frame hp ht hk ho hm =>
      simp only [Option.some.injEq] at hx
      split at hx
      · cases hx
        exact id
      · cases hx
    | unpublished event hp ht => cases hx
    | _ => cases hx
  · intro hsilent
    generalize runnerStep ready s = next at he
    cases he with
    | received command rest ready frame hp hc hq ho hm => exact hquiet hm rfl
    | unreceived ready frame hp hn ho hm => exact hquiet hm rfl
    | submitted command ready sequence request frame hp hseq ho hm => exact hquiet hm rfl
    | sampled x rest ready frame hp hq ho hm => exact hquiet hm rfl
    | unsampled ready hp hq => rfl
    | requested sequence ready frame hp hk ho hm => exact hquiet hm rfl
    | removed sequence kind ready frame hp ha hpend hk ho hm =>
      have hnot := hsilent _ (reported_removed hp ha hpend)
      cases hnot
    | driven ready event drive frame hp hdrive ho hm => exact hquiet hm rfl
    | failed ready error drive frame hp hdrive ho hm => exact hquiet hm rfl
    | published event sequence kind frame hp ht hk ho hm =>
      have hnot := hsilent event (by rw [reported, hp])
      rw [ht] at hnot
      cases hnot
    | unpublished event hp ht => rfl
  · intro event sequence hr ht
    generalize runnerStep ready s = next at he
    cases he with
    | received command rest ready frame hp hc hq ho hm =>
      exact hnone (by rw [reported, hp]) event sequence hr ht _
    | unreceived ready frame hp hn ho hm =>
      exact hnone (by rw [reported, hp]) event sequence hr ht _
    | submitted command ready sequence request frame hp hseq ho hm =>
      exact hnone (by rw [reported, hp]) event _ hr ht _
    | sampled x rest ready frame hp hq ho hm =>
      exact hnone (by rw [reported, hp]) event sequence hr ht _
    | unsampled ready hp hq => exact hnone (by rw [reported, hp]) event sequence hr ht _
    | requested x ready frame hp hk ho hm =>
      exact hnone (reported_requested hp hk) event sequence hr ht _
    | removed x kind ready frame hp ha hpend hk ho hm =>
      rw [reported_removed hp ha hpend, Option.some.injEq] at hr
      subst hr
      cases ht
      exact ⟨Option.some_ne_none _, signalled_publish h rfl hk hm⟩
    | driven ready event' drive frame hp hdrive ho hm =>
      exact hnone (by rw [reported, hp]) event sequence hr ht _
    | failed ready error drive frame hp hdrive ho hm =>
      exact hnone (by rw [reported, hp]) event sequence hr ht _
    | published event' x kind frame hp ht' hk ho hm =>
      rw [reported, hp, Option.some.injEq] at hr
      subst hr
      rw [ht', Option.some.injEq] at ht
      subst ht
      exact ⟨Option.some_ne_none _, signalled_publish h ht' hk hm⟩
    | unpublished event' hp ht' =>
      rw [reported, hp, Option.some.injEq] at hr
      subst hr
      rw [ht'] at ht
      cases ht

end Steps

section Runs

variable {interrupt : E → B → B} {backend : B} {budget : WorkBudget} {config : WifiConfig}
  {hpos : 0 < eventCapacity}

/-- The kinds of a run agree, also past the wrap. -/
theorem run_kinds (inputs : List (IncrementalInput E)) :
    ∃ t, Simulates (incrementalRun interrupt backend budget config hpos inputs) t ∧ Bounded t ∧
      Kinds (incrementalRun interrupt backend budget config hpos inputs) := by
  refine run_invariant (incrementalMachine interrupt)
    (I := fun s => ∃ t, Simulates s t ∧ Bounded t ∧ Kinds s) ?_ ?_ inputs
  · refine ⟨_, simulates_start backend budget config hpos, bounded_new hpos, ?_⟩
    intro entry hm
    cases hm
  · rintro s input ⟨t, hs, hb, hk⟩
    obtain ⟨u, hstep, hsim⟩ := simulates_step interrupt hs hb input
    exact ⟨u, hsim, service_bounded hb hstep, kinds_step interrupt hs hb hk input⟩

/-- Between the calls of every run the ledger agrees with the driver; no call reports a
disagreement, and each terminal event signals one completion. -/
theorem ledger_agrees (inputs : List (IncrementalInput E))
    (hb : (incrementalRun interrupt backend budget config hpos inputs).plane.allocated <
      2 ^ 32 - 1) :
    (∀ before after, inputs = before ++ after →
      (incrementalRun interrupt backend budget config hpos before).phase = .idle →
      Agrees (incrementalRun interrupt backend budget config hpos before)) ∧
    ∀ before ready after, inputs = before ++ .runner ready :: after →
      Publishes ready (incrementalRun interrupt backend budget config hpos before) := by
  constructor
  · intro before after he hp
    subst he
    obtain ⟨t, hs, hd⟩ := run_reached before (allocated_before hb)
    obtain ⟨-, -, -, hk⟩ := @run_kinds _ _ _ _ interrupt backend budget config hpos before
    exact agrees_of_idle hs hd hk hp
  · intro before ready after he
    obtain ⟨t, hs, hbd, hk⟩ := @run_kinds _ _ _ _ interrupt backend budget config hpos before
    exact publishes_of_kinds ready hs hbd hk

end Runs

/-- A disconnection is started and dropped, and replaced by another one. -/
def replacement : List (IncrementalInput Unit) :=
  [.control (.call .disconnect), .control .allocate, .control .send] ++
    List.replicate 5 (.runner .empty) ++
    [.control .drop, .control (.call .disconnect), .control .allocate, .control .send] ++
    List.replicate 6 (.runner .empty)

/-- Both disconnections are in the ledger while the first one is being cancelled. -/
theorem ledger_agrees_replacement :
    Agrees (replayRun replacement) ∧
    (replayRun replacement).frame.runner.ledger.entries.map (fun e => e.1.get) = [1, 2] := by
  have hb : (replayRun replacement).plane.allocated < 2 ^ 32 - 1 := by decide +kernel
  have hp : (replayRun replacement).phase = .idle := by decide +kernel
  have h := ledger_agrees replacement hb
  exact ⟨h.1 replacement [] (List.append_nil _).symm hp, by decide +kernel⟩

end HisiRfCore.LedgerAgreement
