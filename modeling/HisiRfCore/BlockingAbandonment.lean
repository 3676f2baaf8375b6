import HisiRfCore.BlockingCancellation

/-!
# Commands dropped before the blocking runner receives them

Such a command never reaches the backend. Once received it is answered exactly
once, as cancelled, within four further steps of the runner: the drain passes at
most two older cancellations before it finds its own.
-/

namespace HisiRfCore.BlockingAbandonment

open NonZeroCounter BoundedChannel WifiTypes RadioStorage AsyncControl ServiceProtocol
open ServiceDelivery BlockingRunner BlockingService BlockingCancellation InputOutputMachine

variable {B E : Type} {eventCapacity : ℕ}

/-- Completions signalled for a sequence, oldest first. -/
def completionsFor (sequence : UInt32) (s : BlockingSystem B eventCapacity) : List Completion :=
  s.frame.shared.completion.written.filter (fun x => x.sequence = sequence)

/-- The sequence is allocated and no command carrying it was or will be sent. -/
structure Unsent (sequence : UInt32) (s : BlockingSystem B eventCapacity) : Prop where
  /-- It is not newer than the counter. -/
  old : sequence.toNat ≤ s.plane.allocated
  /-- No command with it was sent. -/
  sent : ∀ d ∈ s.frame.shared.commands.sent, d.sequence ≠ sequence
  /-- No future waits to send it. -/
  sending : ∀ x call, s.plane.future = .sending x call → x ≠ sequence

/-- The service that a reachable state of the blocking system stands for, with the
facts about the cancellations taken and the commands handed to the backend. -/
structure Tracked (s : BlockingSystem B eventCapacity) (t : Service eventCapacity) : Prop where
  /-- The state stands for the service. -/
  simulates : Simulates s t
  /-- The service delivers. -/
  delivers : Delivers t
  /-- No needed cancellation was taken. -/
  untaken : Untaken s
  /-- The backend only saw received commands. -/
  called : ∀ d ∈ s.called, d ∈ s.frame.shared.commands.received

variable [WifiBackend B]

section Steps

variable {s : BlockingSystem B eventCapacity} {t : Service eventCapacity}

/-- A runner step leaves the controller alone. -/
theorem effect_plane {next : BlockingSystem B eventCapacity} (he : RunnerEffect s next) :
    next.plane = s.plane := by
  cases he <;> rfl

/-- A runner step sends no command. -/
theorem effect_sent {next : BlockingSystem B eventCapacity} (he : RunnerEffect s next) :
    next.frame.shared.commands.sent = s.frame.shared.commands.sent := by
  cases he with
  | passed frame phase hp hm hn => exact congrArg (fun m => m.commands.sent) hm
  | received command rest polls frame hp hq hm =>
    exact (congrArg (fun m => m.commands.sent) hm).trans (tryReceive_sent _)
  | cancelled command polls hp =>
    exact congrArg (fun m => m.commands.sent) (cancelCommand_mailbox command s.frame.shared)
  | called command polls hp =>
    obtain ⟨scanResults, hm⟩ := callBackend_mailbox command s.frame
    exact congrArg (fun m => m.commands.sent) hm
  | _ => rfl

/-- No step takes an allocation back. -/
theorem allocated_le_next (interrupt : E → B → B) (input : BlockingInput E) :
    s.plane.allocated ≤ ((blockingMachine interrupt).next s input).plane.allocated := by
  cases input with
  | control step => exact allocated_le_step s.plane s.frame.shared step
  | runner mode =>
    have hp := effect_plane (runnerStep_effect mode s)
    exact Nat.le_of_eq (congrArg ControlPlane.allocated hp.symm)
  | backendEvent event => exact Nat.le_refl _

/-- Received commands stay received, and the backend only sees received ones. -/
theorem called_step (interrupt : E → B → B) (hs : Simulates s t) (hd : Delivers t)
    (hc : ∀ d ∈ s.called, d ∈ s.frame.shared.commands.received) (input : BlockingInput E) :
    ∀ d ∈ ((blockingMachine interrupt).next s input).called,
      d ∈ ((blockingMachine interrupt).next s input).frame.shared.commands.received := by
  cases input with
  | control step =>
    have hf := control_forwards (step_effect s.plane s.frame.shared step)
    have hr : (s.plane.step s.frame.shared step).2.commands.received =
        s.frame.shared.commands.received := hf.commandsReceived
    intro d hd'
    simp only [Machine.next, blockingMachine, hr] at hd' ⊢
    exact hc d hd'
  | backendEvent event => exact hc
  | runner mode =>
    have he := runnerStep_effect mode s
    simp only [Machine.next, blockingMachine]
    generalize (runnerStep mode s).1 = next at he
    cases he with
    | passed frame phase hp hm hn =>
      have hx : frame.shared.commands = s.frame.shared.commands := congrArg Mailbox.commands hm
      simpa only [hx] using hc
    | received command rest polls frame hp hq hm =>
      have hx : frame.shared.commands = s.frame.shared.commands.tryReceive.2 :=
        congrArg Mailbox.commands hm
      intro d hd'
      simp only [hx, (tryReceive_of_cons hq).2.1]
      exact List.mem_append_left _ (hc d hd')
    | drained command polls hp hq => exact hc
    | skipped command polls taken rest hp hq hn => exact hc
    | matched command polls rest hp hq => exact hc
    | cancelled command polls hp =>
      have hx : (cancelCommand command s.frame.shared).commands = s.frame.shared.commands :=
        congrArg Mailbox.commands (cancelCommand_mailbox command s.frame.shared)
      simpa only [hx] using hc
    | called command polls hp =>
      obtain ⟨scanResults, hm⟩ := callBackend_mailbox command s.frame
      have hx : (callBackend command s.frame).2.shared.commands = s.frame.shared.commands :=
        congrArg Mailbox.commands hm
      have hi : command ∈ t.inflight := by
        rw [hs.inflight, hp]
        exact List.mem_singleton.mpr rfl
      have hr := hd.inflight_received hi
      rw [hs.shared] at hr
      intro d hd'
      simp only [hx]
      rcases List.mem_append.mp hd' with hd' | hd'
      · exact hc d hd'
      · rw [List.mem_singleton.mp hd']
        exact hr
    | signalled command kind polls hp => exact hc

/-- Below the wrap every step keeps a state tracked. -/
theorem tracked_step (interrupt : E → B → B) (h : Tracked s t) (input : BlockingInput E)
    (hb : ((blockingMachine interrupt).next s input).plane.allocated < 2 ^ 32 - 1) :
    ∃ u, Tracked ((blockingMachine interrupt).next s input) u := by
  obtain ⟨u, hstep, hsim⟩ := simulates_step interrupt h.simulates input
  have hbound : u.plane.allocated < 2 ^ 32 - 1 := by
    rw [hsim.plane]
    exact hb
  exact ⟨u, hsim, service_delivers h.delivers hstep hbound,
    untaken_step interrupt h.simulates h.delivers h.untaken input,
    called_step interrupt h.simulates h.delivers h.called input⟩

/-- A sequence whose future was dropped before it was sent is never sent. -/
theorem unsent_step (interrupt : E → B → B) (hd : Tracked s t) {sequence : UInt32}
    (h : Unsent sequence s) (input : BlockingInput E)
    (hb : ((blockingMachine interrupt).next s input).plane.allocated < 2 ^ 32 - 1) :
    Unsent sequence ((blockingMachine interrupt).next s input) := by
  cases input with
  | backendEvent event => exact ⟨h.old, h.sent, h.sending⟩
  | runner mode =>
    have hp := effect_plane (runnerStep_effect mode s)
    have hs := effect_sent (runnerStep_effect mode s)
    simp only [Machine.next, blockingMachine] at hp hs ⊢
    exact ⟨hp ▸ h.old, hs ▸ h.sent, hp ▸ h.sending⟩
  | control step =>
    have he := step_effect s.plane s.frame.shared step
    simp only [Machine.next, blockingMachine] at hb ⊢
    generalize s.plane.step s.frame.shared step = next at he hb
    cases he with
    | quiet shared' hm =>
      have hc : shared'.commands = s.frame.shared.commands := congrArg Mailbox.commands hm
      exact ⟨h.old, by simpa only [hc] using h.sent, h.sending⟩
    | unsent future hu hf =>
      refine ⟨h.old, h.sent, ?_⟩
      intro x call hx
      rcases hf with rfl | ⟨created, rfl⟩ <;> cases hx
    | allocated call hf =>
      have hcount := hd.delivers.traffic.counter
      rw [hd.simulates.plane] at hcount
      simp only [ControlPlane.allocateSequence] at hb
      refine ⟨Nat.le_succ_of_le h.old, h.sent, ?_⟩
      intro x created hx he
      simp only [ControlPlane.allocateSequence, ControlFuture.sending.injEq] at hx
      have hval := @advance_toNat s.plane.nextSequence (by omega)
      have hold := h.old
      rw [← he, ← hx.1, hval, hcount] at hold
      omega
    | sent x call hf shared' commands hq hr hs hm =>
      have hc : shared'.commands = commands := congrArg Mailbox.commands hm
      refine ⟨h.old, ?_, fun y created hy => by cases hy⟩
      intro d hd'
      simp only [hc, Channel.sent, hr, hs] at hd'
      rcases List.mem_append.mp hd' with hd' | hd'
      · exact h.sent d (List.mem_append_left _ hd')
      · rw [List.mem_singleton.mp hd']
        exact h.sending x call hf
    | discarded x call hf completion hv hs => exact ⟨h.old, h.sent, h.sending⟩
    | taken x call kind hf hv => exact ⟨h.old, h.sent, fun y created hy => by cases hy⟩
    | resolved x call kind hf result hr =>
      exact ⟨h.old, h.sent, fun y created hy => by cases hy⟩
    | dropped command hf => exact ⟨h.old, h.sent, fun y created hy => by cases hy⟩

end Steps

section Drop

variable {s : BlockingSystem B eventCapacity} {t : Service eventCapacity} {c : Command}

/-- A command dropped before it was received. -/
def Dropped (c : Command) (s : BlockingSystem B eventCapacity) : Prop :=
  Abandoned c s ∨ Unsent c.sequence s

omit [WifiBackend B] in
/-- A call that took its completion was received. -/
theorem finishing_received (h : Tracked s t) {sequence : UInt32} {call : ControlCall}
    {kind : CompletionKind} (hf : s.plane.future = .finishing sequence call kind) :
    ⟨sequence, call.command⟩ ∈ s.frame.shared.commands.received := by
  rw [← h.simulates.plane] at hf
  have hr := h.delivers.answers.answered_received (h.delivers.delivery.held sequence call kind hf)
  rw [← h.simulates.shared]
  exact hr

/-- Dropping a future before its command was received leaves the command dropped. -/
theorem dropped_of_drop (interrupt : E → B → B) (h : Tracked s t)
    (hlive : s.plane.future.requested = some c)
    (hr : c ∉ s.frame.shared.commands.received) :
    Dropped c ((blockingMachine interrupt).next s (.control .drop)) := by
  have hcalled : ∀ d ∈ s.called, d ∈ s.frame.shared.commands.sent :=
    fun d hd => mem_sent_of_received (h.called d hd)
  cases hf : s.plane.future with
  | idle =>
    rw [hf] at hlive
    cases hlive
  | created call =>
    rw [hf] at hlive
    cases hlive
  | sending sequence call =>
    rw [hf] at hlive
    cases hlive
    have htr := h.delivers.traffic
    rw [h.simulates.plane, h.simulates.shared] at htr
    obtain ⟨hseq, hfresh⟩ := htr.fresh sequence call hf
    have hval : sequence.toNat = s.plane.allocated := by
      rw [hseq, htr.counter]
    refine Or.inr ?_
    simp only [Machine.next, blockingMachine, ControlPlane.step, hf]
    refine ⟨Nat.le_of_eq hval, ?_, fun x created hx => by cases hx⟩
    intro d hd he
    have hlt := hfresh d hd
    rw [he] at hlt
    omega
  | finishing sequence call kind =>
    rw [hf] at hlive
    cases hlive
    exact (hr (finishing_received h hf)).elim
  | waiting sequence call =>
    rw [hf] at hlive
    cases hlive
    have htr := h.delivers.traffic
    have hroom := h.delivers.bounded.counted.room (by rw [h.simulates.plane, hf]; rfl)
    have hcanc : t.view.mailbox.cancellations = s.frame.shared.cancellations :=
      congrArg SharedState.cancellations h.simulates.shared
    rw [h.simulates.plane, h.simulates.shared] at htr
    rw [hcanc] at hroom
    have hsent := htr.live_sent (c := ⟨sequence, call.command⟩) (by rw [hf]; rfl)
    have hqueued : ⟨sequence, call.command⟩ ∈ s.frame.shared.commands.queued := by
      rcases List.mem_append.mp hsent with hm | hm
      · exact (hr hm).elim
      · exact hm
    refine Or.inl ?_
    simp only [Machine.next, blockingMachine, ControlPlane.step, hf, ControlPlane.dropGuard]
    refine ⟨hsent, ?_, .queued hqueued ?_⟩
    · intro d hd he
      have hsame := htr.sequence_inj (hcalled d hd) hsent he
      rw [hsame] at hd
      exact hr (h.called _ hd)
    · dsimp only
      rw [(trySend_of_lt hroom).2.2]
      exact List.mem_append_right _ (List.mem_singleton.mpr rfl)

/-- Every step keeps a command dropped. -/
theorem dropped_step (interrupt : E → B → B) (h : Tracked s t) (hd : Dropped c s)
    (input : BlockingInput E)
    (hb : ((blockingMachine interrupt).next s input).plane.allocated < 2 ^ 32 - 1) :
    Dropped c ((blockingMachine interrupt).next s input) := by
  rcases hd with ha | hu
  · exact Or.inl (abandoned_step interrupt h.simulates h.delivers h.untaken ha input)
  · exact Or.inr (unsent_step interrupt h hu input hb)

/-- The backend never sees the command; once received it has one completion, the
cancelled one, unless the runner is still draining or cancelling it. -/
structure CancelledUnseen (c : Command) (s : BlockingSystem B eventCapacity) : Prop where
  /-- No backend operation was called for the sequence. -/
  uncalled : ∀ d ∈ s.called, d.sequence ≠ c.sequence
  /-- Before the receipt there is no completion. -/
  unreceived : c ∉ s.frame.shared.commands.received → completionsFor c.sequence s = []
  /-- After it there is the cancelled one, or the runner is working on it. -/
  received : c ∈ s.frame.shared.commands.received →
    completionsFor c.sequence s = [⟨c.sequence, cancelledKind c⟩] ∨
      completionsFor c.sequence s = [] ∧ c ∈ BlockingPhase.current s.phase

omit [WifiBackend B] in
/-- A cancelled completion of a sent command is its only one. -/
theorem completionsFor_cancelled (h : Tracked s t) (hc : c ∈ s.frame.shared.commands.sent)
    (hw : ⟨c.sequence, cancelledKind c⟩ ∈ s.frame.shared.completion.written) :
    completionsFor c.sequence s = [⟨c.sequence, cancelledKind c⟩] := by
  rw [← h.simulates.shared] at hc hw
  have ha := h.delivers.answered_of_written hc hw rfl
  have hone := h.delivers.completion_answered ha
  rw [h.simulates.shared] at hone
  exact hone

omit [WifiBackend B] in
/-- A dropped command stays unseen by the backend. -/
theorem cancelledUnseen_of_dropped (h : Tracked s t) (hd : Dropped c s) : CancelledUnseen c s := by
  have hnone : ∀ d ∈ s.frame.shared.commands.sent, d ∉ t.answered.map Prod.fst →
      completionsFor d.sequence s = [] := by
    intro d hds hna
    rw [← h.simulates.shared] at hds
    have hempty := h.delivers.completion_unanswered hds hna
    rw [h.simulates.shared] at hempty
    exact hempty
  rcases hd with ha | hu
  · have hunreceived : c ∈ s.frame.shared.commands.queued →
        c ∉ s.frame.shared.commands.received := by
      intro hq hr
      rw [← h.simulates.shared] at hq hr
      have hlt := h.delivers.received_old hr hq
      omega
    have hcurrent : c ∈ BlockingPhase.current s.phase →
        completionsFor c.sequence s = [] ∧ c ∈ s.frame.shared.commands.received := by
      intro hc
      rw [← h.simulates.inflight] at hc
      have hr := h.delivers.inflight_received hc
      rw [h.simulates.shared] at hr
      exact ⟨hnone c ha.sent (h.delivers.inflight_unanswered hc), hr⟩
    refine ⟨ha.uncalled, ?_, ?_⟩
    · intro hr
      refine hnone c ha.sent fun hans => hr ?_
      obtain ⟨x, hx, he⟩ := List.mem_map.mp hans
      have hrec := h.delivers.answers.answered_received hx
      rw [he] at hrec
      rw [← h.simulates.shared]
      exact hrec
    · intro hr
      cases ha.stage with
      | queued hq hx => exact (hunreceived hq hr).elim
      | draining polls hp hx =>
        have hc : c ∈ BlockingPhase.current s.phase := by
          rw [hp]
          exact List.mem_singleton.mpr rfl
        exact Or.inr ⟨(hcurrent hc).1, hc⟩
      | cancelling polls hp =>
        have hc : c ∈ BlockingPhase.current s.phase := by
          rw [hp]
          exact List.mem_singleton.mpr rfl
        exact Or.inr ⟨(hcurrent hc).1, hc⟩
      | answered hw => exact Or.inl (completionsFor_cancelled h ha.sent hw)
  · refine ⟨fun d hd => hu.sent d (mem_sent_of_received (h.called d hd)), ?_, ?_⟩
    · intro hr
      refine List.filter_eq_nil_iff.mpr fun x hx he => ?_
      rw [← h.simulates.shared] at hx
      have hw : t.shared.completion.written = t.answered.map completionOf :=
        h.delivers.answers.written
      rw [hw] at hx
      obtain ⟨a, ha, rfl⟩ := List.mem_map.mp hx
      have hrec := mem_sent_of_received (h.delivers.answers.answered_received ha)
      have hsent : a.1 ∈ s.frame.shared.commands.sent := by
        rw [← h.simulates.shared]
        exact hrec
      exact hu.sent a.1 hsent (of_decide_eq_true he)
    · intro hr
      exact (hu.sent c (mem_sent_of_received hr) rfl).elim

end Drop

section Progress

/-- Within the given number of runner steps the command is answered as cancelled. -/
inductive Settling (c : Command) (n : ℕ) (s : BlockingSystem B eventCapacity) : Prop
  | draining (polls : Bool) (before after : List UInt32) (hp : s.phase = .draining c polls)
      (hq : s.frame.shared.cancellations.queued = before ++ c.sequence :: after)
      (hn : before.length + 2 ≤ n)
  | cancelling (polls : Bool) (hp : s.phase = .cancelling c polls) (hn : 1 ≤ n)
  | answered (hw : ⟨c.sequence, cancelledKind c⟩ ∈ s.frame.shared.completion.written)

/-- A step of the other parties keeps the number of runner steps left. -/
theorem settling_other (interrupt : E → B → B) {c : Command} (n : ℕ)
    (s : BlockingSystem B eventCapacity) (input : BlockingInput E) (hi : input.isRunner = false)
    (h : Settling c n s) : Settling c n ((blockingMachine interrupt).next s input) := by
  cases input with
  | runner mode => cases hi
  | backendEvent event =>
    cases h with
    | draining polls before after hp hq hn => exact .draining polls before after hp hq hn
    | cancelling polls hp hn => exact .cancelling polls hp hn
    | answered hw => exact .answered hw
  | control step =>
    have hf := control_forwards (step_effect s.plane s.frame.shared step)
    cases h with
    | draining polls before after hp hq hn =>
      obtain ⟨more, hm⟩ := hf.cancellations
      have hq' : (s.plane.step s.frame.shared step).2.cancellations.queued =
          before ++ c.sequence :: (after ++ more) := by
        refine hm.symm.trans ?_
        show s.frame.shared.cancellations.queued ++ more = _
        rw [hq, List.append_assoc, List.cons_append]
      exact .draining polls before _ hp hq' hn
    | cancelling polls hp hn => exact .cancelling polls hp hn
    | answered hw =>
      have hwritten : (s.plane.step s.frame.shared step).2.completion.written =
          s.frame.shared.completion.written := hf.written
      refine .answered ?_
      simp only [Machine.next, blockingMachine, hwritten]
      exact hw

/-- A runner step uses one of the steps left. -/
theorem settling_runner (interrupt : E → B → B) {c : Command} (n : ℕ)
    (s : BlockingSystem B eventCapacity) (input : BlockingInput E) (hi : input.isRunner = true)
    (h : Settling c n s) : Settling c (n - 1) ((blockingMachine interrupt).next s input) := by
  cases input with
  | control step => cases hi
  | backendEvent event => cases hi
  | runner mode =>
    simp only [Machine.next, blockingMachine]
    cases h with
    | draining polls before after hp hq hn =>
      have he := runnerStep_effect mode s
      generalize (runnerStep mode s).1 = next at he
      cases he with
      | passed frame phase hp' hm hnp =>
        rw [hp] at hp'
        cases hp'
      | received command rest polls' frame hp' hq' hm => cases hp.symm.trans hp'
      | drained command polls' hp' hq' =>
        rw [hq] at hq'
        simp at hq'
      | skipped command polls' taken rest hp' hq' hne =>
        cases hp.symm.trans hp'
        cases before with
        | nil =>
          rw [hq, List.nil_append, List.cons.injEq] at hq'
          exact (hne hq'.1.symm).elim
        | cons first before =>
          rw [hq, List.cons_append, List.cons.injEq] at hq'
          have hr := (tryReceive_of_cons (hq.trans List.cons_append)).2.2
          rw [List.length_cons] at hn
          exact .draining polls before after hp hr (by omega)
      | matched command polls' rest hp' hq' =>
        cases hp.symm.trans hp'
        exact .cancelling polls rfl (by omega)
      | cancelled command polls' hp' => cases hp.symm.trans hp'
      | called command polls' hp' => cases hp.symm.trans hp'
      | signalled command kind polls' hp' => cases hp.symm.trans hp'
    | cancelling polls hp hn =>
      refine .answered ?_
      have hm := congrArg (fun m => m.completion.written) (cancelCommand_mailbox c s.frame.shared)
      have hw : (cancelCommand c s.frame.shared).completion.written =
          s.frame.shared.completion.written ++ [⟨c.sequence, cancelledKind c⟩] := hm
      simp only [runnerStep, hp, hw]
      exact List.mem_append_right _ (List.mem_singleton.mpr rfl)
    | answered hw =>
      refine .answered ?_
      have he := runnerStep_effect mode s
      generalize (runnerStep mode s).1 = next at he
      cases he with
      | passed frame phase hp hm hn =>
        have hc : frame.shared.completion = s.frame.shared.completion :=
          congrArg Mailbox.completion hm
        simpa only [hc] using hw
      | received command rest polls frame hp hq hm =>
        have hc : frame.shared.completion = s.frame.shared.completion :=
          congrArg Mailbox.completion hm
        simpa only [hc] using hw
      | drained command polls hp hq => exact hw
      | skipped command polls taken rest hp hq hn => exact hw
      | matched command polls rest hp hq => exact hw
      | cancelled command polls hp =>
        have hm := congrArg (fun m => m.completion.written)
          (cancelCommand_mailbox command s.frame.shared)
        have hc : (cancelCommand command s.frame.shared).completion.written =
            s.frame.shared.completion.written ++ [⟨command.sequence, cancelledKind command⟩] := hm
        simp only [hc]
        exact List.mem_append_left _ hw
      | called command polls hp =>
        obtain ⟨scanResults, hm⟩ := callBackend_mailbox command s.frame
        have hc : (callBackend command s.frame).2.shared.completion = s.frame.shared.completion :=
          congrArg Mailbox.completion hm
        simpa only [hc] using hw
      | signalled command kind polls hp => exact List.mem_append_left _ hw

omit [WifiBackend B] in
/-- A received abandoned command is answered within four runner steps: its
cancellation is behind at most two others. -/
theorem settling_of_received {s : BlockingSystem B eventCapacity} {t : Service eventCapacity}
    {c : Command} (h : Tracked s t) (ha : Abandoned c s)
    (hr : c ∈ s.frame.shared.commands.received) : Settling c 4 s := by
  cases ha.stage with
  | queued hq hx =>
    rw [← h.simulates.shared] at hq hr
    have hlt := h.delivers.received_old hr hq
    omega
  | draining polls hp hx =>
    obtain ⟨before, after, hq⟩ := List.append_of_mem hx
    have hb := s.frame.shared.cancellations.bounded
    rw [hq, List.length_append, List.length_cons] at hb
    exact .draining polls before after hp hq (by omega)
  | cancelling polls hp => exact .cancelling polls hp (by omega)
  | answered hw => exact .answered hw

end Progress

section Runs

variable (interrupt : E → B → B) (backend : B) (config : WifiConfig) (hpos : 0 < eventCapacity)

/-- State of the system after a schedule. -/
def blockingRun (inputs : List (BlockingInput E)) : BlockingSystem B eventCapacity :=
  (blockingMachine interrupt).run (blockingStart backend config hpos) inputs

variable {interrupt backend config hpos}

/-- A bound on the sequences allocated by a run bounds those of its prefixes. -/
theorem bound_before {before after : List (BlockingInput E)}
    (hb : (blockingRun interrupt backend config hpos (before ++ after)).plane.allocated <
      2 ^ 32 - 1) :
    (blockingRun interrupt backend config hpos before).plane.allocated < 2 ^ 32 - 1 := by
  refine bound_of_append (blockingMachine interrupt)
    (B := fun s => s.plane.allocated < 2 ^ 32 - 1) ?_ hb
  intro before input hn
  exact Nat.lt_of_le_of_lt (allocated_le_next interrupt input) hn

/-- Below the wrap every reachable state is tracked. -/
theorem run_tracked {inputs : List (BlockingInput E)}
    (hb : (blockingRun interrupt backend config hpos inputs).plane.allocated < 2 ^ 32 - 1) :
    ∃ t, Tracked (blockingRun interrupt backend config hpos inputs) t := by
  refine run_invariant_below (blockingMachine interrupt) (I := fun s => ∃ t, Tracked s t)
    (B := fun s => s.plane.allocated < 2 ^ 32 - 1) ?_ ?_ ?_ inputs hb
  · refine ⟨.new hpos, simulates_start backend config hpos, delivers_new hpos, ?_, ?_⟩
    · constructor
      · intro x hx
        cases hx
      · intro x hx
        cases hx
    · intro d hd
      cases hd
  · intro before input hn
    exact Nat.lt_of_le_of_lt (allocated_le_next interrupt input) hn
  · rintro s input hn ⟨t, h⟩
    exact tracked_step interrupt h input hn

/-- A command dropped before its receipt stays dropped. -/
theorem run_dropped {before after : List (BlockingInput E)} {c : Command}
    (hb : (blockingRun interrupt backend config hpos
      (before ++ .control .drop :: after)).plane.allocated < 2 ^ 32 - 1)
    (hlive : (blockingRun interrupt backend config hpos before).plane.future.requested = some c)
    (hr : c ∉ (blockingRun interrupt backend config hpos before).frame.shared.commands.received) :
    Dropped c (blockingRun interrupt backend config hpos (before ++ .control .drop :: after)) := by
  induction after using List.reverseRecOn with
  | nil =>
    obtain ⟨t, ht⟩ := run_tracked (bound_before hb)
    have hd := dropped_of_drop interrupt ht hlive hr
    rw [blockingRun, run_concat]
    exact hd
  | append_singleton after input ih =>
    rw [← List.cons_append, ← List.append_assoc] at hb ⊢
    have hbefore := bound_before hb
    obtain ⟨t, ht⟩ := run_tracked hbefore
    rw [blockingRun, run_concat] at hb ⊢
    exact dropped_step interrupt ht (ih hbefore) input hb

/-- A command whose future is dropped before the runner receives it is never
handed to the backend and gets exactly one completion, the cancelled one of its
own kind, within four steps of the runner after its receipt. A drain never takes
the cancellation of a command newer than the one it drains for. -/
theorem dropped_before_receipt (inputs : List (BlockingInput E))
    (hb : (blockingRun interrupt backend config hpos inputs).plane.allocated < 2 ^ 32 - 1) :
    (∀ before after c, inputs = before ++ .control .drop :: after →
      (blockingRun interrupt backend config hpos before).plane.future.requested = some c →
      c ∉ (blockingRun interrupt backend config hpos before).frame.shared.commands.received →
      CancelledUnseen c (blockingRun interrupt backend config hpos inputs) ∧
      ∀ middle rest, after = middle ++ rest →
        c ∈ (blockingRun interrupt backend config hpos
          (before ++ .control .drop :: middle)).frame.shared.commands.received →
        4 ≤ rest.countP BlockingInput.isRunner →
        completionsFor c.sequence (blockingRun interrupt backend config hpos inputs) =
          [⟨c.sequence, cancelledKind c⟩]) ∧
    ∀ c polls x rest,
      (blockingRun interrupt backend config hpos inputs).phase = .draining c polls →
      (blockingRun interrupt backend config hpos inputs).frame.shared.cancellations.queued =
        x :: rest →
      x.toNat ≤ c.sequence.toNat ∧
      ∀ earlier later,
        (blockingRun interrupt backend config hpos inputs).frame.shared.commands.sent =
          earlier ++ c :: later →
        ∀ d ∈ later, d.sequence ≠ x := by
  obtain ⟨t, ht⟩ := run_tracked hb
  constructor
  · rintro before after c rfl hlive hr
    have hdropped := run_dropped hb hlive hr
    refine ⟨cancelledUnseen_of_dropped ht hdropped, ?_⟩
    rintro middle rest rfl hreceived hcount
    rw [← List.cons_append, ← List.append_assoc] at hb ht hdropped ⊢
    have hmiddle := bound_before hb
    obtain ⟨u, hu⟩ := run_tracked hmiddle
    rcases run_dropped hmiddle hlive hr with ha | hunsent
    · have hsettling := run_progress (blockingMachine interrupt)
        (P := fun n s => Settling c n s) (settling_runner interrupt) (settling_other interrupt)
        (settling_of_received hu ha hreceived) rest
      rw [Nat.sub_eq_zero_of_le hcount] at hsettling
      have hrun : blockingRun interrupt backend config hpos
          (before ++ .control .drop :: middle ++ rest) =
          (blockingMachine interrupt).run (blockingRun interrupt backend config hpos
            (before ++ .control .drop :: middle)) rest := run_append _ _ _ _
      rw [hrun] at ht hdropped ⊢
      cases hsettling with
      | draining polls before' after' hp hq hn => omega
      | cancelling polls hp hn => omega
      | answered hw =>
        rcases hdropped with hd | hd
        · exact completionsFor_cancelled ht hd.sent hw
        · -- the completion is that of a sent command
          have hempty := (cancelledUnseen_of_dropped ht (Or.inr hd)).unreceived
            fun hc => hd.sent c (mem_sent_of_received hc) rfl
          have hnone := List.filter_eq_nil_iff.mp hempty _ hw
          exact (hnone (decide_eq_true rfl)).elim
    · exact (hunsent.sent c (mem_sent_of_received hreceived) rfl).elim
  · intro c polls x rest hp hq
    have hle := drain_head ht.simulates ht.delivers ht.untaken hp hq
    refine ⟨hle, ?_⟩
    intro earlier later hs d hd he
    have hinc := ht.delivers.traffic.increasing
    rw [ht.simulates.shared, hs] at hinc
    have hlt := (List.pairwise_cons.mp (List.pairwise_append.mp hinc).2.1).1 d hd
    rw [he] at hlt
    omega

end Runs

/-- The disconnect future is dropped while its command is still queued. -/
def queuedDrop : List (BlockingInput Unit) :=
  [.control (.call .disconnect), .control .allocate, .control .send]

/-- Run of a scripted backend that nothing interrupts. -/
def scriptedRun (inputs : List (BlockingInput Unit)) : BlockingSystem ScriptedBackend 1 :=
  blockingRun (fun (_ : Unit) backend => backend) ⟨[]⟩ .default Nat.one_pos inputs

/-- Receipt of the dropped command and four further runner steps. -/
theorem dropped_before_receipt_scripted :
    completionsFor 1 (scriptedRun (queuedDrop ++ .control .drop ::
      ([.runner .runOnce] ++ List.replicate 4 (.runner .runOnce)))) =
      [⟨1, cancelledKind ⟨1, .disconnect⟩⟩] := by
  have hb : (scriptedRun (queuedDrop ++ .control .drop :: ([.runner .runOnce] ++
      List.replicate 4 (.runner .runOnce)))).plane.allocated < 2 ^ 32 - 1 := by decide +kernel
  have hlive : (scriptedRun queuedDrop).plane.future.requested = some ⟨1, .disconnect⟩ := by
    decide +kernel
  have hr : ⟨1, .disconnect⟩ ∉ (scriptedRun queuedDrop).frame.shared.commands.received := by
    decide +kernel
  have hreceived : ⟨1, .disconnect⟩ ∈ (scriptedRun (queuedDrop ++ .control .drop ::
      [.runner .runOnce])).frame.shared.commands.received := by decide +kernel
  have hunseen := (dropped_before_receipt _ hb).1 _ _ _ rfl hlive hr
  exact hunseen.2 _ _ rfl hreceived (by decide)

end HisiRfCore.BlockingAbandonment
