import HisiRfCore.BlockingService

/-!
# Cancellation before a blocking command is received

A command whose future was dropped while the command was still queued is
cancelled by the drain that follows its receipt. The argument is about the order
of the cancellation queue: a drain only takes cancellations of commands that are
not newer than its own, so the cancellation of a queued command stays queued.
-/

namespace HisiRfCore.BlockingCancellation

open BoundedChannel WifiTypes RadioStorage AsyncControl ServiceProtocol ServiceDelivery
open BlockingRunner BlockingService InputOutputMachine

variable {B E : Type} {eventCapacity : ℕ}

/-- Cancellations taken so far are not those of a queued command or of the one
being drained. -/
structure Untaken (s : BlockingSystem B eventCapacity) : Prop where
  /-- No queued command lost its cancellation. -/
  queued : ∀ x ∈ s.frame.shared.cancellations.received, ∀ c ∈ s.frame.shared.commands.queued,
    c.sequence ≠ x
  /-- The drained command did not lose its cancellation. -/
  draining : ∀ x ∈ s.frame.shared.cancellations.received, ∀ c polls,
    s.phase = .draining c polls → c.sequence ≠ x

section Order

variable {s : BlockingSystem B eventCapacity} {t : Service eventCapacity}

/-- The drained command was received and is not answered. -/
theorem drained_received (hs : Simulates s t) (hd : Delivers t) {c : Command} {polls : Bool}
    (hp : s.phase = .draining c polls) :
    c ∈ s.frame.shared.commands.received ∧ c ∉ t.answered.map Prod.fst := by
  have hi : c ∈ t.inflight := by
    rw [hs.inflight, hp]
    exact List.mem_singleton.mpr rfl
  have hr := hd.inflight_received hi
  rw [hs.shared] at hr
  exact ⟨hr, hd.inflight_unanswered hi⟩

/-- The cancellation in front of a drain is not that of a newer command. -/
theorem drain_head (hs : Simulates s t) (hd : Delivers t) (hu : Untaken s) {c : Command}
    {polls : Bool} (hp : s.phase = .draining c polls) {x : UInt32} {rest : List UInt32}
    (hq : s.frame.shared.cancellations.queued = x :: rest) :
    x.toNat ≤ c.sequence.toNat := by
  by_contra hlt
  obtain ⟨hr, hn⟩ := drained_received hs hd hp
  have hsent : c ∈ t.shared.commands.sent := by
    rw [hs.shared]
    exact mem_sent_of_received hr
  have hdrop : t.shared.cancellations.sent = t.plane.dropped := hd.bounded.counted.delivered
  have hx : x ∈ t.plane.dropped := by
    rw [← hdrop, hs.shared, Channel.sent, hq]
    exact List.mem_append_right _ List.mem_cons_self
  rcases hd.delivery.accounted c hsent with hl | hl | hl
  · have hold := hd.traffic.droppedOld c hl x hx
    omega
  · rw [← hdrop, hs.shared, Channel.sent, hq] at hl
    rcases List.mem_append.mp hl with hl | hl
    · exact hu.draining _ hl c polls hp rfl
    · have hinc := hd.cancellations_increasing
      rw [hs.shared, Channel.sent, hq] at hinc
      have hrest := (List.pairwise_append.mp hinc).2.1
      rcases List.mem_cons.mp hl with he | hm
      · rw [he] at hlt
        exact hlt (Nat.le_refl _)
      · have hc := (List.pairwise_cons.mp hrest).1 _ hm
        omega
  · exact hn hl

/-- The cancellation in front of a drain is not that of a queued command. -/
theorem drain_head_queued (hs : Simulates s t) (hd : Delivers t) (hu : Untaken s) {c : Command}
    {polls : Bool} (hp : s.phase = .draining c polls) {x : UInt32} {rest : List UInt32}
    (hq : s.frame.shared.cancellations.queued = x :: rest) {d : Command}
    (hdq : d ∈ s.frame.shared.commands.queued) : d.sequence ≠ x := by
  intro he
  have hle := drain_head hs hd hu hp hq
  obtain ⟨hr, -⟩ := drained_received hs hd hp
  rw [← hs.shared] at hr hdq
  have hlt := hd.received_old hr hdq
  rw [he] at hlt
  omega

/-- What a drain takes is no sequence of a queued command either. -/
theorem taken_queued (hs : Simulates s t) (hd : Delivers t) (hu : Untaken s) {command : Command}
    {polls : Bool} (hp : s.phase = .draining command polls) {taken : UInt32} {rest : List UInt32}
    (hq : s.frame.shared.cancellations.queued = taken :: rest) {x : UInt32}
    (hx : x ∈ s.frame.shared.cancellations.tryReceive.2.received) {c : Command}
    (hc : c ∈ s.frame.shared.commands.queued) : c.sequence ≠ x := by
  rw [(tryReceive_of_cons hq).2.1] at hx
  rcases List.mem_append.mp hx with hx | hx
  · exact hu.queued x hx c hc
  · rw [List.mem_singleton.mp hx]
    exact drain_head_queued hs hd hu hp hq hc

end Order

section UntakenSteps

variable {s : BlockingSystem B eventCapacity} {t : Service eventCapacity}

/-- A step that leaves both channels alone and begins no drain takes nothing. -/
theorem Untaken.away {next : BlockingSystem B eventCapacity} (hu : Untaken s)
    (hc : next.frame.shared.commands = s.frame.shared.commands)
    (hx : next.frame.shared.cancellations = s.frame.shared.cancellations)
    (hp : ∀ c polls, next.phase ≠ .draining c polls) : Untaken next where
  queued := by simpa only [hc, hx] using hu.queued
  draining := fun _ _ c polls hph => (hp c polls hph).elim

/-- The command that is sent was not cancelled before. -/
theorem Untaken.sent (hu : Untaken s) (hs : Simulates s t) (hd : Delivers t)
    {sequence : UInt32} {call : ControlCall} (hf : s.plane.future = .sending sequence call)
    (plane : ControlPlane) {shared : SharedState eventCapacity}
    (hc : shared.commands.queued = [⟨sequence, call.command⟩])
    (hx : shared.cancellations = s.frame.shared.cancellations) :
    Untaken {s with plane := plane, frame := {s.frame with shared := shared}} := by
  refine ⟨?_, by simpa only [hx] using hu.draining⟩
  intro x hxr c hcq he
  simp only [hx] at hxr
  simp only [hc, List.mem_singleton] at hcq
  rw [← hs.plane] at hf
  refine hd.sending_not_dropped hf (hd.taken_dropped ?_)
  have hseq : c.sequence = sequence := congrArg Command.sequence hcq
  rw [hs.shared, ← hseq, he]
  exact hxr

/-- The command that is received was queued. -/
theorem Untaken.received (hu : Untaken s) {command : Command} {rest : List Command} (polls : Bool)
    {frame : BlockingFrame B eventCapacity}
    (hq : s.frame.shared.commands.queued = command :: rest)
    (hc : frame.shared.commands = s.frame.shared.commands.tryReceive.2)
    (hx : frame.shared.cancellations = s.frame.shared.cancellations) :
    Untaken {s with frame := frame, phase := .draining command polls} := by
  have hr := (tryReceive_of_cons hq).2.2
  constructor
  · intro x hxr c hcq
    simp only [hx] at hxr
    simp only [hc, hr] at hcq
    exact hu.queued x hxr c (by rw [hq]; exact List.mem_cons_of_mem _ hcq)
  · intro x hxr c p hph
    simp only [hx] at hxr
    cases hph
    exact hu.queued x hxr command (by rw [hq]; exact List.mem_cons_self)

/-- The drain skips a cancellation that is not that of its command. -/
theorem Untaken.skipped (hu : Untaken s) (hs : Simulates s t) (hd : Delivers t)
    {command : Command} {polls : Bool} {taken : UInt32} {rest : List UInt32}
    (hp : s.phase = .draining command polls)
    (hq : s.frame.shared.cancellations.queued = taken :: rest) (hn : taken ≠ command.sequence) :
    Untaken {s with frame := {s.frame with shared := {s.frame.shared with
      cancellations := s.frame.shared.cancellations.tryReceive.2}}} := by
  have hr := (tryReceive_of_cons hq).2.1
  refine ⟨fun x hxr c hcq => taken_queued hs hd hu hp hq hxr hcq, ?_⟩
  intro x hxr c p hph
  simp only [hr] at hxr
  rcases List.mem_append.mp hxr with hxr | hxr
  · exact hu.draining x hxr c p hph
  · rw [List.mem_singleton.mp hxr]
    cases hp.symm.trans hph
    exact hn.symm

/-- No controller step takes a cancellation. -/
theorem untaken_control (hs : Simulates s t) (hd : Delivers t) (hu : Untaken s)
    {next : ControlPlane × SharedState eventCapacity}
    (he : ControlEffect s.plane s.frame.shared next) :
    Untaken {s with plane := next.1, frame := {s.frame with shared := next.2}} := by
  cases he with
  | quiet shared' hm =>
    have hc : shared'.commands = s.frame.shared.commands := congrArg Mailbox.commands hm
    have hx : shared'.cancellations = s.frame.shared.cancellations :=
      congrArg Mailbox.cancellations hm
    exact ⟨by simpa only [hc, hx] using hu.queued, by simpa only [hx] using hu.draining⟩
  | sent sequence call hf shared' commands hq hr hsq hm =>
    have hc : shared'.commands = commands := congrArg Mailbox.commands hm
    exact hu.sent hs hd hf _ (by rw [hc, hsq]) (congrArg Mailbox.cancellations hm)
  | dropped command hf =>
    constructor
    · simpa only [ControlPlane.dropGuard, trySend_received] using hu.queued
    · simpa only [ControlPlane.dropGuard, trySend_received] using hu.draining
  | unsent future hn hf => exact ⟨hu.queued, hu.draining⟩
  | allocated call hf => exact ⟨hu.queued, hu.draining⟩
  | discarded sequence call hf completion hv hsq => exact ⟨hu.queued, hu.draining⟩
  | taken sequence call kind hf hv => exact ⟨hu.queued, hu.draining⟩
  | resolved sequence call kind hf result hr => exact ⟨hu.queued, hu.draining⟩

variable [WifiBackend B]

/-- No runner step takes a cancellation that is still needed. -/
theorem untaken_runner {next : BlockingSystem B eventCapacity} (hs : Simulates s t)
    (hd : Delivers t) (hu : Untaken s) (he : RunnerEffect s next) : Untaken next := by
  cases he with
  | passed frame phase hp hm hn =>
    refine hu.away (congrArg Mailbox.commands hm) (congrArg Mailbox.cancellations hm) ?_
    intro c polls hph
    rcases hn with hn | ⟨didWork, hn⟩
    · cases hn.symm.trans hph
    · cases hn.symm.trans hph
  | received command rest polls frame hp hq hm =>
    exact hu.received polls hq (congrArg Mailbox.commands hm) (congrArg Mailbox.cancellations hm)
  | drained command polls hp hq => exact hu.away rfl rfl (fun _ _ hph => by cases hph)
  | skipped command polls taken rest hp hq hn => exact hu.skipped hs hd hp hq hn
  | matched command polls rest hp hq =>
    exact ⟨fun x hxr c hcq => taken_queued hs hd hu hp hq hxr hcq, fun x _ c p hph => by cases hph⟩
  | cancelled command polls hp =>
    have hm := cancelCommand_mailbox command s.frame.shared
    refine hu.away (congrArg Mailbox.commands hm) (congrArg Mailbox.cancellations hm) ?_
    intro c p hph
    cases polls <;> cases hph
  | called command polls hp =>
    obtain ⟨scanResults, hm⟩ := callBackend_mailbox command s.frame
    exact hu.away (congrArg Mailbox.commands hm) (congrArg Mailbox.cancellations hm)
      (fun _ _ hph => by cases hph)
  | signalled command kind polls hp =>
    refine hu.away rfl rfl ?_
    intro c p hph
    cases polls <;> cases hph

/-- No step takes a cancellation that is still needed. -/
theorem untaken_step (interrupt : E → B → B) (hs : Simulates s t) (hd : Delivers t)
    (hu : Untaken s) (input : BlockingInput E) :
    Untaken ((blockingMachine interrupt).next s input) := by
  cases input with
  | backendEvent event => exact ⟨hu.queued, hu.draining⟩
  | control step => exact untaken_control hs hd hu (step_effect s.plane s.frame.shared step)
  | runner mode => exact untaken_runner hs hd hu (runnerStep_effect mode s)

end UntakenSteps

/-- How far the cancellation of a dropped command has got. -/
inductive AbandonedStage (c : Command) (s : BlockingSystem B eventCapacity) : Prop
  | queued (hq : c ∈ s.frame.shared.commands.queued)
      (hx : c.sequence ∈ s.frame.shared.cancellations.queued)
  | draining (polls : Bool) (hp : s.phase = .draining c polls)
      (hx : c.sequence ∈ s.frame.shared.cancellations.queued)
  | cancelling (polls : Bool) (hp : s.phase = .cancelling c polls)
  | answered (hw : ⟨c.sequence, cancelledKind c⟩ ∈ s.frame.shared.completion.written)

/-- A command that was sent and will be cancelled without a backend call. -/
structure Abandoned (c : Command) (s : BlockingSystem B eventCapacity) : Prop where
  /-- It was sent. -/
  sent : c ∈ s.frame.shared.commands.sent
  /-- No backend operation was called for it. -/
  uncalled : ∀ d ∈ s.called, d.sequence ≠ c.sequence
  /-- Its cancellation is on the way. -/
  stage : AbandonedStage c s

section AbandonedSteps

variable {c : Command} {s : BlockingSystem B eventCapacity} {t : Service eventCapacity}

/-- A controller step keeps a command abandoned. -/
theorem abandoned_control (h : Abandoned c s) {plane : ControlPlane}
    {shared : SharedState eventCapacity}
    (hf : Forwards s.frame.shared.mailbox shared.mailbox) :
    Abandoned c {s with plane := plane, frame := {s.frame with shared := shared}} := by
  have hqueued : ∀ d ∈ s.frame.shared.commands.queued, d ∈ shared.commands.queued :=
    fun d hd => hf.commands.subset hd
  have hcancel : ∀ x ∈ s.frame.shared.cancellations.queued, x ∈ shared.cancellations.queued :=
    fun x hx => hf.cancellations.subset hx
  refine ⟨?_, h.uncalled, ?_⟩
  · have hreceived : shared.commands.received = s.frame.shared.commands.received :=
      hf.commandsReceived
    have hc := h.sent
    rw [Channel.sent] at hc ⊢
    rw [hreceived]
    rcases List.mem_append.mp hc with hc | hc
    · exact List.mem_append_left _ hc
    · exact List.mem_append_right _ (hqueued c hc)
  · cases h.stage with
    | queued hq hx => exact .queued (hqueued c hq) (hcancel _ hx)
    | draining polls hp hx => exact .draining polls hp (hcancel _ hx)
    | cancelling polls hp => exact .cancelling polls hp
    | answered hw =>
      have hwritten : shared.completion.written = s.frame.shared.completion.written := hf.written
      exact .answered (hwritten ▸ hw)

/-- A step that leaves both channels alone keeps a command abandoned, unless it is that of the
command itself. -/
theorem Abandoned.kept {next : BlockingSystem B eventCapacity} (h : Abandoned c s)
    (hc : next.frame.shared.commands = s.frame.shared.commands)
    (hx : next.frame.shared.cancellations = s.frame.shared.cancellations)
    (hw : ∀ y ∈ s.frame.shared.completion.written, y ∈ next.frame.shared.completion.written)
    (hu : ∀ d ∈ next.called, d.sequence ≠ c.sequence)
    (hd : ∀ polls, s.phase ≠ .draining c polls) (hp : ∀ polls, s.phase ≠ .cancelling c polls) :
    Abandoned c next := by
  refine ⟨by simpa only [hc] using h.sent, hu, ?_⟩
  cases h.stage with
  | queued hq hx' => exact .queued (by simpa only [hc] using hq) (by simpa only [hx] using hx')
  | draining polls hp' hx' => exact (hd polls hp').elim
  | cancelling polls hp' => exact (hp polls hp').elim
  | answered hw' => exact .answered (hw _ hw')

/-- A received command is the abandoned one, whose drain begins, or stays in front of it. -/
theorem Abandoned.received (h : Abandoned c s) {command : Command} {rest : List Command}
    (polls : Bool) {frame : BlockingFrame B eventCapacity} (hp : s.phase = .idle)
    (hq : s.frame.shared.commands.queued = command :: rest)
    (hm : frame.shared.mailbox = {s.frame.shared.mailbox with
      commands := s.frame.shared.commands.tryReceive.2}) :
    Abandoned c {s with frame := frame, phase := .draining command polls} := by
  have hc : frame.shared.commands = s.frame.shared.commands.tryReceive.2 :=
    congrArg Mailbox.commands hm
  have hx : frame.shared.cancellations = s.frame.shared.cancellations :=
    congrArg Mailbox.cancellations hm
  have hw : frame.shared.completion = s.frame.shared.completion :=
    congrArg Mailbox.completion hm
  have hr := (tryReceive_of_cons hq).2.2
  refine ⟨?_, h.uncalled, ?_⟩
  · simp only [hc, tryReceive_sent]
    exact h.sent
  · cases h.stage with
    | queued hq' hx' =>
      rw [hq] at hq'
      rcases List.mem_cons.mp hq' with rfl | hrest
      · exact .draining polls rfl (by simpa only [hx] using hx')
      · exact .queued (by simpa only [hc, hr] using hrest) (by simpa only [hx] using hx')
    | draining polls hp' hx' => cases hp.symm.trans hp'
    | cancelling polls hp' => cases hp.symm.trans hp'
    | answered hw' => exact .answered (by simpa only [hw] using hw')

/-- The drain of the abandoned command does not end without its cancellation. -/
theorem Abandoned.drained (h : Abandoned c s) {command : Command} {polls : Bool}
    (hp : s.phase = .draining command polls) (hq : s.frame.shared.cancellations.queued = []) :
    Abandoned c {s with phase := .processing command polls} := by
  refine ⟨h.sent, h.uncalled, ?_⟩
  cases h.stage with
  | queued hq' hx' =>
    rw [hq] at hx'
    cases hx'
  | draining polls hp' hx' =>
    rw [hq] at hx'
    cases hx'
  | cancelling polls hp' => cases hp.symm.trans hp'
  | answered hw' => exact .answered hw'

/-- A skipped cancellation is not that of the abandoned command. -/
theorem Abandoned.skipped (h : Abandoned c s) (hs : Simulates s t) (hd : Delivers t)
    (hu : Untaken s) {command : Command} {polls : Bool} {taken : UInt32} {rest : List UInt32}
    (hp : s.phase = .draining command polls)
    (hq : s.frame.shared.cancellations.queued = taken :: rest) (hn : taken ≠ command.sequence) :
    Abandoned c {s with frame := {s.frame with shared := {s.frame.shared with
      cancellations := s.frame.shared.cancellations.tryReceive.2}}} := by
  have hr := (tryReceive_of_cons hq).2.2
  refine ⟨h.sent, h.uncalled, ?_⟩
  cases h.stage with
  | queued hq' hx' =>
    rw [hq] at hx'
    rcases List.mem_cons.mp hx' with hx' | hx'
    · exact (drain_head_queued hs hd hu hp hq hq' hx').elim
    · exact .queued hq' (by simpa only [hr] using hx')
  | draining polls' hp' hx' =>
    cases hp.symm.trans hp'
    rw [hq] at hx'
    rcases List.mem_cons.mp hx' with hx' | hx'
    · exact (hn hx'.symm).elim
    · exact .draining _ hp (by simpa only [hr] using hx')
  | cancelling polls' hp' => cases hp.symm.trans hp'
  | answered hw' => exact .answered hw'

/-- The matching cancellation is that of the drained command. -/
theorem Abandoned.matched (h : Abandoned c s) (hs : Simulates s t) (hd : Delivers t)
    (hu : Untaken s) {command : Command} {polls : Bool} {rest : List UInt32}
    (hp : s.phase = .draining command polls)
    (hq : s.frame.shared.cancellations.queued = command.sequence :: rest) :
    Abandoned c {s with
      frame := {s.frame with shared := {s.frame.shared with
        cancellations := s.frame.shared.cancellations.tryReceive.2}}
      phase := .cancelling command polls} := by
  have hr := (tryReceive_of_cons hq).2.2
  refine ⟨h.sent, h.uncalled, ?_⟩
  cases h.stage with
  | queued hq' hx' =>
    rw [hq] at hx'
    rcases List.mem_cons.mp hx' with hx' | hx'
    · exact (drain_head_queued hs hd hu hp hq hq' hx').elim
    · exact .queued hq' (by simpa only [hr] using hx')
  | draining polls' hp' hx' =>
    cases hp.symm.trans hp'
    exact .cancelling polls rfl
  | cancelling polls' hp' => cases hp.symm.trans hp'
  | answered hw' => exact .answered hw'

/-- The abandoned command is answered as cancelled, or another one is. -/
theorem Abandoned.cancelled (h : Abandoned c s) {command : Command} {polls : Bool}
    (hp : s.phase = .cancelling command polls) :
    Abandoned c {s with
      frame := {s.frame with shared := cancelCommand command s.frame.shared}
      phase := afterSignal polls} := by
  have hm := cancelCommand_mailbox command s.frame.shared
  have hw : (cancelCommand command s.frame.shared).completion.written =
      s.frame.shared.completion.written ++ [⟨command.sequence, cancelledKind command⟩] :=
    congrArg (fun m => m.completion.written) hm
  have hc : (cancelCommand command s.frame.shared).commands = s.frame.shared.commands :=
    congrArg Mailbox.commands hm
  by_cases hself : command = c
  · subst hself
    refine ⟨?_, h.uncalled, .answered ?_⟩
    · simpa only [hc] using h.sent
    · simp only [hw]
      exact List.mem_append_right _ (List.mem_singleton.mpr rfl)
  · refine h.kept hc (congrArg Mailbox.cancellations hm) ?_ h.uncalled ?_ ?_
    · intro y hy
      simp only [hw]
      exact List.mem_append_left _ hy
    · exact fun _ hp' => by cases hp.symm.trans hp'
    · intro _ hp'
      cases hp.symm.trans hp'
      exact hself rfl

/-- The command being processed is neither queued nor answered, the abandoned one is. -/
theorem Abandoned.processing_ne (h : Abandoned c s) (hs : Simulates s t) (hd : Delivers t)
    {command : Command} {polls : Bool} (hp : s.phase = .processing command polls) :
    command.sequence ≠ c.sequence := by
  intro hsame
  have hi : command ∈ t.inflight := by
    rw [hs.inflight, hp]
    exact List.mem_singleton.mpr rfl
  have hreceived := hd.inflight_received hi
  have hsent : c ∈ t.shared.commands.sent := by
    rw [hs.shared]
    exact h.sent
  have he := hd.traffic.sequence_inj (mem_sent_of_received hreceived) hsent hsame
  subst he
  cases h.stage with
  | queued hq hx =>
    rw [← hs.shared] at hq
    have hlt := hd.received_old hreceived hq
    omega
  | draining polls' hp' hx => cases hp.symm.trans hp'
  | cancelling polls' hp' => cases hp.symm.trans hp'
  | answered hw =>
    rw [← hs.shared] at hw
    have ha := hd.answered_of_written hsent hw rfl
    exact hd.inflight_unanswered hi (List.mem_map_of_mem ha)

variable [WifiBackend B]

/-- The backend call is that of another command. -/
theorem Abandoned.called (h : Abandoned c s) (hs : Simulates s t) (hd : Delivers t)
    {command : Command} {polls : Bool} (hp : s.phase = .processing command polls) :
    Abandoned c {s with
      frame := (callBackend command s.frame).2
      phase := .signalling command (callBackend command s.frame).1 polls
      called := s.called ++ [command]} := by
  obtain ⟨scanResults, hm⟩ := callBackend_mailbox command s.frame
  have hw : (callBackend command s.frame).2.shared.completion = s.frame.shared.completion :=
    congrArg Mailbox.completion hm
  refine h.kept (congrArg Mailbox.commands hm) (congrArg Mailbox.cancellations hm) ?_ ?_ ?_ ?_
  · intro y hy
    simpa only [hw] using hy
  · intro d hd'
    rcases List.mem_append.mp hd' with hd' | hd'
    · exact h.uncalled d hd'
    · rw [List.mem_singleton.mp hd']
      exact h.processing_ne hs hd hp
  · exact fun _ hp' => by cases hp.symm.trans hp'
  · exact fun _ hp' => by cases hp.symm.trans hp'

/-- A runner step keeps a command abandoned: its cancellation is in the queue when
the drain that follows its receipt begins. -/
theorem abandoned_runner {next : BlockingSystem B eventCapacity} (hs : Simulates s t)
    (hd : Delivers t) (hu : Untaken s) (h : Abandoned c s) (he : RunnerEffect s next) :
    Abandoned c next := by
  cases he with
  | passed frame phase hp hm hn =>
    have hw : frame.shared.completion = s.frame.shared.completion :=
      congrArg Mailbox.completion hm
    refine h.kept (congrArg Mailbox.commands hm) (congrArg Mailbox.cancellations hm) ?_
      h.uncalled ?_ ?_
    · intro y hy
      simpa only [hw] using hy
    · intro polls hc
      rw [hc] at hp
      cases hp
    · intro polls hc
      rw [hc] at hp
      cases hp
  | received command rest polls frame hp hq hm => exact h.received polls hp hq hm
  | drained command polls hp hq => exact h.drained hp hq
  | skipped command polls taken rest hp hq hn => exact h.skipped hs hd hu hp hq hn
  | matched command polls rest hp hq => exact h.matched hs hd hu hp hq
  | cancelled command polls hp => exact h.cancelled hp
  | called command polls hp => exact h.called hs hd hp
  | signalled command kind polls hp =>
    refine h.kept rfl rfl (fun _ hy => List.mem_append_left _ hy) h.uncalled ?_ ?_
    · exact fun _ hp' => by cases hp.symm.trans hp'
    · exact fun _ hp' => by cases hp.symm.trans hp'

/-- Every step keeps a command abandoned. -/
theorem abandoned_step (interrupt : E → B → B) (hs : Simulates s t) (hd : Delivers t)
    (hu : Untaken s) (h : Abandoned c s) (input : BlockingInput E) :
    Abandoned c ((blockingMachine interrupt).next s input) := by
  cases input with
  | control step =>
    exact abandoned_control h (control_forwards (step_effect s.plane s.frame.shared step))
  | runner mode => exact abandoned_runner hs hd hu h (runnerStep_effect mode s)
  | backendEvent event =>
    refine ⟨h.sent, h.uncalled, ?_⟩
    cases h.stage with
    | queued hq hx => exact .queued hq hx
    | draining polls hp hx => exact .draining polls hp hx
    | cancelling polls hp => exact .cancelling polls hp
    | answered hw => exact .answered hw

end AbandonedSteps

end HisiRfCore.BlockingCancellation
