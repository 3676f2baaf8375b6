import HisiRfCore.InputOutputMachine
import HisiRfCore.ServiceProtocol

/-!
# Delivery of completions

Below the wrap of the sequence counter all sequences are increasing: those of
the sent commands and those of the dropped guards. The live call is the newest
command, so when its completion is signalled nothing older is in flight and
nothing newer is queued: the signal and the scan buffer stay as they are until
the call has taken its result.
-/

namespace HisiRfCore.ServiceDelivery

open NonZeroCounter BoundedChannel WifiTypes RadioStorage AsyncControl ServiceProtocol
open InputOutputMachine

variable {eventCapacity : ℕ}

/-- Order of the sequences the controller sent and dropped. -/
structure Traffic (plane : ControlPlane) (sent : List Command) : Prop where
  /-- The counter has not wrapped. -/
  counter : plane.nextSequence.toNat = plane.allocated
  /-- Commands are sent in the order of their sequences. -/
  increasing : sent.Pairwise fun a b => a.sequence.toNat < b.sequence.toNat
  /-- No command is newer than the counter. -/
  bounded : ∀ c ∈ sent, c.sequence.toNat ≤ plane.allocated
  /-- A sequence waiting for room is newer than every sent command. -/
  fresh : ∀ sequence call, plane.future = .sending sequence call →
    sequence = plane.nextSequence ∧ ∀ c ∈ sent, c.sequence.toNat < plane.allocated
  /-- The live command is the newest. -/
  newest : ∀ c, plane.future.armed = some c → ∃ before, sent = before ++ [c]
  /-- Guards are dropped in the order of their sequences. -/
  droppedIncreasing : plane.dropped.Pairwise fun a b => a.toNat < b.toNat
  /-- Only sent commands had a guard. -/
  droppedSent : ∀ x ∈ plane.dropped, ∃ c ∈ sent, c.sequence = x
  /-- The live command is newer than every dropped one. -/
  droppedOld : ∀ c, plane.future.armed = some c → ∀ x ∈ plane.dropped,
    x.toNat < c.sequence.toNat

/-- Nothing was sent before the first call. -/
theorem traffic_new : Traffic .new [] where
  counter := rfl
  increasing := .nil
  bounded := by simp
  fresh := by simp [ControlPlane.new]
  newest := by simp [ControlPlane.new, ControlFuture.armed]
  droppedIncreasing := .nil
  droppedSent := by simp [ControlPlane.new]
  droppedOld := by simp [ControlPlane.new]

section Traffic

variable {plane : ControlPlane} {sent : List Command}

/-- The sequences of the sent commands are distinct. -/
theorem Traffic.nodup (h : Traffic plane sent) : (sent.map Command.sequence).Nodup := by
  refine List.pairwise_map.mpr (h.increasing.imp fun hlt he => ?_)
  rw [he] at hlt
  omega

/-- A sequence names one sent command. -/
theorem Traffic.sequence_inj (h : Traffic plane sent) {a b : Command} (ha : a ∈ sent)
    (hb : b ∈ sent) (he : a.sequence = b.sequence) : a = b :=
  List.inj_on_of_nodup_map h.nodup ha hb he

/-- The live command was sent. -/
theorem Traffic.live_sent (h : Traffic plane sent) {c : Command}
    (hc : plane.future.armed = some c) : c ∈ sent := by
  obtain ⟨before, hb⟩ := h.newest c hc
  rw [hb]
  exact List.mem_append_right _ (List.mem_singleton.mpr rfl)

/-- Every other sent command is older than the live one. -/
theorem Traffic.live_newest (h : Traffic plane sent) {c : Command}
    (hc : plane.future.armed = some c) {a : Command} (ha : a ∈ sent) :
    a = c ∨ a.sequence.toNat < c.sequence.toNat := by
  obtain ⟨before, hb⟩ := h.newest c hc
  have hp := h.increasing
  rw [hb] at ha hp
  rcases List.mem_append.mp ha with hm | hm
  · exact Or.inr ((List.pairwise_append.mp hp).2.2 a hm c (List.mem_singleton.mpr rfl))
  · exact Or.inl (List.mem_singleton.mp hm)

/-- No more commands were sent than sequences allocated. -/
theorem Traffic.sent_length (h : Traffic plane sent) (hn : NonZero plane sent) :
    sent.length ≤ plane.allocated := by
  have hnodup : (sent.map fun c => c.sequence.toNat).Nodup :=
    List.pairwise_map.mpr (h.increasing.imp fun hlt => Nat.ne_of_lt hlt)
  have hsub : (sent.map fun c => c.sequence.toNat) ⊆ List.range' 1 plane.allocated := by
    intro k hk
    obtain ⟨c, hc, rfl⟩ := List.mem_map.mp hk
    have hpos : c.sequence.toNat ≠ 0 := fun hz => hn.sent c hc (UInt32.toNat_inj.mp hz)
    have hle := h.bounded c hc
    rw [List.mem_range'_1]
    omega
  have hlen := (List.subperm_of_subset hnodup hsub).length_le
  rwa [List.length_map, List.length_range'] at hlen

/-- A future that neither waits for room nor for its answer constrains nothing. -/
theorem Traffic.unarmed (h : Traffic plane sent) {next : ControlPlane}
    (hn : next.nextSequence = plane.nextSequence) (ha : next.allocated = plane.allocated)
    (hd : next.dropped = plane.dropped)
    (hs : ∀ sequence call, next.future ≠ .sending sequence call)
    (hf : next.future.armed = none) : Traffic next sent := by
  refine ⟨?_, h.increasing, ?_, ?_, ?_, ?_, ?_, ?_⟩
  · rw [hn, ha]
    exact h.counter
  · rw [ha]
    exact h.bounded
  · exact fun sequence call hc => (hs sequence call hc).elim
  · exact fun c hc => by cases hf.symm.trans hc
  · rw [hd]
    exact h.droppedIncreasing
  · rw [hd]
    exact h.droppedSent
  · exact fun c hc => by cases hf.symm.trans hc

/-- Below the wrap a fresh sequence is newer than every sent command. -/
theorem Traffic.allocate (h : Traffic plane sent) (call : ControlCall)
    (hb : plane.allocated + 1 < 2 ^ 32 - 1) : Traffic (plane.allocateSequence call) sent := by
  have hlt : plane.nextSequence.toNat + 1 < 2 ^ 32 := by
    have hcount := h.counter
    omega
  have hn : (advance plane.nextSequence).toNat = plane.allocated + 1 := by
    rw [advance_toNat hlt, h.counter]
  refine ⟨hn, h.increasing, ?_, ?_, ?_, h.droppedIncreasing, h.droppedSent, ?_⟩
  · exact fun c hc => Nat.le_succ_of_le (h.bounded c hc)
  · intro sequence created hs
    cases hs
    exact ⟨rfl, fun c hc => Nat.lt_succ_of_le (h.bounded c hc)⟩
  · intro c hc
    cases hc
  · intro c hc
    cases hc

/-- The command that is sent is the newest. -/
theorem Traffic.send (h : Traffic plane sent) {sequence : UInt32} {call : ControlCall}
    (hf : plane.future = .sending sequence call) :
    Traffic {plane with future := .waiting sequence call} (sent ++ [⟨sequence, call.command⟩]) := by
  obtain ⟨hseq, hfresh⟩ := h.fresh sequence call hf
  have hval : sequence.toNat = plane.allocated := by
    rw [hseq, h.counter]
  refine ⟨h.counter, ?_, ?_, ?_, ?_, h.droppedIncreasing, ?_, ?_⟩
  · refine List.pairwise_append.mpr ⟨h.increasing, List.pairwise_singleton _ _, ?_⟩
    intro a ha b hb
    rw [List.mem_singleton.mp hb]
    have ha' := hfresh a ha
    simp only [hval]
    omega
  · intro c hc
    rcases List.mem_append.mp hc with hc | hc
    · exact h.bounded c hc
    · rw [List.mem_singleton.mp hc]
      exact Nat.le_of_eq hval
  · intro s c hc
    cases hc
  · intro c hc
    cases hc
    exact ⟨_, rfl⟩
  · intro x hx
    obtain ⟨c, hc, hx'⟩ := h.droppedSent x hx
    exact ⟨c, List.mem_append_left _ hc, hx'⟩
  · intro c hc x hx
    cases hc
    obtain ⟨d, hd, hx'⟩ := h.droppedSent x hx
    have hlt := hfresh d hd
    rw [hx'] at hlt
    simp only [hval]
    omega

/-- The dropped command is newer than those dropped before. -/
theorem Traffic.drop (h : Traffic plane sent) {command : Command}
    (hf : plane.future.armed = some command) :
    Traffic {plane with
      future := .idle, dropped := plane.dropped ++ [command.sequence]} sent := by
  refine ⟨h.counter, h.increasing, h.bounded, ?_, ?_, ?_, ?_, ?_⟩
  · intro s c hc
    cases hc
  · intro c hc
    cases hc
  · refine List.pairwise_append.mpr ⟨h.droppedIncreasing, List.pairwise_singleton _ _, ?_⟩
    intro a ha b hb
    rw [List.mem_singleton.mp hb]
    exact h.droppedOld command hf a ha
  · intro x hx
    rcases List.mem_append.mp hx with hx | hx
    · exact h.droppedSent x hx
    · rw [List.mem_singleton.mp hx]
      exact ⟨command, h.live_sent hf, rfl⟩
  · intro c hc
    cases hc

/-- Below the wrap every controller step keeps the order. -/
theorem Traffic.control {shared : SharedState eventCapacity}
    (h : Traffic plane shared.commands.sent) {next : ControlPlane × SharedState eventCapacity}
    (he : ControlEffect plane shared next) (hb : next.1.allocated < 2 ^ 32 - 1) :
    Traffic next.1 next.2.commands.sent := by
  cases he with
  | quiet shared' hm =>
    have hc : shared'.commands = shared.commands := congrArg Mailbox.commands hm
    rw [hc]
    exact h
  | unsent future hu hf =>
    refine h.unarmed rfl rfl rfl ?_ ?_
    · intro sequence call hs
      rcases hf with rfl | ⟨created, rfl⟩ <;> cases hs
    · rcases hf with rfl | ⟨call, rfl⟩ <;> rfl
  | allocated call hf => exact h.allocate call hb
  | sent sequence call hf shared' commands hq hr hs hm =>
    have hcommands : shared'.commands = commands := congrArg Mailbox.commands hm
    have hsent : shared'.commands.sent = shared.commands.sent ++ [⟨sequence, call.command⟩] := by
      rw [hcommands, Channel.sent, hr, hs, Channel.sent, hq, List.append_nil]
    rw [hsent]
    exact h.send hf
  | discarded sequence call hf completion hv hs => exact h
  | taken sequence call kind hf hv =>
    have hn := h.newest ⟨sequence, call.command⟩ (by rw [hf]; rfl)
    have ho := h.droppedOld ⟨sequence, call.command⟩ (by rw [hf]; rfl)
    refine ⟨h.counter, h.increasing, h.bounded, ?_, ?_, h.droppedIncreasing, h.droppedSent, ?_⟩
    · intro s c hc
      cases hc
    · intro c hc
      cases hc
      exact hn
    · intro c hc
      cases hc
      exact ho
  | resolved sequence call kind hf result hr =>
    exact h.unarmed rfl rfl rfl (fun _ _ hc => by cases hc) rfl
  | dropped command hf => exact h.drop hf

end Traffic

/-- Completion signalled by an answer. -/
def completionOf (answer : Command × CompletionKind) : Completion :=
  ⟨answer.1.sequence, answer.2⟩

/-- Each received command is in flight or was answered, once. -/
structure Answers (v : RunnerView) : Prop where
  /-- Received commands, answered or in flight. -/
  balanced : v.mailbox.commands.received.Perm (v.answered.map Prod.fst ++ v.inflight)
  /-- Commands are in flight in the order they were received. -/
  order : v.inflight.Sublist v.mailbox.commands.received
  /-- Only answers are signalled, each once. -/
  written : v.mailbox.completion.written = v.answered.map completionOf
  /-- The signal holds a signalled completion. -/
  latest : ∀ c, v.mailbox.completion.value = some c → c ∈ v.mailbox.completion.written

/-- A controller step receives no command and signals no completion. -/
theorem Answers.control {plane : ControlPlane} {shared : SharedState eventCapacity}
    {inflight : List Command} {owing : Bool} {answered : List (Command × CompletionKind)}
    (h : Answers ⟨shared.mailbox, inflight, owing, answered⟩)
    {next : ControlPlane × SharedState eventCapacity} (he : ControlEffect plane shared next) :
    Answers ⟨next.2.mailbox, inflight, owing, answered⟩ := by
  cases he with
  | quiet shared' hm =>
    rw [hm]
    exact h
  | unsent future hu hf => exact h
  | allocated call hf => exact h
  | sent sequence call hf shared' commands hq hr hs hm =>
    have hrec : commands.received = shared.mailbox.commands.received := hr
    rw [hm]
    refine ⟨?_, ?_, h.written, h.latest⟩
    · simpa only [hrec] using h.balanced
    · simpa only [hrec] using h.order
  | discarded sequence call hf completion hv hs =>
    exact ⟨h.balanced, h.order, h.written, fun c hc => by cases hc⟩
  | taken sequence call kind hf hv =>
    exact ⟨h.balanced, h.order, h.written, fun c hc => by cases hc⟩
  | resolved sequence call kind hf result hr => exact h
  | dropped command hf => exact ⟨h.balanced, h.order, h.written, h.latest⟩

/-- Every runner step keeps the balance. -/
theorem Answers.runner {v w : RunnerView} (h : Answers v) (hm : RunnerMove v w) : Answers w := by
  cases hm with
  | stay => exact h
  | take command rest hq ho =>
    have hr := (tryReceive_of_cons hq).2.1
    refine ⟨?_, ?_, h.written, h.latest⟩
    · simp only [hr]
      rw [← List.append_assoc]
      exact h.balanced.append_right [command]
    · simp only [hr]
      exact h.order.append (List.Sublist.refl [command])
  | takeCancellation sequence rest hq =>
    exact ⟨h.balanced, h.order, h.written, h.latest⟩
  | noCancellation hq => exact ⟨h.balanced, h.order, h.written, h.latest⟩
  | write scanResults hi => exact ⟨h.balanced, h.order, h.written, h.latest⟩
  | complete before after command kind hi ho =>
    have hb := h.balanced
    have hs := h.order
    rw [hi] at hb hs
    refine ⟨?_, ?_, ?_, ?_⟩
    · simp only [List.map_append, List.map_cons, List.map_nil]
      have hp : (before ++ command :: after).Perm ([command] ++ (before ++ after)) :=
        List.perm_middle
      rw [List.append_assoc]
      exact hb.trans (hp.append_left _)
    · exact ((List.Sublist.refl before).append (List.sublist_cons_self command after)).trans hs
    · simp only [signal_written, h.written, List.map_append, List.map_cons, List.map_nil]
      rfl
    · intro c hc
      simp only [signal_value, Option.some.injEq] at hc
      simp [signal_written, hc]

/-- Every step of either side keeps the balance, for any number of sequences. -/
theorem service_answers {s t : Service eventCapacity} (h : Answers s.view) (hs : ServiceStep s t) :
    Answers t.view := by
  cases hs with
  | control step => exact h.control (step_effect s.plane s.shared step)
  | runner _ hp hm => exact h.runner hm

/-- An answered command was received. -/
theorem Answers.answered_received {v : RunnerView} (h : Answers v) {x : Command × CompletionKind}
    (hx : x ∈ v.answered) : x.1 ∈ v.mailbox.commands.received :=
  h.balanced.mem_iff.mpr (List.mem_append_left _ (List.mem_map_of_mem hx))

/-- Received commands were sent. -/
theorem mem_sent_of_received {capacity : ℕ} {α : Type} {channel : Channel α capacity} {a : α}
    (h : a ∈ channel.received) : a ∈ channel.sent := List.mem_append_left _ h

/-- The result of a live call stays where the call will take it. -/
structure Delivery (plane : ControlPlane) (v : RunnerView) : Prop where
  /-- Every sent command is live, dropped or answered. -/
  accounted : ∀ c ∈ v.mailbox.commands.sent, plane.future.armed = some c ∨
    c.sequence ∈ plane.dropped ∨ c ∈ v.answered.map Prod.fst
  /-- A call that is finishing took its own answer. -/
  held : ∀ sequence call kind, plane.future = .finishing sequence call kind →
    (⟨sequence, call.command⟩, kind) ∈ v.answered
  /-- Once the live call is answered the runner has nothing left to do. -/
  settled : ∀ c kind, plane.future.armed = some c → (c, kind) ∈ v.answered →
    v.inflight = [] ∧ v.mailbox.commands.queued = []
  /-- The answer of a waiting call is in the signal. -/
  signalled : ∀ sequence call kind, plane.future = .waiting sequence call →
    (⟨sequence, call.command⟩, kind) ∈ v.answered →
    v.mailbox.completion.value = some ⟨sequence, kind⟩
  /-- Every resolved call took its own answer. -/
  resolved : ∀ r ∈ plane.resolved, (⟨r.sequence, r.call.command⟩, r.kind) ∈ v.answered ∧
    ∃ buffer, r.call.resolve r.kind buffer = some r.result

/-- Without a live call only the account and the results of the resolved calls are left. -/
theorem delivery_unarmed {plane : ControlPlane} {v : RunnerView}
    (hf : plane.future.armed = none)
    (ha : ∀ c ∈ v.mailbox.commands.sent, c.sequence ∈ plane.dropped ∨ c ∈ v.answered.map Prod.fst)
    (hr : ∀ r ∈ plane.resolved, (⟨r.sequence, r.call.command⟩, r.kind) ∈ v.answered ∧
      ∃ buffer, r.call.resolve r.kind buffer = some r.result) : Delivery plane v := by
  refine ⟨fun c hc => Or.inr (ha c hc), ?_, ?_, ?_, hr⟩
  · intro sequence call kind hs
    rw [hs] at hf
    cases hf
  · intro c kind hs
    cases hf.symm.trans hs
  · intro sequence call kind hs
    rw [hs] at hf
    cases hf

section ControlSteps

variable {plane : ControlPlane} {mailbox next : Mailbox} {inflight : List Command} {owing : Bool}
  {answered : List (Command × CompletionKind)}

/-- The command that is sent is live, and not answered yet. -/
theorem Delivery.send (h : Delivery plane ⟨mailbox, inflight, owing, answered⟩)
    (ht : Traffic plane mailbox.commands.sent) (ha : Answers ⟨mailbox, inflight, owing, answered⟩)
    {sequence : UInt32} {call : ControlCall} (hf : plane.future = .sending sequence call)
    (hsent : next.commands.sent = mailbox.commands.sent ++ [⟨sequence, call.command⟩]) :
    Delivery {plane with future := .waiting sequence call} ⟨next, inflight, owing, answered⟩ := by
  obtain ⟨hseq, hfresh⟩ := ht.fresh sequence call hf
  have hnew : ∀ kind, (⟨sequence, call.command⟩, kind) ∉ answered := by
    intro kind hx
    have hlt := hfresh _ (mem_sent_of_received (ha.answered_received hx))
    simp only [hseq, ht.counter] at hlt
    omega
  refine ⟨?_, ?_, ?_, ?_, h.resolved⟩
  · intro c hc
    simp only [hsent] at hc
    rcases List.mem_append.mp hc with hc | hc
    · rcases h.accounted c hc with hl | hl
      · rw [hf] at hl
        cases hl
      · exact Or.inr hl
    · rw [List.mem_singleton.mp hc]
      exact Or.inl rfl
  · intro s created kind hx
    cases hx
  · intro c kind hx hk
    cases hx
    exact (hnew kind hk).elim
  · intro s created kind hx hk
    cases hx
    exact (hnew kind hk).elim

/-- The completion of its sequence that a waiting call takes is its own answer. -/
theorem Delivery.take (h : Delivery plane ⟨mailbox, inflight, owing, answered⟩)
    (ht : Traffic plane mailbox.commands.sent) (ha : Answers ⟨mailbox, inflight, owing, answered⟩)
    {sequence : UInt32} {call : ControlCall} {kind : CompletionKind}
    (hf : plane.future = .waiting sequence call)
    (hv : mailbox.completion.value = some ⟨sequence, kind⟩)
    (hcommands : next.commands = mailbox.commands) :
    Delivery {plane with future := .finishing sequence call kind}
      ⟨next, inflight, owing, answered⟩ := by
  have harm : plane.future.armed = some ⟨sequence, call.command⟩ := by
    rw [hf]
    rfl
  have hown : (⟨sequence, call.command⟩, kind) ∈ answered := by
    have hw := ha.latest _ hv
    rw [ha.written] at hw
    obtain ⟨⟨c, k⟩, hx, hc⟩ := List.mem_map.mp hw
    simp only [completionOf, Completion.mk.injEq] at hc
    have hinj := ht.sequence_inj (mem_sent_of_received (ha.answered_received hx))
      (ht.live_sent harm) hc.1
    rw [← hinj, ← hc.2]
    exact hx
  refine ⟨?_, ?_, ?_, ?_, h.resolved⟩
  · intro c hc
    simp only [hcommands] at hc
    rcases h.accounted c hc with hl | hl
    · rw [harm] at hl
      exact Or.inl hl
    · exact Or.inr hl
  · intro s created k hx
    cases hx
    exact hown
  · intro c k hx hk
    cases hx
    simp only [hcommands]
    exact h.settled _ k harm hk
  · intro s created k hx
    cases hx

/-- A resolved call is answered with what it took. -/
theorem Delivery.resolve (h : Delivery plane ⟨mailbox, inflight, owing, answered⟩)
    {sequence : UInt32} {call : ControlCall} {kind : CompletionKind} {result : ControlResult}
    {buffer : ScanBuffer} (hf : plane.future = .finishing sequence call kind)
    (hr : call.resolve kind buffer = some result) :
    Delivery {plane with
        future := .idle, resolved := plane.resolved ++ [⟨sequence, call, kind, result⟩]}
      ⟨mailbox, inflight, owing, answered⟩ := by
  have harm : plane.future.armed = some ⟨sequence, call.command⟩ := by
    rw [hf]
    rfl
  have hown := h.held sequence call kind hf
  refine delivery_unarmed rfl ?_ ?_
  · intro c hc
    rcases h.accounted c hc with hl | hl
    · rw [harm, Option.some.injEq] at hl
      rw [← hl]
      exact Or.inr (List.mem_map_of_mem hown)
    · exact hl
  · intro r hx
    rcases List.mem_append.mp hx with hx | hx
    · exact h.resolved r hx
    · rw [List.mem_singleton.mp hx]
      exact ⟨hown, _, hr⟩

/-- A dropped call is accounted for by its cancellation. -/
theorem Delivery.drop (h : Delivery plane ⟨mailbox, inflight, owing, answered⟩)
    {command : Command} (hf : plane.future.armed = some command)
    (hcommands : next.commands = mailbox.commands) :
    Delivery {plane with future := .idle, dropped := plane.dropped ++ [command.sequence]}
      ⟨next, inflight, owing, answered⟩ := by
  refine delivery_unarmed rfl (fun c hc => ?_) h.resolved
  simp only [hcommands] at hc
  rcases h.accounted c hc with hl | hl | hl
  · rw [hf, Option.some.injEq] at hl
    rw [← hl]
    exact Or.inl (List.mem_append_right _ (List.mem_singleton.mpr rfl))
  · exact Or.inl (List.mem_append_left _ hl)
  · exact Or.inr hl

/-- Every controller step keeps the result of a live call in place. -/
theorem Delivery.control {shared : SharedState eventCapacity}
    (h : Delivery plane ⟨shared.mailbox, inflight, owing, answered⟩)
    (ht : Traffic plane shared.commands.sent)
    (ha : Answers ⟨shared.mailbox, inflight, owing, answered⟩)
    {next : ControlPlane × SharedState eventCapacity} (he : ControlEffect plane shared next) :
    Delivery next.1 ⟨next.2.mailbox, inflight, owing, answered⟩ := by
  cases he with
  | quiet shared' hm =>
    rw [hm]
    exact h
  | unsent future hu hf =>
    refine delivery_unarmed ?_ (fun c hc => ?_) h.resolved
    · rcases hf with rfl | ⟨call, rfl⟩ <;> rfl
    · refine (h.accounted c hc).resolve_left ?_
      rw [hu]
      nofun
  | allocated call hf =>
    refine delivery_unarmed rfl (fun c hc => ?_) h.resolved
    refine (h.accounted c hc).resolve_left ?_
    rw [hf]
    nofun
  | sent sequence call hf shared' commands hq hr hs hm =>
    have hsent : commands.sent = shared.commands.sent ++ [⟨sequence, call.command⟩] := by
      rw [Channel.sent, hr, hs, Channel.sent, hq, List.append_nil]
    rw [hm]
    exact h.send ht ha hf hsent
  | discarded sequence call hf completion hv hs =>
    refine ⟨h.accounted, h.held, h.settled, ?_, h.resolved⟩
    intro s created kind hx hk
    have hval : shared.completion.value = some ⟨s, kind⟩ := h.signalled s created kind hx hk
    rw [hf] at hx
    cases hx
    rw [hv, Option.some.injEq] at hval
    rw [hval] at hs
    exact (hs rfl).elim
  | taken sequence call kind hf hv => exact h.take ht ha hf hv rfl
  | resolved sequence call kind hf result hr => exact h.resolve hf hr
  | dropped command hf => exact h.drop hf rfl

end ControlSteps

section RunnerSteps

variable {plane : ControlPlane} {v w : RunnerView}

/-- No sent command is newer than the live one. -/
theorem Traffic.last_of_live (ht : Traffic plane v.mailbox.commands.sent) {c d : Command}
    (hc : plane.future.armed = some c) (hd : d ∈ v.mailbox.commands.sent) :
    ¬ c.sequence.toNat < d.sequence.toNat := by
  intro hlt
  rcases ht.live_newest hc hd with he | he
  · rw [he] at hlt
    omega
  · omega

/-- When the live command is answered nothing else is in flight, and nothing is queued. -/
theorem Traffic.alone (ht : Traffic plane v.mailbox.commands.sent) (ha : Answers v)
    (hn : Counted plane v) {before after : List Command} {c : Command}
    (hi : v.inflight = before ++ c :: after)
    (ho : before = [] ∨ c.sequence ∈ v.mailbox.cancellations.received)
    (hc : plane.future.armed = some c) :
    before ++ after = [] ∧ v.mailbox.commands.queued = [] := by
  have hsub : (before ++ c :: after).Sublist v.mailbox.commands.received := hi ▸ ha.order
  have hpair : v.mailbox.commands.sent.Pairwise
      fun a b => a.sequence.toNat < b.sequence.toNat := ht.increasing
  have hbefore : before = [] := by
    refine ho.resolve_right fun ho => ?_
    have hd : c.sequence ∈ plane.dropped := by
      rw [← hn.delivered]
      exact mem_sent_of_received ho
    exact Nat.lt_irrefl _ (ht.droppedOld c hc _ hd)
  have hafter : after = [] := by
    cases after with
    | nil => rfl
    | cons d rest =>
      have hp := (hpair.sublist (hsub.trans (List.sublist_append_left _ _)))
      rw [hbefore, List.nil_append] at hp
      have hlt := (List.pairwise_cons.mp hp).1 d List.mem_cons_self
      have hd : d ∈ v.mailbox.commands.sent :=
        mem_sent_of_received (hsub.subset (by simp))
      exact (ht.last_of_live hc hd hlt).elim
  have hqueued : v.mailbox.commands.queued = [] := by
    cases hq : v.mailbox.commands.queued with
    | nil => rfl
    | cons d rest =>
      rw [Channel.sent, hq] at hpair
      have hlt := (List.pairwise_append.mp hpair).2.2 c (hsub.subset (by simp)) d
        List.mem_cons_self
      have hd : d ∈ v.mailbox.commands.sent := by
        rw [Channel.sent, hq]
        exact List.mem_append_right _ List.mem_cons_self
      exact (ht.last_of_live hc hd hlt).elim
  rw [hbefore, hafter]
  exact ⟨rfl, hqueued⟩

/-- An answer to the live command is its result. -/
theorem Delivery.complete (h : Delivery plane v) (ht : Traffic plane v.mailbox.commands.sent)
    (ha : Answers v) (hn : Counted plane v) {before after : List Command} {command : Command}
    {kind : CompletionKind} (hi : v.inflight = before ++ command :: after)
    (ho : before = [] ∨ command.sequence ∈ v.mailbox.cancellations.received) :
    Delivery plane {v with
      mailbox := {v.mailbox with
        completion := v.mailbox.completion.signal ⟨command.sequence, kind⟩}
      inflight := before ++ after
      answered := v.answered ++ [(command, kind)]} := by
  have hlast : ∀ c k, plane.future.armed = some c →
      (c, k) ∈ v.answered ++ [(command, kind)] → c = command ∧ k = kind := by
    intro c k hc hx
    rcases List.mem_append.mp hx with hx | hx
    · have hempty := (h.settled c k hc hx).1
      rw [hi] at hempty
      exact (List.append_ne_nil_of_right_ne_nil _ (List.cons_ne_nil _ _) hempty).elim
    · exact Prod.mk.inj (List.mem_singleton.mp hx)
  refine ⟨?_, ?_, ?_, ?_, ?_⟩
  · intro c hc
    rcases h.accounted c hc with hl | hl | hl
    · exact Or.inl hl
    · exact Or.inr (Or.inl hl)
    · refine Or.inr (Or.inr ?_)
      rw [List.map_append]
      exact List.mem_append_left _ hl
  · exact fun s call k hf => List.mem_append_left _ (h.held s call k hf)
  · intro c k hc hx
    obtain ⟨rfl, rfl⟩ := hlast c k hc hx
    exact ht.alone ha hn hi ho hc
  · intro s call k hf hx
    obtain ⟨hc, hk'⟩ := hlast _ k (by rw [hf]; rfl) hx
    rw [signal_value, hk', ← hc]
  · intro r hr
    obtain ⟨hx, hb⟩ := h.resolved r hr
    exact ⟨List.mem_append_left _ hx, hb⟩

/-- Every runner step keeps the result of a live call in place: the live command
is the newest, so nothing is in flight behind its answer. -/
theorem Delivery.runner (h : Delivery plane v) (ht : Traffic plane v.mailbox.commands.sent)
    (ha : Answers v) (hn : Counted plane v) (hm : RunnerMove v w) : Delivery plane w := by
  cases hm with
  | stay => exact h
  | take command rest hq ho =>
    refine ⟨?_, h.held, ?_, h.signalled, h.resolved⟩
    · intro c hc
      rw [tryReceive_sent] at hc
      exact h.accounted c hc
    · intro c kind hc hk
      have hempty := (h.settled c kind hc hk).2
      rw [hq] at hempty
      cases hempty
  | takeCancellation sequence rest hq =>
    exact ⟨h.accounted, h.held, h.settled, h.signalled, h.resolved⟩
  | noCancellation hq => exact ⟨h.accounted, h.held, h.settled, h.signalled, h.resolved⟩
  | write scanResults hi => exact ⟨h.accounted, h.held, h.settled, h.signalled, h.resolved⟩
  | complete before after command kind hi ho => exact h.complete ht ha hn hi ho

end RunnerSteps

/-- The invariants of the service below the wrap. -/
structure Delivers (s : Service eventCapacity) : Prop where
  /-- The invariants that need no bound. -/
  bounded : Bounded s
  /-- Sequences are increasing. -/
  traffic : Traffic s.plane s.shared.commands.sent
  /-- Received commands are in flight or answered. -/
  answers : Answers s.view
  /-- Results of live calls stay in place. -/
  delivery : Delivery s.plane s.view

/-- The invariants hold before the first command. -/
theorem delivers_new (h : 0 < eventCapacity) : Delivers (Service.new h) where
  bounded := bounded_new h
  traffic := traffic_new
  answers := ⟨.nil, .slnil, rfl, fun c hc => by cases hc⟩
  delivery := by
    constructor
    · intro c hc
      cases hc
    · intro sequence call kind hf
      cases hf
    · intro c kind hf
      cases hf
    · intro sequence call kind hf
      cases hf
    · intro r hr
      cases hr

/-- Below the wrap every step of either side keeps the invariants. -/
theorem service_delivers {s t : Service eventCapacity} (h : Delivers s) (hs : ServiceStep s t)
    (hb : t.plane.allocated < 2 ^ 32 - 1) : Delivers t := by
  have hc := service_bounded h.bounded hs
  cases hs with
  | control step =>
    have he := step_effect s.plane s.shared step
    exact ⟨hc, h.traffic.control he hb, h.answers.control he,
      h.delivery.control h.traffic h.answers he⟩
  | runner _ hp hm =>
    have hsent : t.shared.commands.sent = s.shared.commands.sent := sent_of_move hm
    refine ⟨hc, ?_, h.answers.runner hm, ?_⟩
    · rw [hp, hsent]
      exact h.traffic
    · rw [hp]
      exact h.delivery.runner h.traffic h.answers h.bounded.counted hm

/-- With distinct keys the entries of one key are the one entry. -/
theorem filter_key {α : Type} (key : α → UInt32) {l : List α} (h : (l.map key).Nodup) {x : α}
    (hx : x ∈ l) : l.filter (fun y => key y = key x) = [x] := by
  induction l with
  | nil => cases hx
  | cons y rest ih =>
    obtain ⟨hy, hrest⟩ := List.nodup_cons.mp (List.map_cons ▸ h)
    rcases List.mem_cons.mp hx with rfl | hm
    · have hnone : rest.filter (fun z => key z = key x) = [] := by
        refine List.filter_eq_nil_iff.mpr fun z hz he => hy ?_
        rw [← of_decide_eq_true he]
        exact List.mem_map_of_mem hz
      rw [List.filter_cons_of_pos (by simp), hnone]
    · have hne : key y ≠ key x := fun he => hy (he ▸ List.mem_map_of_mem hm)
      rw [List.filter_cons_of_neg (by simpa using hne)]
      exact ih hrest hm

section Delivered

variable {s : Service eventCapacity}

/-- Received commands carry distinct sequences. -/
theorem Delivers.received_nodup (h : Delivers s) :
    (s.shared.commands.received.map Command.sequence).Nodup := by
  have hn := h.traffic.nodup
  rw [Channel.sent, List.map_append] at hn
  exact hn.of_append_left

/-- Answered commands and commands in flight carry distinct sequences. -/
theorem Delivers.answered_nodup (h : Delivers s) :
    ((s.answered.map Prod.fst ++ s.inflight).map Command.sequence).Nodup :=
  (h.answers.balanced.map Command.sequence).nodup_iff.mp h.received_nodup

/-- No more commands were received than sequences allocated. -/
theorem Delivers.received_length (h : Delivers s) :
    s.shared.commands.received.length ≤ s.plane.allocated := by
  have hl := h.traffic.sent_length h.bounded.nonZero
  rw [Channel.sent, List.length_append] at hl
  omega

/-- A command in flight was received. -/
theorem Delivers.inflight_received (h : Delivers s) {c : Command} (hc : c ∈ s.inflight) :
    c ∈ s.shared.commands.received := h.answers.order.subset hc

/-- A command in flight is not answered. -/
theorem Delivers.inflight_unanswered (h : Delivers s) {c : Command} (hc : c ∈ s.inflight) :
    c ∉ s.answered.map Prod.fst := by
  have hn := h.answered_nodup.of_map
  exact fun ha => List.disjoint_of_nodup_append hn ha hc

/-- A queued command is newer than every received one. -/
theorem Delivers.received_old (h : Delivers s) {a b : Command}
    (ha : a ∈ s.shared.commands.received) (hb : b ∈ s.shared.commands.queued) :
    a.sequence.toNat < b.sequence.toNat :=
  (List.pairwise_append.mp h.traffic.increasing).2.2 a ha b hb

/-- The one completion of an answered command. -/
theorem Delivers.completion_answered (h : Delivers s) {c : Command} {kind : CompletionKind}
    (hc : (c, kind) ∈ s.answered) :
    s.shared.completion.written.filter (fun x => x.sequence = c.sequence) =
      [⟨c.sequence, kind⟩] := by
  have hw : s.shared.completion.written = s.answered.map completionOf := h.answers.written
  have hn : (s.shared.completion.written.map Completion.sequence).Nodup := by
    have hall := h.answered_nodup
    rw [List.map_append, List.map_map] at hall
    rw [hw, List.map_map]
    exact hall.of_append_left
  have hx : completionOf (c, kind) ∈ s.shared.completion.written := by
    rw [hw]
    exact List.mem_map_of_mem hc
  exact filter_key Completion.sequence hn hx

/-- A sent command that is not answered has no completion. -/
theorem Delivers.completion_unanswered (h : Delivers s) {c : Command}
    (hc : c ∈ s.shared.commands.sent) (ha : c ∉ s.answered.map Prod.fst) :
    s.shared.completion.written.filter (fun x => x.sequence = c.sequence) = [] := by
  have hw : s.shared.completion.written = s.answered.map completionOf := h.answers.written
  refine List.filter_eq_nil_iff.mpr fun x hx he => ha ?_
  rw [hw] at hx
  obtain ⟨⟨d, kind⟩, hd, rfl⟩ := List.mem_map.mp hx
  have hsame := h.traffic.sequence_inj (mem_sent_of_received (h.answers.answered_received hd)) hc
    (of_decide_eq_true he)
  rw [← hsame]
  exact List.mem_map_of_mem hd

/-- A completion of a sent command is one of its answers. -/
theorem Delivers.answered_of_written (h : Delivers s) {c : Command}
    (hc : c ∈ s.shared.commands.sent) {x : Completion} (hx : x ∈ s.shared.completion.written)
    (he : x.sequence = c.sequence) : (c, x.kind) ∈ s.answered := by
  have hw : s.shared.completion.written = s.answered.map completionOf := h.answers.written
  rw [hw] at hx
  obtain ⟨⟨d, kind⟩, hd, rfl⟩ := List.mem_map.mp hx
  have hsame := h.traffic.sequence_inj (mem_sent_of_received (h.answers.answered_received hd)) hc he
  rw [← hsame]
  exact hd

/-- A sequence waiting for room was not dropped. -/
theorem Delivers.sending_not_dropped (h : Delivers s) {sequence : UInt32} {call : ControlCall}
    (hf : s.plane.future = .sending sequence call) : sequence ∉ s.plane.dropped := by
  intro hx
  obtain ⟨hseq, hfresh⟩ := h.traffic.fresh sequence call hf
  obtain ⟨c, hc, he⟩ := h.traffic.droppedSent sequence hx
  have hlt := hfresh c hc
  rw [he, hseq, h.traffic.counter] at hlt
  omega

/-- Cancellations taken so far are dropped sequences. -/
theorem Delivers.taken_dropped (h : Delivers s) {x : UInt32}
    (hx : x ∈ s.shared.cancellations.received) : x ∈ s.plane.dropped := by
  have hd : s.shared.cancellations.sent = s.plane.dropped := h.bounded.counted.delivered
  rw [← hd]
  exact mem_sent_of_received hx

/-- Queued cancellations are in the order of their sequences. -/
theorem Delivers.cancellations_increasing (h : Delivers s) :
    s.shared.cancellations.sent.Pairwise fun a b => a.toNat < b.toNat := by
  have hd : s.shared.cancellations.sent = s.plane.dropped := h.bounded.counted.delivered
  rw [hd]
  exact h.traffic.droppedIncreasing

end Delivered

/-- No step of either side takes an allocation back. -/
theorem service_allocated {s t : Service eventCapacity} (hs : ServiceStep s t) :
    s.plane.allocated ≤ t.plane.allocated := by
  cases hs with
  | control step => exact allocated_le_step s.plane s.shared step
  | runner _ hp hm => exact Nat.le_of_eq (congrArg ControlPlane.allocated hp.symm)

section Simulation

variable {σ ι ο : Type} (m : Machine σ ι ο) {R : σ → Service eventCapacity → Prop}

/-- A system that simulates the service keeps the invariants that need no bound. -/
theorem simulated_bounded
    (hstep : ∀ s t i, R s t → Bounded t → ∃ u, ServiceStep t u ∧ R (m.next s i) u)
    {s : σ} {hpos : 0 < eventCapacity} (h0 : R s (Service.new hpos)) (inputs : List ι) :
    ∃ t, R (m.run s inputs) t ∧ Bounded t := by
  refine run_invariant m (I := fun s => ∃ t, R s t ∧ Bounded t) ⟨_, h0, bounded_new hpos⟩ ?_ inputs
  rintro s i ⟨t, hr, hb⟩
  obtain ⟨u, hs, hu⟩ := hstep s t i hr hb
  exact ⟨u, hu, service_bounded hb hs⟩

end Simulation

end HisiRfCore.ServiceDelivery
