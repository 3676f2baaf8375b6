import Mathlib.Data.List.Nodup
import Mathlib.Logic.Relation
import HisiRfCore.AsyncControl

/-!
# Command service protocol

What either runner does for the controller, one atomic step at a time: take a
command, take or miss a cancellation, write the scan buffer while a command is
in flight, and answer the oldest command in flight or one whose cancellation
was taken. Both runners are shown to simulate this service. Its invariants
bound the cancellation queue, order all sequences, and keep the completion of a
live call in the signal.
-/

namespace HisiRfCore.ServiceProtocol

open NonZeroCounter BoundedChannel WifiTypes RadioStorage AsyncControl

/-- The runner's side of the service. -/
structure RunnerView where
  /-- Channels, signal and scan buffer. -/
  mailbox : Mailbox
  /-- Commands received and not answered, oldest first. -/
  inflight : List Command
  /-- A command was received and the cancellations were not looked at since. -/
  owing : Bool
  /-- Commands answered, with their completions, oldest first. -/
  answered : List (Command × CompletionKind)

/-- One atomic step of a runner. -/
inductive RunnerMove : RunnerView → RunnerView → Prop
  | stay (v : RunnerView) : RunnerMove v v
  | take (v : RunnerView) (command : Command) (rest : List Command)
      (hq : v.mailbox.commands.queued = command :: rest) (ho : v.owing = false) :
      RunnerMove v {v with
        mailbox := {v.mailbox with commands := v.mailbox.commands.tryReceive.2}
        inflight := v.inflight ++ [command]
        owing := true}
  | takeCancellation (v : RunnerView) (sequence : UInt32) (rest : List UInt32)
      (hq : v.mailbox.cancellations.queued = sequence :: rest) :
      RunnerMove v {v with
        mailbox := {v.mailbox with cancellations := v.mailbox.cancellations.tryReceive.2}
        owing := false}
  | noCancellation (v : RunnerView) (hq : v.mailbox.cancellations.queued = []) :
      RunnerMove v {v with owing := false}
  | write (v : RunnerView) (scanResults : ScanBuffer) (hi : v.inflight ≠ []) :
      RunnerMove v {v with mailbox := {v.mailbox with scanResults := scanResults}}
  | complete (v : RunnerView) (before after : List Command) (command : Command)
      (kind : CompletionKind) (hi : v.inflight = before ++ command :: after)
      (ho : before = [] ∨ command.sequence ∈ v.mailbox.cancellations.received) :
      RunnerMove v {v with
        mailbox := {v.mailbox with
          completion := v.mailbox.completion.signal ⟨command.sequence, kind⟩}
        inflight := before ++ after
        answered := v.answered ++ [(command, kind)]}

/-- A runner step sends nothing. -/
theorem sent_of_move {v w : RunnerView} (h : RunnerMove v w) :
    w.mailbox.commands.sent = v.mailbox.commands.sent := by
  cases h with
  | take command rest hq ho => exact tryReceive_sent _
  | _ => rfl

/-- The controller and a runner with the state they share. -/
structure Service (eventCapacity : ℕ) where
  /-- The controller's side. -/
  plane : ControlPlane
  /-- Shared state. -/
  shared : SharedState eventCapacity
  /-- Commands received and not answered, oldest first. -/
  inflight : List Command
  /-- A command was received and the cancellations were not looked at since. -/
  owing : Bool
  /-- Commands answered, with their completions, oldest first. -/
  answered : List (Command × CompletionKind)

variable {eventCapacity : ℕ}

/-- The runner's view of the service. -/
def Service.view (s : Service eventCapacity) : RunnerView :=
  ⟨s.shared.mailbox, s.inflight, s.owing, s.answered⟩

/-- One atomic step of either side. A step of the runner is a move on its view; it leaves what
is outside the mailbox free: the events, the counters and the published capabilities. -/
inductive ServiceStep : Service eventCapacity → Service eventCapacity → Prop
  | control (s : Service eventCapacity) (step : ControlStep) :
      ServiceStep s {s with
        plane := (s.plane.step s.shared step).1, shared := (s.plane.step s.shared step).2}
  | runner (s t : Service eventCapacity) (hp : t.plane = s.plane)
      (h : RunnerMove s.view t.view) : ServiceStep s t

/-- The service before the first command. -/
def Service.new (h : 0 < eventCapacity) : Service eventCapacity :=
  ⟨.new, .new h, [], false, []⟩

/-- The cancellation queue is bounded by the queued command, the armed guard and
the debt of a runner that has not yet looked at it; every armed drop was queued. -/
structure Counted (plane : ControlPlane) (v : RunnerView) : Prop where
  /-- Queued cancellations and the armed guard, against the queued command and the debt. -/
  capacity : v.mailbox.cancellations.queued.length + plane.future.armed.toList.length ≤
    1 + v.mailbox.commands.queued.length + v.owing.toNat
  /-- No drop of an armed guard was discarded. -/
  delivered : v.mailbox.cancellations.sent = plane.dropped

/-- An armed guard finds room for its cancellation. -/
theorem Counted.room {plane : ControlPlane} {v : RunnerView} (h : Counted plane v)
    {command : Command} (hf : plane.future.armed = some command) :
    v.mailbox.cancellations.queued.length < 3 := by
  have hc := h.capacity
  have hb := v.mailbox.commands.bounded
  have ho : v.owing.toNat ≤ 1 := Bool.toNat_le v.owing
  rw [hf, Option.toList_some, List.length_singleton] at hc
  omega

/-- Every controller step keeps the count. -/
theorem Counted.control {plane : ControlPlane} {shared : SharedState eventCapacity}
    {inflight : List Command} {owing : Bool} {answered : List (Command × CompletionKind)}
    (h : Counted plane ⟨shared.mailbox, inflight, owing, answered⟩)
    {next : ControlPlane × SharedState eventCapacity} (he : ControlEffect plane shared next) :
    Counted next.1 ⟨next.2.mailbox, inflight, owing, answered⟩ := by
  cases he with
  | quiet shared' hm =>
    rw [hm]
    exact h
  | unsent future hu hf =>
    have hc := h.capacity
    have hnone : future.armed = none := by
      rcases hf with rfl | ⟨call, rfl⟩ <;> rfl
    refine ⟨?_, h.delivered⟩
    simp only [hnone, hu, Option.toList_none, List.length_nil] at hc ⊢
    exact hc
  | allocated call hf =>
    have hc := h.capacity
    rw [hf] at hc
    exact ⟨hc, h.delivered⟩
  | sent sequence call hf shared' commands hq hr hs hm =>
    have hc := h.capacity
    rw [hm]
    refine ⟨?_, h.delivered⟩
    have hempty : shared.mailbox.commands.queued.length = 0 := by
      show shared.commands.queued.length = 0
      rw [hq, List.length_nil]
    simp only [hf, ControlFuture.armed, Option.toList_none, Option.toList_some, List.length_nil,
      List.length_singleton, hs] at hc ⊢
    omega
  | discarded sequence call hf completion hv hs => exact ⟨h.capacity, h.delivered⟩
  | taken sequence call kind hf hv =>
    have hc := h.capacity
    rw [hf] at hc
    exact ⟨hc, h.delivered⟩
  | resolved sequence call kind hf result hr =>
    have hc := h.capacity
    refine ⟨?_, h.delivered⟩
    simp only [hf, ControlFuture.armed, Option.toList_some, Option.toList_none, List.length_nil,
      List.length_singleton] at hc ⊢
    exact Nat.le_of_succ_le hc
  | dropped command hf =>
    have hroom : shared.cancellations.queued.length < 3 := h.room hf
    have hc := h.capacity
    obtain ⟨-, -, hq⟩ := @trySend_of_lt _ _ shared.cancellations command.sequence hroom
    have hs := @trySend_sent_of_lt _ _ shared.cancellations command.sequence hroom
    constructor
    · have hlen : (shared.cancellations.trySend command.sequence).2.queued.length =
          shared.cancellations.queued.length + 1 := by
        rw [hq, List.length_append, List.length_singleton]
      simp only [hf, Option.toList_some, List.length_singleton] at hc
      simp only [ControlPlane.dropGuard, SharedState.mailbox, ControlFuture.armed,
        Option.toList_none, List.length_nil, hlen] at hc ⊢
      omega
    · have hd : shared.cancellations.sent = plane.dropped := h.delivered
      exact hs.trans (congrArg (· ++ [command.sequence]) hd)

/-- Every runner step keeps the count. -/
theorem Counted.runner {plane : ControlPlane} {v w : RunnerView} (h : Counted plane v)
    (hm : RunnerMove v w) : Counted plane w := by
  have hc := h.capacity
  cases hm with
  | stay => exact h
  | take command rest hq ho =>
    refine ⟨?_, h.delivered⟩
    have hr := (tryReceive_of_cons hq).2.2
    have hlen := congrArg List.length hq
    rw [List.length_cons] at hlen
    simp only [ho, Bool.toNat_false, Bool.toNat_true, hr] at hc ⊢
    omega
  | takeCancellation sequence rest hq =>
    constructor
    · have hr := (tryReceive_of_cons hq).2.2
      have hlen := congrArg List.length hq
      have ho : v.owing.toNat ≤ 1 := Bool.toNat_le v.owing
      rw [List.length_cons] at hlen
      simp only [Bool.toNat_false, hr] at hc ⊢
      omega
    · exact (tryReceive_sent _).trans h.delivered
  | noCancellation hq =>
    refine ⟨?_, h.delivered⟩
    have ha : plane.future.armed.toList.length ≤ 1 := by
      cases plane.future.armed <;> simp
    simp only [hq, List.length_nil, Bool.toNat_false] at hc ⊢
    omega
  | write scanResults hi => exact ⟨hc, h.delivered⟩
  | complete before after command kind hi ho => exact ⟨hc, h.delivered⟩

/-- No sequence the controller uses is zero. -/
structure NonZero (plane : ControlPlane) (sent : List Command) : Prop where
  /-- A sequence waiting for room is not zero. -/
  sending : ∀ sequence call, plane.future = .sending sequence call → sequence ≠ 0
  /-- Sent sequences are not zero. -/
  sent : ∀ c ∈ sent, c.sequence ≠ 0
  /-- The guarded sequence is not zero. -/
  live : ∀ c, plane.future.armed = some c → c.sequence ≠ 0
  /-- Dropped sequences are not zero. -/
  dropped : ∀ x ∈ plane.dropped, x ≠ 0

/-- Every controller step keeps the sequences non-zero, also past the wrap. -/
theorem NonZero.control {plane : ControlPlane} {shared : SharedState eventCapacity}
    (h : NonZero plane shared.commands.sent) {next : ControlPlane × SharedState eventCapacity}
    (he : ControlEffect plane shared next) : NonZero next.1 next.2.commands.sent := by
  cases he with
  | quiet shared' hm =>
    have hc : shared'.commands = shared.commands := congrArg Mailbox.commands hm
    rw [hc]
    exact h
  | unsent future hu hf =>
    refine ⟨?_, h.sent, ?_, h.dropped⟩
    · intro sequence call hs
      rcases hf with rfl | ⟨created, rfl⟩ <;> cases hs
    · intro c hs
      rcases hf with rfl | ⟨created, rfl⟩ <;> cases hs
  | allocated call hf =>
    refine ⟨?_, h.sent, ?_, h.dropped⟩
    · intro sequence created hs
      cases hs
      exact advance_ne_zero _
    · intro c hs
      cases hs
  | sent sequence call hf shared' commands hq hr hs hm =>
    have hne := h.sending sequence call hf
    have hc : shared'.commands = commands := congrArg Mailbox.commands hm
    refine ⟨?_, ?_, ?_, h.dropped⟩
    · intro s created hx
      cases hx
    · intro c hx
      rw [hc, Channel.sent, hr, hs] at hx
      rcases List.mem_append.mp hx with hx | hx
      · exact h.sent c (List.mem_append_left _ hx)
      · rw [List.mem_singleton.mp hx]
        exact hne
    · intro c hx
      cases hx
      exact hne
  | discarded sequence call hf completion hv hs => exact h
  | taken sequence call kind hf hv =>
    have hne := h.live ⟨sequence, call.command⟩ (by rw [hf]; rfl)
    refine ⟨?_, h.sent, ?_, h.dropped⟩
    · intro s created hx
      cases hx
    · intro c hx
      cases hx
      exact hne
  | resolved sequence call kind hf result hr =>
    refine ⟨?_, h.sent, ?_, h.dropped⟩
    · intro s created hx
      cases hx
    · intro c hx
      cases hx
  | dropped command hf =>
    refine ⟨?_, h.sent, ?_, ?_⟩
    · intro s created hx
      cases hx
    · intro c hx
      cases hx
    · intro x hx
      rcases List.mem_append.mp hx with hx | hx
      · exact h.dropped x hx
      · rw [List.mem_singleton.mp hx]
        exact h.live command hf

/-- The invariants of the service that hold for any number of sequences. -/
structure Bounded (s : Service eventCapacity) : Prop where
  /-- The cancellation queue is counted. -/
  counted : Counted s.plane s.view
  /-- No sequence is zero. -/
  nonZero : NonZero s.plane s.shared.commands.sent

/-- They hold before the first command. -/
theorem bounded_new (h : 0 < eventCapacity) : Bounded (Service.new h) where
  counted := ⟨Nat.zero_le _, rfl⟩
  nonZero := by
    constructor
    · intro sequence call hf
      cases hf
    · intro c hc
      cases hc
    · intro c hc
      cases hc
    · intro x hx
      cases hx

/-- Every step of either side keeps them. -/
theorem service_bounded {s t : Service eventCapacity} (h : Bounded s) (hs : ServiceStep s t) :
    Bounded t := by
  cases hs with
  | control step =>
    have he := step_effect s.plane s.shared step
    exact ⟨h.counted.control he, h.nonZero.control he⟩
  | runner _ hp hm =>
    have hsent : t.shared.commands.sent = s.shared.commands.sent := sent_of_move hm
    refine ⟨?_, ?_⟩
    · rw [hp]
      exact h.counted.runner hm
    · rw [hp, hsent]
      exact h.nonZero

end HisiRfCore.ServiceProtocol
