import Mathlib.Tactic.IntervalCases
import HisiRfCore.DriverCancellation
import HisiRfCore.IncrementalService

/-!
# Forwarding of cancellations to the driver

A call of the incremental runner looks at the command channel and then at the
cancellation channel. A command sent and dropped between the two looks, with no
other cancellation queued, is overtaken by its own cancellation: the driver does
not know the sequence yet and forgets the request. This is the only way in which
a cancellation that is still needed is lost.
-/

namespace HisiRfCore.CancellationForwarding

open StateBorrow BoundedChannel WifiTypes RadioStorage AsyncControl ServiceProtocol
open ServiceDelivery IncrementalContract CommandArbitration BackendDriver DriverCoherence
open DriverCalls DriverCancellation IncrementalFacade IncrementalInterleaving
open IncrementalService InputOutputMachine

variable {B E : Type} {eventCapacity : ℕ}

/-- A drop here puts the cancellation of a queued command in front of a call that
already looked at the command channel. -/
def Overtakes (s : IncrementalSystem B eventCapacity) : Prop :=
  (∃ ready, s.phase = .sampling ready) ∧ s.frame.shared.cancellations.queued = [] ∧
    ∃ sequence call, s.plane.future = .waiting sequence call ∧
      ⟨sequence, call.command⟩ ∈ s.frame.shared.commands.queued

/-- A cancellation about to be taken is answered already, or finds its command. -/
def Effective (s : IncrementalSystem B eventCapacity) : Prop :=
  ∀ ready x rest, s.phase = .sampling ready →
    s.frame.shared.cancellations.queued = x :: rest →
    (∃ y ∈ s.frame.shared.completion.written, y.sequence = x) ∨
      s.frame.runner.driver.arbiter.activeSequence.map CommandSequence.get = some x ∨
      s.frame.runner.driver.arbiter.pendingSequence.map CommandSequence.get = some x

/-- The runner is between its two looks at the channels. -/
def looking : IncrementalPhase → Bool
  | .submitting _ _ | .sampling _ => true
  | _ => false

/-- The cancellations taken so far reached their commands. -/
structure Forwarded (s : IncrementalSystem B eventCapacity) : Prop where
  /-- No queued command lost its cancellation. -/
  queued : ∀ x ∈ s.frame.shared.cancellations.received, ∀ c ∈ s.frame.shared.commands.queued,
    c.sequence ≠ x
  /-- The command being entered did not lose its cancellation. -/
  entering : ∀ x ∈ s.frame.shared.cancellations.received, ∀ c ready,
    s.phase = .submitting c ready → c.sequence ≠ x
  /-- A forwarded cancellation leaves its sequence out of the pending slot and flagged
  in the active slot. -/
  doomed : ∀ sequence : CommandSequence,
    sequence.get ∈ s.frame.shared.cancellations.received →
    (∀ ready, s.phase ≠ .requesting sequence.get ready) → Doomed sequence s.frame.runner.driver
  /-- Between the two looks the next cancellation is not that of a queued command. -/
  head : looking s.phase = true → ∀ x rest,
    s.frame.shared.cancellations.queued = x :: rest →
    ∀ c ∈ s.frame.shared.commands.queued, c.sequence ≠ x

section Facts

variable {s : IncrementalSystem B eventCapacity} {t : Service eventCapacity}

/-- The commands of the driver are in flight. -/
theorem owned_inflight (hs : Simulates s t) {sequence : CommandSequence}
    (ho : sequence ∈ s.frame.runner.driver.arbiter.owned) :
    ∃ c ∈ t.inflight, c.sequence = sequence.get := by
  obtain ⟨held, hi, hh⟩ := hs.inflight
  have hm : sequence.get ∈ held.map Command.sequence := by
    rw [hh.sequences]
    exact List.mem_map_of_mem (List.mem_append_right _ ho)
  obtain ⟨c, hc, he⟩ := List.mem_map.mp hm
  exact ⟨c, by rw [hi]; exact List.mem_append_left _ hc, he⟩

/-- The active and the pending sequence are distinct. -/
theorem active_ne_pending (hs : Simulates s t) (hd : Delivers t) {sequence : CommandSequence}
    (ha : s.frame.runner.driver.arbiter.activeSequence = some sequence) :
    s.frame.runner.driver.arbiter.pendingSequence ≠ some sequence := by
  intro hp
  obtain ⟨held, hi, hh⟩ := hs.inflight
  have hn := hd.answered_nodup
  rw [List.map_append, hi, List.map_append, hh.sequences] at hn
  have howned := hn.of_append_right.of_append_left.of_map
  have hsplit : s.frame.runner.driver.arbiter.owned.Nodup := howned.of_append_right
  rw [CommandArbiter.owned, ha, hp] at hsplit
  simp at hsplit

/-- A received command older than a queued one had its future dropped, unless it is
answered. -/
theorem older_dropped (hd : Delivers t) {a c : Command} (ha : a ∈ t.inflight)
    (hc : c ∈ t.shared.commands.queued) : a.sequence ∈ t.plane.dropped := by
  have hr := hd.inflight_received ha
  have hlt := hd.received_old hr hc
  rcases hd.delivery.accounted a (mem_sent_of_received hr) with hl | hl | hl
  · have hsent : c ∈ t.shared.commands.sent := List.mem_append_right _ hc
    rcases hd.traffic.live_newest hl hsent with he | he
    · rw [he] at hlt
      omega
    · omega
  · exact hl
  · exact (hd.inflight_unanswered ha hl).elim

/-- Cancellations in front of the cancellation of a newer command were taken. -/
theorem older_taken (hd : Delivers t) {x y : UInt32} {rest : List UInt32}
    (hq : t.shared.cancellations.queued = x :: rest) (hy : y ∈ t.plane.dropped)
    (hlt : y.toNat < x.toNat) : y ∈ t.shared.cancellations.received := by
  have hsent : t.shared.cancellations.sent = t.plane.dropped := hd.bounded.counted.delivered
  have hinc := hd.cancellations_increasing
  rw [← hsent, Channel.sent, hq] at hy
  rw [Channel.sent, hq] at hinc
  rcases List.mem_append.mp hy with hy | hy
  · exact hy
  · have hrest := (List.pairwise_append.mp hinc).2.1
    rcases List.mem_cons.mp hy with he | hm
    · rw [he] at hlt
      omega
    · have hafter := (List.pairwise_cons.mp hrest).1 _ hm
      omega

/-- The command of a finished future is not queued, nor is any other. -/
theorem queued_of_finishing (hd : Delivers t) {sequence : UInt32} {call : ControlCall}
    {kind : CompletionKind} (hf : t.plane.future = .finishing sequence call kind) :
    t.shared.commands.queued = [] := by
  have hanswered := hd.delivery.held sequence call kind hf
  have hlive : t.plane.future.armed = some ⟨sequence, call.command⟩ := by
    rw [hf]
    rfl
  exact (hd.delivery.settled _ kind hlive hanswered).2

/-- Without room for another command the pending slot holds one. -/
theorem pending_of_full {driver : IncrementalBackendDriver B} (hfull : driver.canSubmit = false) :
    ∃ sequence, driver.arbiter.pendingSequence = some sequence := by
  cases hp : driver.arbiter.pending with
  | none => simp [IncrementalBackendDriver.canSubmit, CommandArbiter.canSubmit, hp] at hfull
  | some held => exact ⟨held.sequence, by rw [CommandArbiter.pendingSequence, hp]; rfl⟩

/-- The pending command is older than every queued one, so its future was dropped. -/
theorem pending_dropped (hs : Simulates s t) (hd : Delivers t) {sequence : CommandSequence}
    (hp : s.frame.runner.driver.arbiter.pendingSequence = some sequence) {c : Command}
    (hc : c ∈ s.frame.shared.commands.queued) :
    sequence.get ∈ t.plane.dropped ∧ sequence.get.toNat < c.sequence.toNat := by
  have hown : sequence ∈ s.frame.runner.driver.arbiter.owned :=
    List.mem_append_right _ (Option.mem_toList.mpr hp)
  obtain ⟨d, hd', hsame⟩ := owned_inflight hs hown
  rw [← hs.shared] at hc
  rw [← hsame]
  exact ⟨older_dropped hd hd' hc, hd.received_old (hd.inflight_received hd') hc⟩

/-- A future that may still cancel a queued command waits for its answer. -/
theorem waiting_of_queued (hd : Delivers t) {command : Command}
    (hlive : t.plane.future.armed = some command) (hc : command ∈ t.shared.commands.queued) :
    ∃ sequence call, t.plane.future = .waiting sequence call ∧
      ⟨sequence, call.command⟩ ∈ t.shared.commands.queued := by
  cases hfut : t.plane.future with
  | waiting sequence call =>
    rw [hfut] at hlive
    cases hlive
    exact ⟨sequence, call, rfl, hc⟩
  | finishing sequence call kind =>
    exact (List.ne_nil_of_mem hc (queued_of_finishing hd hfut)).elim
  | idle | created call | sending sequence call =>
    rw [hfut] at hlive
    cases hlive

/-- A command about to be sent was not cancelled. -/
theorem sending_new (hs : Simulates s t) (hd : Delivers t) {sequence : UInt32} {call : ControlCall}
    (hf : s.plane.future = .sending sequence call) :
    ∀ x ∈ s.frame.shared.cancellations.sent, sequence ≠ x := by
  intro x hxs hsame
  have hsent : t.shared.cancellations.sent = t.plane.dropped := hd.bounded.counted.delivered
  rw [← hs.shared, hsent, ← hsame] at hxs
  rw [← hs.plane] at hf
  exact hd.sending_not_dropped hf hxs

/-- A dropped future has room for its cancellation. -/
theorem room_of_armed (hs : Simulates s t) (hd : Delivers t) {command : Command}
    (hlive : t.plane.future.armed = some command) :
    s.frame.shared.cancellations.queued.length < 3 := by
  have hr := hd.bounded.counted.room hlive
  have hc : t.view.mailbox.cancellations = s.frame.shared.cancellations :=
    congrArg SharedState.cancellations hs.shared
  rwa [hc] at hr

end Facts

/-- Nothing was taken before the first call. -/
theorem forwarded_start (backend : B) (budget : WorkBudget) (config : WifiConfig)
    (h : 0 < eventCapacity) : Forwarded (incrementalStart backend budget config h) where
  queued := fun _ hx => by cases hx
  entering := fun _ hx => by cases hx
  doomed := fun _ hx => by cases hx
  head := fun hl => by cases hl

section Steps

variable {s : IncrementalSystem B eventCapacity} {t : Service eventCapacity}

/-- Outside the forwarding itself every taken cancellation has reached its command. -/
theorem Forwarded.doomed_of (h : Forwarded s)
    {phase : IncrementalPhase} (hp : s.phase = phase)
    (hn : ∀ taken ready, phase ≠ .requesting taken ready) (sequence : CommandSequence)
    (hx : sequence.get ∈ s.frame.shared.cancellations.received) :
    Doomed sequence s.frame.runner.driver :=
  h.doomed sequence hx fun ready hr => hn sequence.get ready (hp.symm.trans hr)

/-- Away from the two looks only the driver matters. -/
theorem Forwarded.away {next : IncrementalSystem B eventCapacity} (h : Forwarded s)
    (hc : next.frame.shared.commands = s.frame.shared.commands)
    (hx : next.frame.shared.cancellations = s.frame.shared.cancellations)
    (hl : looking next.phase = false) {driver : IncrementalBackendDriver B}
    (hdriver : next.frame.runner.driver = driver)
    (hd : ∀ sequence : CommandSequence,
      sequence.get ∈ s.frame.shared.cancellations.received → Doomed sequence driver) :
    Forwarded next := by
  refine ⟨?_, ?_, ?_, ?_⟩
  · simpa only [hc, hx] using h.queued
  · intro x _ c ready hp
    rw [hp] at hl
    cases hl
  · intro sequence hs _
    rw [hx] at hs
    rw [hdriver]
    exact hd sequence hs
  · intro ht
    rw [hl] at ht
    cases ht

/-- A send puts a command in the channel whose cancellation was never sent. -/
theorem Forwarded.sent (h : Forwarded s) (hs : Simulates s t) (hd : Delivers t)
    {sequence : UInt32} {call : ControlCall} (hf : s.plane.future = .sending sequence call)
    (plane : ControlPlane) {shared : SharedState eventCapacity}
    (hc : shared.commands.queued = [⟨sequence, call.command⟩])
    (hx : shared.cancellations = s.frame.shared.cancellations) :
    Forwarded {s with plane := plane, frame := {s.frame with shared := shared}} := by
  have hnew := sending_new hs hd hf
  refine ⟨?_, by simpa only [hx] using h.entering, by simpa only [hx] using h.doomed, ?_⟩
  · intro x hxr c hcq
    simp only [hx] at hxr
    simp only [hc, List.mem_singleton] at hcq
    rw [hcq]
    exact hnew x (List.mem_append_left _ hxr)
  · intro hl x rest hxq c hcq
    simp only [hx] at hxq
    simp only [hc, List.mem_singleton] at hcq
    rw [hcq]
    refine hnew x (List.mem_append_right _ ?_)
    rw [hxq]
    exact List.mem_cons_self

/-- Between the two looks, with no other cancellation queued, only an overtaking drop cancels
a queued command. -/
theorem Forwarded.overtakes (h : Forwarded s) (hs : Simulates s t) (hd : Delivers t)
    (hl : looking s.phase = true) (hq : s.frame.shared.cancellations.queued = [])
    {command : Command} (hlive : t.plane.future.armed = some command)
    (hc : command ∈ t.shared.commands.queued) : Overtakes s := by
  cases hp : s.phase with
  | sampling ready =>
    obtain ⟨sequence, call, hfut, hm⟩ := waiting_of_queued hd hlive hc
    rw [hs.plane] at hfut
    rw [hs.shared] at hm
    exact ⟨⟨ready, hp⟩, hq, sequence, call, hfut, hm⟩
  | submitting entered ready =>
    -- the entered command is older, so its own cancellation is still queued
    obtain ⟨held, hi, -⟩ := hs.inflight
    have hin : entered ∈ t.inflight := by
      rw [hi, hp]
      exact List.mem_append_right _ (List.mem_singleton.mpr rfl)
    have hdropped := older_dropped hd hin hc
    have hall : t.shared.cancellations.sent = t.plane.dropped := hd.bounded.counted.delivered
    rw [← hall, hs.shared, Channel.sent, hq, List.append_nil] at hdropped
    exact (h.entering _ hdropped entered ready hp rfl).elim
  | idle | requesting taken ready | driving ready | publishing event =>
    rw [hp] at hl
    cases hl

/-- A drop that does not overtake puts the cancellation behind what was queued. -/
theorem Forwarded.dropped (h : Forwarded s) (hs : Simulates s t) (hd : Delivers t)
    {command : Command} (hf : s.plane.future.armed = some command) (hrace : ¬ Overtakes s)
    (plane : ControlPlane) {shared : SharedState eventCapacity}
    (hc : shared.commands = s.frame.shared.commands)
    (hx : shared.cancellations = (s.frame.shared.cancellations.trySend command.sequence).2) :
    Forwarded {s with plane := plane, frame := {s.frame with shared := shared}} := by
  have hlive : t.plane.future.armed = some command := by
    rw [hs.plane]
    exact hf
  have hqueue := (@trySend_of_lt _ _ _ command.sequence (room_of_armed hs hd hlive)).2.2
  refine ⟨by simpa only [hc, hx, trySend_received] using h.queued,
    by simpa only [hx, trySend_received] using h.entering,
    by simpa only [hx, trySend_received] using h.doomed, ?_⟩
  intro hl x rest hxq c hcq hsame
  simp only [hc] at hcq
  simp only [hx, hqueue] at hxq
  cases hold : s.frame.shared.cancellations.queued with
  | cons y tail =>
    rw [hold, List.cons_append, List.cons.injEq] at hxq
    exact h.head hl y tail hold c hcq (hsame.trans hxq.1.symm)
  | nil =>
    rw [hold, List.nil_append, List.cons.injEq] at hxq
    have hct : c ∈ t.shared.commands.queued := by
      rw [hs.shared]
      exact hcq
    have hcommand : c = command :=
      hd.traffic.sequence_inj (List.mem_append_right _ hct) (hd.traffic.live_sent hlive)
        (hsame.trans hxq.1.symm)
    subst hcommand
    exact hrace (h.overtakes hs hd hl hold hlive hct)

variable [IncrementalWifiBackend B]

/-- A controller step keeps the forwarding, unless it drops a command that the call
already missed. -/
theorem forwarded_control (interrupt : E → B → B) (hs : Simulates s t) (hd : Delivers t)
    (h : Forwarded s) (step : ControlStep) (hrace : step = .drop → ¬ Overtakes s) :
    Forwarded ((incrementalMachine interrupt).next s (.control step)) := by
  have he := step_effect s.plane s.frame.shared step
  have hdrop := @step_dropped _ s.plane s.frame.shared step
  simp only [Machine.next, incrementalMachine]
  generalize s.plane.step s.frame.shared step = next at he hdrop
  cases he with
  | quiet shared' hm =>
    have hc : shared'.commands = s.frame.shared.commands := congrArg Mailbox.commands hm
    have hx : shared'.cancellations = s.frame.shared.cancellations :=
      congrArg Mailbox.cancellations hm
    exact ⟨by simpa only [hc, hx] using h.queued, by simpa only [hx] using h.entering,
      by simpa only [hx] using h.doomed, by simpa only [hc, hx] using h.head⟩
  | sent sequence call hf shared' commands hq hr hsq hm =>
    have hc : shared'.commands = commands := congrArg Mailbox.commands hm
    exact h.sent hs hd hf _ (by rw [hc, hsq]) (congrArg Mailbox.cancellations hm)
  | dropped command hf =>
    refine h.dropped hs hd hf (fun ho => ?_) _ rfl rfl
    rcases hdrop (by simp [ControlPlane.dropGuard]) with hstep | ⟨sequence, call, kind, hfin⟩
    · exact hrace hstep ho
    · obtain ⟨-, -, sequence', call', hwait, -⟩ := ho
      rw [hfin] at hwait
      cases hwait
  | unsent future hn hf => exact ⟨h.queued, h.entering, h.doomed, h.head⟩
  | allocated call hf => exact ⟨h.queued, h.entering, h.doomed, h.head⟩
  | discarded sequence call hf completion hv hsq => exact ⟨h.queued, h.entering, h.doomed, h.head⟩
  | taken sequence call kind hf hv => exact ⟨h.queued, h.entering, h.doomed, h.head⟩
  | resolved sequence call kind hf result hr => exact ⟨h.queued, h.entering, h.doomed, h.head⟩

omit [IncrementalWifiBackend B] in
/-- The command that is received was not cancelled, and leaves the channel empty. -/
theorem Forwarded.received (h : Forwarded s) {command : Command} {rest : List Command}
    (ready : WaitSet) {frame : FacadeFrame B eventCapacity} (hp : s.phase = .idle)
    (hq : s.frame.shared.commands.queued = command :: rest)
    (hdriver : frame.runner.driver = s.frame.runner.driver)
    (hcommands : frame.shared.commands = s.frame.shared.commands.tryReceive.2)
    (hcancel : frame.shared.cancellations = s.frame.shared.cancellations) :
    Forwarded {s with frame := frame, phase := .submitting command ready} := by
  have hempty : frame.shared.commands.queued = [] := by
    have hb := s.frame.shared.commands.bounded
    rw [hq, List.length_cons] at hb
    rw [hcommands, (tryReceive_of_cons hq).2.2]
    exact List.eq_nil_of_length_eq_zero (by omega)
  refine ⟨?_, ?_, ?_, ?_⟩
  · intro x hx c hcq
    simp only [hempty, List.not_mem_nil] at hcq
  · intro x hx c ready' hsub
    cases hsub
    rw [hcancel] at hx
    exact h.queued x hx command (by rw [hq]; exact List.mem_cons_self)
  · intro sequence hx _
    simp only [hdriver, hcancel] at hx ⊢
    exact h.doomed_of hp (fun _ _ hn => by cases hn) sequence hx
  · intro _ x tail hxq c hcq
    simp only [hempty, List.not_mem_nil] at hcq

omit [IncrementalWifiBackend B] in
/-- A command stays queued behind a full driver, whose pending command was dropped before: the
next cancellation is not newer than that one's. -/
theorem Forwarded.unreceived (h : Forwarded s) (hs : Simulates s t) (hd : Delivers t)
    (ready : WaitSet) {frame : FacadeFrame B eventCapacity} (hp : s.phase = .idle)
    (hn : s.frame.shared.commands.queued = [] ∨ s.frame.runner.driver.canSubmit = false)
    (hdriver : frame.runner.driver = s.frame.runner.driver)
    (hcommands : frame.shared.commands = s.frame.shared.commands)
    (hcancel : frame.shared.cancellations = s.frame.shared.cancellations) :
    Forwarded {s with frame := frame, phase := .sampling ready} := by
  refine ⟨?_, ?_, ?_, ?_⟩
  · simpa only [hcommands, hcancel] using h.queued
  · exact fun _ _ _ _ hsub => by cases hsub
  · intro sequence hx _
    simp only [hdriver, hcancel] at hx ⊢
    exact h.doomed_of hp (fun _ _ hn => by cases hn) sequence hx
  · intro _ x rest hxq c hcq hsame
    simp only [hcommands, hcancel] at hxq hcq
    rcases hn with hempty | hfull
    · rw [hempty] at hcq
      cases hcq
    · -- the pending command is older than the queued one, so its cancellation was taken
      obtain ⟨sequence, hslot⟩ := pending_of_full hfull
      obtain ⟨hdropped, hlt⟩ := pending_dropped hs hd hslot hcq
      rw [← hs.shared] at hxq
      rw [hsame] at hlt
      have htaken := older_taken hd hxq hdropped hlt
      rw [hs.shared] at htaken
      have hdoomed := h.doomed_of hp (fun _ _ hn => by cases hn) sequence htaken
      exact hdoomed.notPending hslot

omit [IncrementalWifiBackend B] in
/-- The command that enters the pending slot was not cancelled. -/
theorem Forwarded.submitted (h : Forwarded s) {command : Command} {ready : WaitSet}
    {sequence : CommandSequence} {request : IncrementalRequest}
    {frame : FacadeFrame B eventCapacity} (hp : s.phase = .submitting command ready)
    (hseq : sequence.get = command.sequence)
    (hdriver : frame.runner.driver = submittedDriver sequence request s.frame.runner.driver)
    (hcommands : frame.shared.commands = s.frame.shared.commands)
    (hcancel : frame.shared.cancellations = s.frame.shared.cancellations) :
    Forwarded {s with frame := frame, phase := .sampling ready} := by
  refine ⟨?_, ?_, ?_, ?_⟩
  · simpa only [hcommands, hcancel] using h.queued
  · exact fun _ _ _ _ hsub => by cases hsub
  · intro x hx _
    simp only [hdriver, hcancel] at hx ⊢
    have hold := h.doomed_of hp (fun _ _ hn => by cases hn) x hx
    refine ⟨?_, hold.flagged⟩
    intro hslot
    have hsame : sequence = x := Option.some.inj hslot
    have hne := h.entering x.get hx command ready hp
    rw [← hseq, hsame] at hne
    exact hne rfl
  · intro _ x rest hxq c hcq
    simp only [hcommands, hcancel] at hxq hcq
    exact h.head (by rw [hp]; rfl) x rest hxq c hcq

omit [IncrementalWifiBackend B] in
/-- The cancellation that is taken is not that of a queued command. -/
theorem Forwarded.sampled (h : Forwarded s) {x : UInt32} {rest : List UInt32} {ready : WaitSet}
    {frame : FacadeFrame B eventCapacity} (hp : s.phase = .sampling ready)
    (hq : s.frame.shared.cancellations.queued = x :: rest)
    (hdriver : frame.runner.driver = s.frame.runner.driver)
    (hcommands : frame.shared.commands = s.frame.shared.commands)
    (hcancel : frame.shared.cancellations = s.frame.shared.cancellations.tryReceive.2) :
    Forwarded {s with frame := frame, phase := .requesting x ready} := by
  have hreceived : frame.shared.cancellations.received =
      s.frame.shared.cancellations.received ++ [x] := by
    rw [hcancel]
    exact (tryReceive_of_cons hq).2.1
  refine ⟨?_, ?_, ?_, ?_⟩
  · intro y hy c hcq
    simp only [hcommands, hreceived] at hy hcq
    rcases List.mem_append.mp hy with hy | hy
    · exact h.queued y hy c hcq
    · rw [List.mem_singleton.mp hy]
      exact h.head (by rw [hp]; rfl) x rest hq c hcq
  · exact fun _ _ _ _ hsub => by cases hsub
  · intro sequence hx hn
    simp only [hreceived] at hx
    rcases List.mem_append.mp hx with hx | hx
    · simp only [hdriver]
      exact h.doomed_of hp (fun _ _ hn => by cases hn) sequence hx
    · exact (hn ready (by rw [List.mem_singleton.mp hx])).elim
  · exact fun hl => by cases hl

omit [IncrementalWifiBackend B] in
/-- Another sequence is not the one being forwarded. -/
theorem requesting_ne {sequence x : CommandSequence} {ready : WaitSet}
    (hp : s.phase = .requesting sequence.get ready) (hne : x ≠ sequence) (ready' : WaitSet) :
    s.phase ≠ .requesting x.get ready' := by
  intro hr
  rw [hp] at hr
  injection hr with hget
  exact hne (CommandSequence.get_injective hget).symm

omit [IncrementalWifiBackend B] in
/-- A forwarded cancellation flags its command in the active slot, or the driver does not hold
the command. -/
theorem Forwarded.requested (h : Forwarded s) (hs : Simulates s t) (hd : Delivers t)
    {sequence : CommandSequence} {ready : WaitSet} (hp : s.phase = .requesting sequence.get ready)
    (hk : s.frame.runner.driver.arbiter.activeSequence = some sequence ∨
      s.frame.runner.driver.arbiter.pendingSequence ≠ some sequence) {x : CommandSequence}
    (hx : x.get ∈ s.frame.shared.cancellations.received) :
    Doomed x (after (IncrementalBackendDriver.requestCancel sequence s.frame.runner.driver)) := by
  by_cases hsame : x = sequence
  · subst hsame
    by_cases ha : s.frame.runner.driver.arbiter.activeSequence = some x
    · exact doomed_of_request ha (active_ne_pending hs hd ha)
    · have hpend := hk.resolve_left ha
      rw [request_neutral (Or.inl ⟨ha, hpend⟩), after_ok]
      refine ⟨hpend, fun a hact hsa => ?_⟩
      have hslot := CommandArbiter.activeSequence_of_active hact
      rw [hsa] at hslot
      exact (ha hslot).elim
  · exact request_doomed (h.doomed x hx (requesting_ne hp hsame)) sequence

omit [IncrementalWifiBackend B] in
/-- A cancellation that removes the pending command leaves the active one, which is another. -/
theorem Forwarded.removed (h : Forwarded s) {sequence : CommandSequence} {ready : WaitSet}
    (hp : s.phase = .requesting sequence.get ready)
    (ha : s.frame.runner.driver.arbiter.activeSequence ≠ some sequence) {x : CommandSequence}
    (hx : x.get ∈ s.frame.shared.cancellations.received) :
    Doomed x (removedDriver s.frame.runner.driver) := by
  refine ⟨by simp [removedDriver, CommandArbiter.pendingSequence], fun a hact hsa => ?_⟩
  have hactive : s.frame.runner.driver.arbiter.active = some a := hact
  by_cases hsame : x = sequence
  · have hslot := CommandArbiter.activeSequence_of_active hactive
    rw [hsa, hsame] at hslot
    exact (ha hslot).elim
  · exact (h.doomed x hx (requesting_ne hp hsame)).flagged a hact hsa

/-- A runner step keeps the forwarding: no cancellation is taken in front of its
command, and a taken one is flagged before the drive. -/
theorem forwarded_runner (ready : WaitSet) (hs : Simulates s t) (hd : Delivers t)
    (h : Forwarded s) : Forwarded (runnerStep ready s).1 := by
  have he := runnerStep_effect ready hs hd.bounded
  generalize runnerStep ready s = next at he
  cases he with
  | received command rest ready frame hp hc hq ho hm =>
    exact h.received ready hp hq (congrArg Owner.driver ho) (congrArg Mailbox.commands hm)
      (congrArg Mailbox.cancellations hm)
  | unreceived ready frame hp hn ho hm =>
    exact h.unreceived hs hd ready hp hn (congrArg Owner.driver ho) (congrArg Mailbox.commands hm)
      (congrArg Mailbox.cancellations hm)
  | submitted command ready sequence request frame hp hseq ho hm =>
    exact h.submitted hp hseq (congrArg Owner.driver ho) (congrArg Mailbox.commands hm)
      (congrArg Mailbox.cancellations hm)
  | sampled x rest ready frame hp hq ho hm =>
    exact h.sampled hp hq (congrArg Owner.driver ho) (congrArg Mailbox.commands hm)
      (congrArg Mailbox.cancellations hm)
  | unsampled ready hp hq =>
    exact h.away rfl rfl rfl rfl (h.doomed_of hp (fun _ _ hn => by cases hn))
  | requested sequence ready frame hp hk ho hm =>
    exact h.away (congrArg Mailbox.commands hm) (congrArg Mailbox.cancellations hm) rfl
      (congrArg Owner.driver ho) fun _ hx => h.requested hs hd hp hk hx
  | removed sequence kind ready frame hp ha hpend hk ho hm =>
    exact h.away (congrArg Mailbox.commands hm) (congrArg Mailbox.cancellations hm) rfl
      (congrArg Owner.driver ho) fun _ hx => h.removed hp ha hx
  | driven ready event drive frame hp hdrive ho hm =>
    refine h.away (congrArg Mailbox.commands hm) (congrArg Mailbox.cancellations hm) rfl
      (congrArg Owner.driver ho) fun x hx => ?_
    have hold := h.doomed_of hp (fun _ _ hn => by cases hn) x hx
    exact (drive_doomed hold.marked hdrive).1
  | failed ready error drive frame hp hdrive ho hm =>
    refine h.away (congrArg Mailbox.commands hm) (congrArg Mailbox.cancellations hm) rfl
      (congrArg Owner.driver ho) fun x hx => ?_
    have hold := h.doomed_of hp (fun _ _ hn => by cases hn) x hx
    exact (drive_doomed hold.marked hdrive).1
  | published event sequence kind frame hp ht hk ho hm =>
    refine h.away (congrArg Mailbox.commands hm) (congrArg Mailbox.cancellations hm) rfl
      (congrArg Owner.driver ho) fun x hx => ?_
    exact h.doomed_of hp (fun _ _ hn => by cases hn) x hx
  | unpublished event hp ht =>
    exact h.away rfl rfl rfl rfl (h.doomed_of hp (fun _ _ hn => by cases hn))

/-- Every step keeps the forwarding, unless it drops a command that the call missed. -/
theorem forwarded_step (interrupt : E → B → B) (hs : Simulates s t) (hd : Delivers t)
    (h : Forwarded s)
    (input : IncrementalInput E) (hrace : input = .control .drop → ¬ Overtakes s) :
    Forwarded ((incrementalMachine interrupt).next s input) := by
  cases input with
  | control step =>
    exact forwarded_control interrupt hs hd h step fun hx => hrace (congrArg _ hx)
  | runner ready => exact forwarded_runner ready hs hd h
  | backendEvent event =>
    refine ⟨h.queued, h.entering, ?_, h.head⟩
    intro x hx hn
    have hold := h.doomed x hx hn
    exact ⟨hold.notPending, hold.flagged⟩

end Steps

variable [IncrementalWifiBackend B]

section Effects

variable {s : IncrementalSystem B eventCapacity} {t : Service eventCapacity}

omit [IncrementalWifiBackend B] in
/-- With the forwarding kept, the cancellation about to be taken is effective: its
command is not queued, so it is answered or in a slot of the driver. -/
theorem Forwarded.effective (h : Forwarded s) (hs : Simulates s t) (hd : Delivers t) :
    Effective s := by
  intro ready x rest hp hq
  have hsent : t.shared.cancellations.sent = t.plane.dropped := hd.bounded.counted.delivered
  have hx : x ∈ t.plane.dropped := by
    rw [← hsent, hs.shared, Channel.sent, hq]
    exact List.mem_append_right _ List.mem_cons_self
  obtain ⟨c, hc, hsame⟩ := hd.traffic.droppedSent x hx
  rcases List.mem_append.mp hc with hc | hc
  · rcases List.mem_append.mp (hd.answers.balanced.mem_iff.mp hc) with ha | hi
    · obtain ⟨answer, hmem, hcommand⟩ := List.mem_map.mp ha
      have hw : t.shared.completion.written = t.answered.map completionOf := hd.answers.written
      refine Or.inl ⟨completionOf answer, ?_, ?_⟩
      · rw [← hs.shared, hw]
        exact List.mem_map_of_mem hmem
      · rw [← hsame, ← hcommand]
        rfl
    · obtain ⟨held, hinflight, hh⟩ := hs.inflight
      simp only [hp, IncrementalService.entering, Option.toList_none, List.append_nil] at hinflight
      have hseq := hh.sequences
      simp only [hp, ended, Option.toList_none, List.nil_append] at hseq
      have hm : x ∈ s.frame.runner.driver.arbiter.owned.map CommandSequence.get := by
        rw [← hsame]
        exact hseq ▸ List.mem_map_of_mem (hinflight ▸ hi)
      obtain ⟨sequence, hown, hget⟩ := List.mem_map.mp hm
      rcases List.mem_append.mp hown with ha | hpend
      · refine Or.inr (Or.inl ?_)
        rw [Option.mem_toList.mp ha, ← hget]
        rfl
      · refine Or.inr (Or.inr ?_)
        rw [Option.mem_toList.mp hpend, ← hget]
        rfl
  · rw [hs.shared] at hc
    exact (h.head (by rw [hp]; rfl) x rest hq c hc hsame).elim

omit [IncrementalWifiBackend B] in
/-- A queued command is not answered, and the driver does not own it. -/
theorem queued_unknown (hs : Simulates s t) (hd : Delivers t) {c : Command}
    (hc : c ∈ s.frame.shared.commands.queued) :
    (∀ y ∈ s.frame.shared.completion.written, y.sequence ≠ c.sequence) ∧
      ∀ sequence ∈ s.frame.runner.driver.arbiter.owned, sequence.get ≠ c.sequence := by
  rw [← hs.shared] at hc ⊢
  constructor
  · intro y hy hsame
    have hsent : c ∈ t.shared.commands.sent := List.mem_append_right _ hc
    have ha := hd.answered_of_written hsent hy hsame
    have hlt := hd.received_old (hd.answers.answered_received ha) hc
    exact Nat.lt_irrefl _ hlt
  · intro sequence hown hsame
    obtain ⟨d, hi, hseq⟩ := owned_inflight hs hown
    have hlt := hd.received_old (hd.inflight_received hi) hc
    rw [hseq, hsame] at hlt
    exact Nat.lt_irrefl _ hlt

/-- After a drop that overtakes its command, the cancellation taken next is ineffective. -/
theorem overtaken_ineffective (interrupt : E → B → B) (hs : Simulates s t) (hd : Delivers t)
    (h : Overtakes s) : ¬ Effective ((incrementalMachine interrupt).next s (.control .drop)) := by
  obtain ⟨⟨ready, hp⟩, hempty, sequence, call, hf, hc⟩ := h
  obtain ⟨hwritten, howned⟩ := queued_unknown hs hd hc
  have hroom : s.frame.shared.cancellations.queued.length < 3 := by
    rw [hempty, List.length_nil]
    omega
  have hqueue := (@trySend_of_lt _ _ _ sequence hroom).2.2
  rw [hempty, List.nil_append] at hqueue
  intro heffective
  have hserved := heffective ready sequence [] hp
    (by simpa only [Machine.next, incrementalMachine, ControlPlane.step, hf,
      ControlPlane.dropGuard] using hqueue)
  simp only [Machine.next, incrementalMachine, ControlPlane.step, hf, ControlPlane.dropGuard]
    at hserved
  rcases hserved with ⟨y, hy, hsame⟩ | ha | hpend
  · exact hwritten y hy hsame
  · obtain ⟨x, hx, hget⟩ := Option.map_eq_some_iff.mp ha
    exact howned x (List.mem_append_left _ (Option.mem_toList.mpr hx)) hget
  · obtain ⟨x, hx, hget⟩ := Option.map_eq_some_iff.mp hpend
    exact howned x (List.mem_append_right _ (Option.mem_toList.mpr hx)) hget

end Effects

section Runs

variable {interrupt : E → B → B} {backend : B} {budget : WorkBudget} {config : WifiConfig}
  {hpos : 0 < eventCapacity}

/-- A run without an overtaking drop keeps the forwarding. -/
theorem run_forwarded (inputs : List (IncrementalInput E))
    (hb : (incrementalRun interrupt backend budget config hpos inputs).plane.allocated < 2 ^ 32 - 1)
    (hrace : ∀ before after, inputs = before ++ .control .drop :: after →
      ¬ Overtakes (incrementalRun interrupt backend budget config hpos before)) :
    Forwarded (incrementalRun interrupt backend budget config hpos inputs) := by
  induction inputs using List.reverseRecOn with
  | nil => exact forwarded_start backend budget config hpos
  | append_singleton before input ih =>
    have hbefore := allocated_before hb
    obtain ⟨t, hs, hd⟩ := run_reached before hbefore
    have hold := ih hbefore fun earlier after he => hrace earlier (after ++ [input]) (by
      rw [he, List.append_assoc, List.cons_append])
    rw [incrementalRun, run_concat]
    refine forwarded_step interrupt hs hd hold input ?_
    intro hdrop
    exact hrace before [] (by rw [hdrop])

/-- In a run that used fewer than `2 ^ 32 - 1` sequences, every cancellation that it takes is
effective exactly when no drop of the run overtakes its own command. -/
theorem cancellations_effective_iff (inputs : List (IncrementalInput E))
    (hb : (incrementalRun interrupt backend budget config hpos inputs).plane.allocated <
      2 ^ 32 - 1) :
    (∀ before after, inputs = before ++ after →
      Effective (incrementalRun interrupt backend budget config hpos before)) ↔
    ∀ before after, inputs = before ++ .control .drop :: after →
      ¬ Overtakes (incrementalRun interrupt backend budget config hpos before) := by
  constructor
  · intro h before after he hover
    subst he
    obtain ⟨t, hs, hd⟩ := run_reached before (allocated_before hb)
    refine overtaken_ineffective interrupt hs hd hover ?_
    have hnext := h (before ++ [.control .drop]) after (by rw [List.append_assoc]; rfl)
    rwa [incrementalRun, run_concat] at hnext
  · intro hrace before after he
    subst he
    obtain ⟨t, hs, hd⟩ := run_reached before (allocated_before hb)
    refine (run_forwarded before (allocated_before hb) ?_).effective hs hd
    intro earlier rest hx
    exact hrace earlier (rest ++ after) (by rw [hx, List.append_assoc, List.cons_append])

end Runs

/-- A disconnection is dropped while its call is between submission and sampling. -/
def samplingDrop : List (IncrementalInput Unit) :=
  [.control (.call .disconnect), .control .allocate, .control .send, .runner .empty,
    .runner .empty, .control .drop]

/-- The cancellation of that drop finds its command pending. -/
theorem cancellations_effective_sampling : Effective (replayRun samplingDrop) := by
  have hb : (replayRun samplingDrop).plane.allocated < 2 ^ 32 - 1 := by decide +kernel
  have hempty : (replayRun (samplingDrop.take 5)).frame.shared.commands.queued = [] := by
    decide +kernel
  refine (cancellations_effective_iff samplingDrop hb).mpr ?_ samplingDrop []
    (List.append_nil _).symm
  intro before after he hover
  have hlen : before.length < 6 := by
    have hl := congrArg List.length he
    rw [List.length_append, List.length_cons] at hl
    have hsix : samplingDrop.length = 6 := rfl
    omega
  have hget : samplingDrop[before.length]? = some (.control .drop) := by
    rw [he]
    simp
  have htake : before = samplingDrop.take before.length := by
    rw [he]
    simp
  -- the only drop is the last step
  have hlast : before.length = 5 := by
    interval_cases before.length <;> first | rfl | cases hget
  rw [hlast] at htake
  obtain ⟨-, -, sequence, call, -, hc⟩ := hover
  rw [htake] at hc
  exact List.ne_nil_of_mem hc hempty

/-- A disconnection is sent and dropped between the two looks of a call. -/
def overtakingDrop : List (IncrementalInput Unit) :=
  [.runner .empty, .control (.call .disconnect), .control .allocate, .control .send,
    .control .drop]

/-- The rest of that call, and two calls that start and finish the command. -/
def laterCalls : List (IncrementalInput Unit) :=
  List.replicate 4 (.runner .empty) ++ List.replicate 5 (.runner .empty) ++
    List.replicate 4 (.runner .backend)

/-- The call takes the cancellation of a command that is neither answered nor owned,
and the command is executed to its success although its future was dropped. -/
theorem overtaken_cancellation_lost :
    ¬ (∀ before after, overtakingDrop = before ++ after → Effective (replayRun before)) ∧
    (replayRun (overtakingDrop ++ [.runner .empty])).frame.shared.cancellations.received = [1] ∧
    (replayRun (overtakingDrop ++ laterCalls)).frame.shared.completion.written =
      [⟨1, .disconnect (.ok ())⟩] := by
  refine ⟨?_, by decide +kernel, by decide +kernel⟩
  intro h
  have hp : (replayRun overtakingDrop).phase = .sampling .empty := by decide +kernel
  have hq : (replayRun overtakingDrop).frame.shared.cancellations.queued = [1] := by
    decide +kernel
  have hw : (replayRun overtakingDrop).frame.shared.completion.written = [] := by decide +kernel
  have ho : (replayRun overtakingDrop).frame.runner.driver.arbiter.owned = [] := by
    decide +kernel
  rcases h overtakingDrop [] (List.append_nil _).symm .empty 1 [] hp hq with
    ⟨y, hy, -⟩ | ha | hpend
  · rw [hw] at hy
    cases hy
  · obtain ⟨x, hx, -⟩ := Option.map_eq_some_iff.mp ha
    exact List.ne_nil_of_mem (List.mem_append_left _ (Option.mem_toList.mpr hx)) ho
  · obtain ⟨x, hx, -⟩ := Option.map_eq_some_iff.mp hpend
    exact List.ne_nil_of_mem (List.mem_append_right _ (Option.mem_toList.mpr hx)) ho

end HisiRfCore.CancellationForwarding
