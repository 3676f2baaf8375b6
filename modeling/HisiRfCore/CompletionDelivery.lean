import HisiRfCore.BlockingAbandonment
import HisiRfCore.IncrementalService

/-!
# Completions reach the calls they answer

While a call waits, the completion signalled for it stays in the signal; when it
resolves, it does so with that completion and with the scan buffer as it was when
the completion was signalled. The argument is made once, for any system that
provides the command service, and holds of both runners.
-/

namespace HisiRfCore.CompletionDelivery

open NonZeroCounter BoundedChannel WifiTypes RadioStorage AsyncControl ServiceProtocol
open ServiceDelivery BlockingRunner BlockingAbandonment IncrementalContract
open IncrementalInterleaving IncrementalService InputOutputMachine

variable {eventCapacity : ℕ}

/-- Error that a call returned. -/
def errorOf : ControlResult → Option Error
  | .initialise (.error error) | .scan (.error error) _ | .connect (.error error)
  | .disconnect (.error error) => some error
  | _ => none

/-- A completion of another kind and a protocol failure both resolve a call as a
protocol error. -/
theorem resolve_mismatched {call : ControlCall} {kind : CompletionKind} {buffer : ScanBuffer}
    {result : ControlResult} (h : call.resolve kind buffer = some result)
    (ht : kind.tag ≠ some (.fromCommand call.command)) : errorOf result = some .protocol := by
  cases call <;> cases kind <;>
    simp only [ControlCall.resolve, Option.some.injEq, CompletionKind.tag, ControlCall.command,
      CommandKindTag.fromCommand, ne_eq, not_true_eq_false] at h ht <;>
    subst h <;> rfl

/-- No resolved call is still outstanding. -/
def ResolvedOff (plane : ControlPlane) : Prop :=
  ∀ r ∈ plane.resolved, ∀ c, plane.future.armed = some c → c.sequence ≠ r.sequence

/-- An answered command, with the buffer that its call copies from. -/
structure Kept (c : Command) (kind : CompletionKind) (buffer : ScanBuffer)
    (t : Service eventCapacity) : Prop where
  /-- It was sent. -/
  sent : c ∈ t.shared.commands.sent
  /-- It was answered. -/
  answered : (c, kind) ∈ t.answered
  /-- While its call is outstanding the buffer is not written. -/
  unwritten : t.plane.future.armed = some c → t.shared.scanResults = buffer
  /-- Its call resolved from the buffer. -/
  copied : ∀ r ∈ t.plane.resolved, r.sequence = c.sequence →
    r.call.resolve r.kind buffer = some r.result

section Steps

variable {t u : Service eventCapacity}

/-- A sent command that is outstanding was outstanding before. -/
theorem armed_back (hd : Delivers t) (hs : ServiceStep t u) {c : Command}
    (hc : c ∈ t.shared.commands.sent) (ha : u.plane.future.armed = some c) :
    t.plane.future.armed = some c := by
  cases hs with
  | runner _ hp hm =>
    rw [hp] at ha
    exact ha
  | control step =>
    have he := step_effect t.plane t.shared step
    dsimp only at ha
    generalize t.plane.step t.shared step = next at he ha
    cases he with
    | quiet shared hm => exact ha
    | unsent future hu hf =>
      rcases hf with rfl | ⟨call, rfl⟩ <;> cases ha
    | allocated call hf => cases ha
    | sent sequence call hf shared commands hq hr hs hm =>
      cases ha
      obtain ⟨hseq, hfresh⟩ := hd.traffic.fresh sequence call hf
      have hlt := hfresh _ hc
      rw [← hd.traffic.counter, ← hseq] at hlt
      exact (Nat.lt_irrefl _ hlt).elim
    | discarded sequence call hf completion hv hs => exact ha
    | taken sequence call kind hf hv =>
      cases ha
      rw [hf]
      rfl
    | resolved sequence call kind hf result hr => cases ha
    | dropped command hf => cases ha

/-- Answers are not taken back. -/
theorem answered_step (hs : ServiceStep t u) {x : Command × CompletionKind}
    (hx : x ∈ t.answered) : x ∈ u.answered := by
  cases hs with
  | control step => exact hx
  | runner _ hp hm =>
    rcases u with ⟨plane, shared, inflight, owing, answered⟩
    have hv : ∀ w, RunnerMove t.view w → x ∈ w.answered := by
      intro w hw
      cases hw with
      | complete before after command kind hi ho => exact List.mem_append_left _ hx
      | _ => exact hx
    exact hv _ hm

/-- Sent commands stay sent. -/
theorem sent_step (hs : ServiceStep t u) {c : Command} (hc : c ∈ t.shared.commands.sent) :
    c ∈ u.shared.commands.sent := by
  cases hs with
  | runner _ hp hm =>
    have hsent : u.shared.commands.sent = t.shared.commands.sent := sent_of_move hm
    rw [hsent]
    exact hc
  | control step =>
    have hf := control_forwards (step_effect t.plane t.shared step)
    have hreceived : (t.plane.step t.shared step).2.commands.received =
        t.shared.commands.received := hf.commandsReceived
    rcases List.mem_append.mp hc with hc | hc
    · exact List.mem_append_left _ (hreceived ▸ hc)
    · exact List.mem_append_right _ (hf.commands.subset hc)

/-- Nothing writes the scan buffer while the call of an answered command is outstanding. -/
theorem scan_step (hd : Delivers t) (hs : ServiceStep t u) {c : Command} {kind : CompletionKind}
    (ha : t.plane.future.armed = some c) (hk : (c, kind) ∈ t.answered) :
    u.shared.scanResults = t.shared.scanResults := by
  cases hs with
  | control step =>
    exact (control_forwards (step_effect t.plane t.shared step)).scanResults
  | runner _ hp hm =>
    have hnone : t.inflight = [] := (hd.delivery.settled c kind ha hk).1
    have hv : ∀ w, RunnerMove t.view w → w.mailbox.scanResults = t.shared.scanResults := by
      intro w hw
      cases hw with
      | write scanResults hi => exact (hi hnone).elim
      | _ => rfl
    exact hv _ hm

/-- A call resolves with the completion it took and the buffer of that moment. -/
theorem resolved_step (hs : ServiceStep t u) :
    u.plane.resolved = t.plane.resolved ∨
      ∃ sequence call kind result, t.plane.future = .finishing sequence call kind ∧
        call.resolve kind t.shared.scanResults = some result ∧ u.plane.future = .idle ∧
        u.plane.resolved = t.plane.resolved ++ [⟨sequence, call, kind, result⟩] := by
  cases hs with
  | runner _ hp hm => exact Or.inl (congrArg ControlPlane.resolved hp)
  | control step =>
    have he := step_effect t.plane t.shared step
    dsimp only
    generalize t.plane.step t.shared step = next at he
    cases he with
    | resolved sequence call kind hf result hr =>
      exact Or.inr ⟨sequence, call, kind, result, hf, hr, rfl, rfl⟩
    | _ => exact Or.inl rfl

/-- A resolved call does not become outstanding again. -/
theorem resolvedOff_step (hd : Delivers t) (h : ResolvedOff t.plane) (hs : ServiceStep t u) :
    ResolvedOff u.plane := by
  intro r hr c ha he
  rcases resolved_step hs with hsame | ⟨sequence, call, kind, result, hf, hx, hidle, happend⟩
  · rw [hsame] at hr
    have hsent : (⟨r.sequence, r.call.command⟩ : Command) ∈ t.shared.commands.sent :=
      mem_sent_of_received (hd.answers.answered_received (hd.delivery.resolved r hr).1)
    cases hs with
    | runner _ hp hm =>
      rw [hp] at ha
      exact h r hr c ha he
    | control step =>
      have heffect := step_effect t.plane t.shared step
      dsimp only at ha
      generalize t.plane.step t.shared step = next at heffect ha
      cases heffect with
      | quiet shared hm => exact h r hr c ha he
      | unsent future hu hf => rcases hf with rfl | ⟨call, rfl⟩ <;> cases ha
      | allocated call hf => cases ha
      | sent sequence call hf shared commands hq hcr hcs hm =>
        cases ha
        obtain ⟨hseq, hfresh⟩ := hd.traffic.fresh sequence call hf
        have hlt := hfresh _ hsent
        rw [← hd.traffic.counter, ← hseq] at hlt
        dsimp only at he hlt
        rw [he] at hlt
        omega
      | discarded sequence call hf completion hv hsq => exact h r hr c ha he
      | taken sequence call kind hf hv =>
        cases ha
        exact h r hr ⟨sequence, call.command⟩ (by rw [hf]; rfl) he
      | resolved sequence call kind hf result hr => cases ha
      | dropped command hf => cases ha
  · rw [hidle] at ha
    cases ha

/-- Every step keeps an answered command with its buffer. -/
theorem kept_step (hd : Delivers t) (hs : ServiceStep t u) {c : Command} {kind : CompletionKind}
    {buffer : ScanBuffer} (h : Kept c kind buffer t) : Kept c kind buffer u := by
  refine ⟨sent_step hs h.sent, answered_step hs h.answered, ?_, ?_⟩
  · intro ha
    have hback := armed_back hd hs h.sent ha
    rw [scan_step hd hs hback h.answered]
    exact h.unwritten hback
  · intro r hr he
    rcases resolved_step hs with hsame | ⟨sequence, call, k, result, hf, hx, -, happend⟩
    · rw [hsame] at hr
      exact h.copied r hr he
    · rw [happend] at hr
      rcases List.mem_append.mp hr with hr | hr
      · exact h.copied r hr he
      · rw [List.mem_singleton.mp hr] at he ⊢
        have harm : t.plane.future.armed = some ⟨sequence, call.command⟩ := by
          rw [hf]
          rfl
        have hc := hd.traffic.sequence_inj (hd.traffic.live_sent harm) h.sent he
        rw [hc] at harm
        rw [← h.unwritten harm]
        exact hx

end Steps

section Runs

variable {σ ι ο : Type} (m : Machine σ ι ο) (plane : σ → ControlPlane)
  (shared : σ → SharedState eventCapacity) (start : σ) (inputs : List ι)

/-- What a run delivers to the calls of the controller. -/
structure DeliversCompletions : Prop where
  /-- A completion signalled for a waiting call is in the signal until the call takes it. -/
  kept : ∀ sequence call x, (plane (m.run start inputs)).future = .waiting sequence call →
    x ∈ (shared (m.run start inputs)).completion.written → x.sequence = sequence →
    (shared (m.run start inputs)).completion.value = some x
  /-- A call resolves with the result of the one completion of its own sequence; a
  completion of another kind is a protocol error. -/
  resolved : ∀ r ∈ (plane (m.run start inputs)).resolved,
    (shared (m.run start inputs)).completion.written.filter (fun x => x.sequence = r.sequence) =
      [⟨r.sequence, r.kind⟩] ∧
    (∃ buffer, r.call.resolve r.kind buffer = some r.result) ∧
    (r.kind.tag ≠ some (.fromCommand r.call.command) → errorOf r.result = some .protocol)
  /-- The scan buffer is not written from the signal of a completion to the end of its call. -/
  buffer : ∀ before after c x, inputs = before ++ after →
    (plane (m.run start before)).future.armed = some c →
    x ∈ (shared (m.run start before)).completion.written → x.sequence = c.sequence →
    (plane (m.run start inputs)).future.armed = some c →
    (shared (m.run start inputs)).scanResults = (shared (m.run start before)).scanResults
  /-- The result of a call is copied from the buffer of the signal. -/
  copied : ∀ before after c x r, inputs = before ++ after →
    (plane (m.run start before)).future.armed = some c →
    x ∈ (shared (m.run start before)).completion.written → x.sequence = c.sequence →
    r ∈ (plane (m.run start inputs)).resolved → r.sequence = c.sequence →
    r.call.resolve r.kind (shared (m.run start before)).scanResults = some r.result

variable {m plane shared start inputs}

/-- The counter only grows, so a run below the wrap was below it before its last step. -/
theorem simulated_bound {R : σ → Service eventCapacity → Prop}
    (hread : ∀ s t, R s t → t.plane = plane s ∧ t.shared = shared s)
    (hstep : ∀ s t i, R s t → Bounded t → ∃ u, ServiceStep t u ∧ R (m.next s i) u)
    {hpos : 0 < eventCapacity} (h0 : R start (Service.new hpos)) (before : List ι) (i : ι)
    (hb : (plane (m.next (m.run start before) i)).allocated < 2 ^ 32 - 1) :
    (plane (m.run start before)).allocated < 2 ^ 32 - 1 := by
  obtain ⟨t, hr, hbd⟩ := simulated_bounded m hstep h0 before
  obtain ⟨u, hs, hu⟩ := hstep _ t i hr hbd
  have hle := service_allocated hs
  rw [(hread _ _ hr).1, (hread _ _ hu).1] at hle
  exact Nat.lt_of_le_of_lt hle hb

/-- Every state below the wrap is simulated by a service that delivers. -/
theorem simulated_run {R : σ → Service eventCapacity → Prop}
    (hread : ∀ s t, R s t → t.plane = plane s ∧ t.shared = shared s)
    (hstep : ∀ s t i, R s t → Bounded t → ∃ u, ServiceStep t u ∧ R (m.next s i) u)
    {hpos : 0 < eventCapacity} (h0 : R start (Service.new hpos))
    (hb : (plane (m.run start inputs)).allocated < 2 ^ 32 - 1) :
    ∃ t, R (m.run start inputs) t ∧ Delivers t ∧ ResolvedOff t.plane := by
  refine run_invariant_below m (I := fun s => ∃ t, R s t ∧ Delivers t ∧ ResolvedOff t.plane)
    (B := fun s => (plane s).allocated < 2 ^ 32 - 1)
    ⟨_, h0, delivers_new hpos, fun r hr => by cases hr⟩ (simulated_bound hread hstep h0) ?_
    inputs hb
  rintro s i hbound ⟨t, hr, hd, hoff⟩
  obtain ⟨u, hs, hu⟩ := hstep s t i hr hd.bounded
  rw [← (hread _ _ hu).1] at hbound
  exact ⟨u, hu, service_delivers hd hs hbound, resolvedOff_step hd hoff hs⟩

/-- A completion signalled for a live call is kept for it to the end of the run. -/
theorem simulated_kept {R : σ → Service eventCapacity → Prop}
    (hread : ∀ s t, R s t → t.plane = plane s ∧ t.shared = shared s)
    (hstep : ∀ s t i, R s t → Bounded t → ∃ u, ServiceStep t u ∧ R (m.next s i) u)
    {hpos : 0 < eventCapacity} (h0 : R start (Service.new hpos)) {before after : List ι}
    (hb : (plane (m.run start (before ++ after))).allocated < 2 ^ 32 - 1)
    {c : Command} {x : Completion} (ha : (plane (m.run start before)).future.armed = some c)
    (hx : x ∈ (shared (m.run start before)).completion.written) (hsx : x.sequence = c.sequence) :
    ∃ t, R (m.run start (before ++ after)) t ∧
      Kept c x.kind (shared (m.run start before)).scanResults t := by
  have hbound := simulated_bound hread hstep h0
  obtain ⟨t, hr, hd, hoff⟩ := simulated_run hread hstep h0
    (bound_of_append m (B := fun s => (plane s).allocated < 2 ^ 32 - 1) hbound hb)
  have hplane := (hread _ _ hr).1
  have hshared := (hread _ _ hr).2
  have hstart : Kept c x.kind (shared (m.run start before)).scanResults t := by
    rw [← hplane] at ha
    rw [← hshared] at hx ⊢
    have hsent := hd.traffic.live_sent ha
    refine ⟨hsent, hd.answered_of_written hsent hx hsx, fun _ => rfl, ?_⟩
    exact fun r hr he => (hoff r hr c ha he.symm).elim
  rw [run_append] at hb ⊢
  obtain ⟨u, hu, -, hk⟩ := run_invariant_below m
    (I := fun s => ∃ t, R s t ∧ Delivers t ∧
      Kept c x.kind (shared (m.run start before)).scanResults t)
    (B := fun s => (plane s).allocated < 2 ^ 32 - 1) ⟨t, hr, hd, hstart⟩
    (fun middle i hn => by
      rw [← run_append] at hn ⊢
      exact hbound _ i hn)
    (by
      rintro s i hlast ⟨t', hr', hd', hk'⟩
      obtain ⟨u, hs, hu⟩ := hstep s t' i hr' hd'.bounded
      rw [← (hread _ _ hu).1] at hlast
      exact ⟨u, hu, service_delivers hd' hs hlast, kept_step hd' hs hk'⟩)
    after hb
  exact ⟨u, hu, hk⟩

/-- A system whose steps are steps of the service delivers the completions of every
run below the wrap. -/
theorem simulated_delivery {R : σ → Service eventCapacity → Prop}
    (hread : ∀ s t, R s t → t.plane = plane s ∧ t.shared = shared s)
    (hstep : ∀ s t i, R s t → Bounded t → ∃ u, ServiceStep t u ∧ R (m.next s i) u)
    {hpos : 0 < eventCapacity} (h0 : R start (Service.new hpos))
    (hb : (plane (m.run start inputs)).allocated < 2 ^ 32 - 1) :
    DeliversCompletions m plane shared start inputs := by
  obtain ⟨t, hr, hd, -⟩ := simulated_run hread hstep h0 hb
  have hplane := (hread _ _ hr).1
  have hshared := (hread _ _ hr).2
  refine ⟨?_, ?_, ?_, ?_⟩
  · intro sequence call x hf hx hs
    rw [← hplane] at hf
    rw [← hshared] at hx ⊢
    have hsent : (⟨sequence, call.command⟩ : Command) ∈ t.shared.commands.sent :=
      hd.traffic.live_sent (by rw [hf]; rfl)
    have hval := hd.delivery.signalled sequence call x.kind hf
      (hd.answered_of_written hsent hx hs)
    rw [← hs] at hval
    exact hval
  · intro r hres
    rw [← hplane] at hres
    rw [← hshared]
    obtain ⟨ha, buffer, hbuf⟩ := hd.delivery.resolved r hres
    exact ⟨hd.completion_answered ha, ⟨buffer, hbuf⟩, resolve_mismatched hbuf⟩
  · rintro before after c x rfl ha hx hsx harm
    obtain ⟨u, hu, hk⟩ := simulated_kept hread hstep h0 hb ha hx hsx
    rw [← (hread _ _ hu).1] at harm
    rw [← (hread _ _ hu).2]
    exact hk.unwritten harm
  · rintro before after c x r rfl ha hx hsx hres hrs
    obtain ⟨u, hu, hk⟩ := simulated_kept hread hstep h0 hb ha hx hsx
    rw [← (hread _ _ hu).1] at hres
    exact hk.copied r hres hrs

end Runs

variable {B I E F : Type} [WifiBackend B] [IncrementalWifiBackend I]

/-- Either runner delivers the completions of every interleaving below the wrap. -/
theorem completions_delivered (hpos : 0 < eventCapacity) (config : WifiConfig) :
    (∀ (interrupt : E → B → B) (backend : B) (inputs : List (BlockingInput E)),
      (blockingRun interrupt backend config hpos inputs).plane.allocated < 2 ^ 32 - 1 →
      DeliversCompletions (blockingMachine interrupt) BlockingSystem.plane
        (fun s => s.frame.shared) (blockingStart backend config hpos) inputs) ∧
    ∀ (interrupt : F → I → I) (backend : I) (budget : WorkBudget)
      (inputs : List (IncrementalInput F)),
      (incrementalRun interrupt backend budget config hpos inputs).plane.allocated < 2 ^ 32 - 1 →
      DeliversCompletions (incrementalMachine interrupt) IncrementalSystem.plane
        (fun s => s.frame.shared) (incrementalStart backend budget config hpos) inputs := by
  constructor
  · intro interrupt backend inputs hb
    exact simulated_delivery (R := BlockingService.Simulates)
      (fun _ _ hs => ⟨hs.plane, hs.shared⟩)
      (fun _ _ i hs _ => BlockingService.simulates_step interrupt hs i)
      (BlockingService.simulates_start backend config hpos) hb
  · intro interrupt backend budget inputs hb
    exact simulated_delivery (R := IncrementalService.Simulates)
      (fun _ _ hs => ⟨hs.plane, hs.shared⟩)
      (fun _ _ i hs hbd => IncrementalService.simulates_step interrupt hs hbd i)
      (IncrementalService.simulates_start backend budget config hpos) hb

/-- A scan into a buffer of one entry, to its end. -/
def scanSteps : List (BlockingInput Unit) :=
  [.control (.call (.scan DriverCalls.shortScan [.empty])), .control .allocate, .control .send,
    .runner .runOnce, .runner .runOnce, .runner .runOnce, .runner .runOnce,
    .control .observe, .control .finish]

/-- The scan resolves with one truncated entry. -/
theorem completions_delivered_scan :
    DeliversCompletions (blockingMachine fun (_ : Unit) backend => backend) BlockingSystem.plane
      (fun s => s.frame.shared)
      (blockingStart (⟨[]⟩ : ScriptedBackend) .default Nat.one_pos) scanSteps ∧
    (scriptedRun scanSteps).plane.resolved.map Resolution.result =
      [.scan (.ok ⟨1, true⟩) [.empty]] := by
  have h := @completions_delivered 1 ScriptedBackend DriverCalls.ReplayBackend Unit Unit _ _
    Nat.one_pos .default
  have hb : (scriptedRun scanSteps).plane.allocated < 2 ^ 32 - 1 := by decide +kernel
  exact ⟨h.1 (fun _ backend => backend) ⟨[]⟩ scanSteps hb, by decide +kernel⟩

end HisiRfCore.CompletionDelivery
