import HisiRfCore.BlockingProgress
import HisiRfCore.CommandProgress
import HisiRfCore.CompletionDelivery

/-!
# Calls return

A completion that was signalled for a call stays in the signal, and every command has its
completion signalled after a bounded number of steps of the runner. So a call whose command
was sent returns the next time it is polled after that, unless its future was dropped: by
the application, or by a scan whose count is past the end of the buffer.
-/

namespace HisiRfCore.CallReturn

open BoundedChannel WifiTypes RadioStorage AsyncControl ServiceProtocol ServiceDelivery
open BlockingRunner BlockingAbandonment IncrementalContract IncrementalInterleaving
open IncrementalService AttentiveBackends CommandProgress CompletionDelivery InputOutputMachine

variable {eventCapacity : ℕ}

/-- The call of a sequence is resolved, or its future was dropped. -/
def Over (q : UInt32) (call : ControlCall) (plane : ControlPlane) : Prop :=
  (∃ r ∈ plane.resolved, r.sequence = q ∧ r.call = call) ∨ q ∈ plane.dropped

/-- The future of a sent command waits, finishes, or is over. -/
def Stands (q : UInt32) (call : ControlCall) (plane : ControlPlane) : Prop :=
  plane.future = .waiting q call ∨ (∃ kind, plane.future = .finishing q call kind) ∨
    Over q call plane

section Steps

variable {plane : ControlPlane} {shared : SharedState eventCapacity} {q : UInt32}
  {call : ControlCall}

/-- Nothing takes the end of a call back. -/
theorem over_step (step : ControlStep) (h : Over q call plane) :
    Over q call (plane.step shared step).1 := by
  have heffect := step_effect plane shared step
  generalize plane.step shared step = next at heffect
  cases heffect with
  | resolved sequence call' kind hf result hr =>
    refine h.imp (fun ⟨r, hr, hq⟩ => ⟨r, List.mem_append_left _ hr, hq⟩) id
  | dropped command hf => exact h.imp id fun hq => List.mem_append_left _ hq
  | _ => exact h

/-- A future that waits or finishes is armed. -/
theorem Stands.armed (h : Stands q call plane) :
    plane.future.armed = some ⟨q, call.command⟩ ∨ Over q call plane := by
  rcases h with hwaiting | ⟨kind, hfinishing⟩ | hover
  · rw [hwaiting]
    exact Or.inl rfl
  · rw [hfinishing]
    exact Or.inl rfl
  · exact Or.inr hover

/-- A future that waits or finishes does so after every step, or is over. -/
theorem stands_step (step : ControlStep) (h : Stands q call plane) :
    Stands q call (plane.step shared step).1 := by
  rcases h.armed with harmed | hover
  · have heffect := step_effect plane shared step
    generalize plane.step shared step = next at heffect
    cases heffect with
    | quiet shared' hm => exact h
    | unsent future hu hf => cases hu.symm.trans harmed
    | allocated call' hf =>
      rw [hf] at harmed
      cases harmed
    | sent sequence call' hf shared' commands hq hr hs hm =>
      rw [hf] at harmed
      cases harmed
    | discarded sequence call' hf completion hv hs => exact h
    | taken sequence call' kind hf hv =>
      rcases h with hwaiting | ⟨other, hfinishing⟩ | hover
      · cases hwaiting.symm.trans hf
        exact Or.inr (Or.inl ⟨kind, rfl⟩)
      · cases hfinishing.symm.trans hf
      · exact Or.inr (Or.inr hover)
    | resolved sequence call' kind hf result hr =>
      rcases h with hwaiting | ⟨other, hfinishing⟩ | hover
      · cases hwaiting.symm.trans hf
      · cases hfinishing.symm.trans hf
        have hmem := List.mem_append_right plane.resolved
          (List.mem_singleton_self (⟨q, call, kind, result⟩ : Resolution))
        exact Or.inr (Or.inr (Or.inl ⟨_, hmem, rfl, rfl⟩))
      · exact Or.inr (Or.inr (hover.imp (fun ⟨r, hr, hq⟩ => ⟨r, List.mem_append_left _ hr, hq⟩) id))
    | dropped command hf =>
      cases harmed.symm.trans hf
      exact Or.inr (Or.inr (Or.inr (List.mem_append_right _ (List.mem_singleton_self q))))
  · exact Or.inr (Or.inr (over_step step hover))

/-- The copy of a finishing call resolves it, or panics and drops it. -/
theorem over_finish (h : Stands q call plane) (hw : plane.future ≠ .waiting q call) :
    Over q call (plane.step shared .finish).1 := by
  rcases h with hwaiting | ⟨kind, hfinishing⟩ | hover
  · exact (hw hwaiting).elim
  · unfold ControlPlane.step ControlPlane.finishCall
    simp only [hfinishing]
    split
    · exact Or.inl ⟨_, List.mem_append_right _ (List.mem_singleton_self _), rfl, rfl⟩
    · exact Or.inr (List.mem_append_right _ (List.mem_singleton_self _))
  · exact over_step .finish hover

/-- A poll that finds the completion of a waiting call ends it. -/
theorem over_poll (h : Stands q call plane)
    (hv : plane.future = .waiting q call →
      ∃ x, shared.completion.value = some x ∧ x.sequence = q) :
    Over q call ((plane.step shared .observe).1.step (plane.step shared .observe).2 .finish).1 := by
  have hstands : Stands q call (plane.step shared .observe).1 := stands_step .observe h
  rcases h with hwaiting | ⟨kind, hfinishing⟩ | hover
  · obtain ⟨x, hvalue, hx⟩ := hv hwaiting
    refine over_finish hstands fun hn => ?_
    unfold ControlPlane.step ControlPlane.observeCompletion Signal.tryTake at hn
    simp only [hwaiting, hvalue, hx, if_true] at hn
    cases hn
  · refine over_finish hstands fun hn => ?_
    unfold ControlPlane.step at hn
    simp only [hfinishing] at hn
    cases hn
  · exact over_step .finish (over_step .observe hover)

end Steps

section Runs

variable {B I E F : Type} [WifiBackend B] [IncrementalWifiBackend I]

/-- Where a call of the blocking system stands, it stands or is over after every step. -/
theorem blocking_stands {interrupt : E → B → B} {q : UInt32} {call : ControlCall}
    (s : BlockingSystem B eventCapacity) (input : BlockingInput E) (h : Stands q call s.plane) :
    Stands q call ((blockingMachine interrupt).next s input).plane := by
  cases input with
  | control step => exact stands_step step h
  | runner mode =>
    rw [BlockingProgress.runner_plane]
    exact h
  | backendEvent event => exact h

/-- So does a call of the incremental system. -/
theorem incremental_stands {interrupt : F → I → I} {q : UInt32} {call : ControlCall}
    (s : IncrementalSystem I eventCapacity) (input : IncrementalInput F)
    (h : Stands q call s.plane) :
    Stands q call ((incrementalMachine interrupt).next s input).plane := by
  cases input with
  | control step => exact stands_step step h
  | runner ready =>
    show Stands q call (IncrementalInterleaving.runnerStep ready s).1.plane
    rw [runnerStep_plane]
    exact h
  | backendEvent event => exact h

section Service

variable {σ ι ο : Type} {m : Machine σ ι ο} {plane : σ → ControlPlane}
  {shared : σ → SharedState eventCapacity} {start : σ} {q : UInt32} {call : ControlCall}

/-- The command of a waiting call was sent. -/
theorem waiting_sent {R : σ → Service eventCapacity → Prop}
    (hread : ∀ s t, R s t → t.plane = plane s ∧ t.shared = shared s)
    (hstep : ∀ s t i, R s t → Bounded t → ∃ u, ServiceStep t u ∧ R (m.next s i) u)
    {hpos : 0 < eventCapacity} (h0 : R start (Service.new hpos)) {before after : List ι}
    (hb : (plane (m.run start (before ++ after))).allocated < 2 ^ 32 - 1)
    (hf : (plane (m.run start before)).future = .waiting q call) :
    (⟨q, call.command⟩ : Command) ∈ (shared (m.run start before)).commands.sent := by
  obtain ⟨t, hr, hd, -⟩ := simulated_run hread hstep h0
    (bound_of_append m (B := fun s => (plane s).allocated < 2 ^ 32 - 1)
      (simulated_bound hread hstep h0) hb)
  rw [← (hread _ _ hr).1] at hf
  rw [← (hread _ _ hr).2]
  exact hd.traffic.live_sent (by rw [hf]; rfl)

/-- A waiting call whose completion was signalled finds it when it is polled. -/
theorem waiting_call {inputs : List ι} (h : DeliversCompletions m plane shared start inputs)
    (ha : ∃ x ∈ (shared (m.run start inputs)).completion.written, x.sequence = q) :
    (plane (m.run start inputs)).future = .waiting q call →
      ∃ x, (shared (m.run start inputs)).completion.value = some x ∧ x.sequence = q := by
  intro hf
  obtain ⟨x, hx, hq⟩ := ha
  exact ⟨x, h.kept q call x hf hx hq, hq⟩

/-- A call whose command was answered returns with the next poll of its future. -/
theorem call_over {R : σ → Service eventCapacity → Prop}
    (hread : ∀ s t, R s t → t.plane = plane s ∧ t.shared = shared s)
    (hstep : ∀ s t i, R s t → Bounded t → ∃ u, ServiceStep t u ∧ R (m.next s i) u)
    {hpos : 0 < eventCapacity} (h0 : R start (Service.new hpos))
    (hstands : ∀ s i, Stands q call (plane s) → Stands q call (plane (m.next s i)))
    {before after poll : List ι}
    (hpoll : ∀ s, plane (m.run s poll) = (((plane s).step (shared s) .observe).1.step
      ((plane s).step (shared s) .observe).2 .finish).1)
    (hb : (plane (m.run start (before ++ after))).allocated < 2 ^ 32 - 1)
    (hf : (plane (m.run start before)).future = .waiting q call)
    (ha : (⟨q, call.command⟩ : Command) ∈ (shared (m.run start before)).commands.sent →
      ∃ x ∈ (shared (m.run start (before ++ after))).completion.written, x.sequence = q) :
    Over q call (plane (m.run start (before ++ after ++ poll))) := by
  have hdelivers : DeliversCompletions m plane shared start (before ++ after) :=
    simulated_delivery hread hstep h0 hb
  have hstill : Stands q call (plane (m.run start (before ++ after))) := by
    rw [run_append]
    exact run_invariant m (I := fun s => Stands q call (plane s)) (Or.inl hf) hstands after
  have hanswered := ha (waiting_sent hread hstep h0 hb hf)
  rw [run_append, hpoll]
  exact over_poll hstill (waiting_call hdelivers hanswered)

end Service

/-- Either runner lets every call return: when the runner has taken so many steps after the
command of the call was sent, the call has returned, returns with the next poll, or its future
was dropped. The steps are eleven for the blocking runner and one for each future dropped
meanwhile; for the incremental runner, with an attentive backend and calls with all sources
ready, they are those of the commands that can be ahead, and six for each command sent
meanwhile. -/
theorem calls_return (hpos : 0 < eventCapacity) (config : WifiConfig) :
    (∀ (interrupt : E → B → B) (backend : B) (before after : List (BlockingInput E))
      (q : UInt32) (call : ControlCall),
      (blockingRun interrupt backend config hpos (before ++ after)).plane.allocated < 2 ^ 32 - 1 →
      (blockingRun interrupt backend config hpos before).plane.future = .waiting q call →
      11 + (blockingRun interrupt backend config hpos (before ++ after)).plane.dropped.length ≤
        after.countP BlockingInput.isRunner +
          (blockingRun interrupt backend config hpos before).plane.dropped.length →
      Over q call (blockingRun interrupt backend config hpos
        (before ++ after ++ [.control .observe, .control .finish])).plane) ∧
    ∀ (interrupt : F → I → I) (d : Attentive I F interrupt) (backend : I) (budget : WorkBudget)
      (before after : List (IncrementalInput F)) (q : UInt32) (call : ControlCall),
      (incrementalRun interrupt backend budget config hpos
        (before ++ after)).plane.allocated < 2 ^ 32 - 1 →
      (incrementalRun interrupt backend budget config hpos before).plane.future =
        .waiting q call →
      (∀ ready, .runner ready ∈ after → allReady ready = true) →
      18 * (d.bound + 3) + 5 + 6 * (incrementalRun interrupt backend budget config hpos
          (before ++ after)).frame.shared.commands.sent.length ≤
        after.countP isRunner + 6 * (incrementalRun interrupt backend budget config hpos
          before).frame.shared.commands.sent.length →
      Over q call (incrementalRun interrupt backend budget config hpos
        (before ++ after ++ [.control .observe, .control .finish])).plane := by
  constructor
  · intro interrupt backend before after q call hb hf hsteps
    refine call_over (R := BlockingService.Simulates) (fun _ _ hs => ⟨hs.plane, hs.shared⟩)
      (fun _ _ i hs _ => BlockingService.simulates_step interrupt hs i)
      (BlockingService.simulates_start backend config hpos) blocking_stands (fun _ => rfl) hb hf
      fun hsent => ?_
    have hanswered := BlockingProgress.sent_answered interrupt backend config hpos before after
      hsteps
    exact List.mem_map.mp (hanswered.subset (List.mem_map_of_mem hsent))
  · intro interrupt d backend budget before after q call hb hf hready hsteps
    refine call_over (R := IncrementalService.Simulates) (fun _ _ hs => ⟨hs.plane, hs.shared⟩)
      (fun _ _ i hs hbd => IncrementalService.simulates_step interrupt hs hbd i)
      (IncrementalService.simulates_start backend budget config hpos) incremental_stands
      (fun _ => rfl) hb hf fun hsent => ?_
    have hanswered := run_answered backend budget config hpos d before after hready hsteps q
    have hcount : 0 < ((incrementalRun interrupt backend budget config hpos
        before).frame.shared.commands.sent.map Command.sequence).count q :=
      List.count_pos_iff.mpr (List.mem_map.mpr ⟨_, hsent, rfl⟩)
    exact List.mem_map.mp (List.count_pos_iff.mp (Nat.lt_of_lt_of_le hcount hanswered))

end Runs

/-- Eleven steps of the blocking runner. -/
def blockingSteps : List (BlockingInput Unit) := List.replicate 11 (.runner .runOnce)

/-- A disconnection returns from either runner. -/
theorem calls_return_disconnection :
    Over 1 .disconnect (scriptedRun (BlockingProgress.sentDisconnection ++ blockingSteps ++
        [.control .observe, .control .finish])).plane ∧
      Over 1 .disconnect (countdownRun (sentDisconnection ++ readySteps 77 ++
        [.control .observe, .control .finish])).plane := by
  have h := @calls_return 1 ScriptedBackend CountdownBackend Unit Unit _ _ Nat.one_pos .default
  have hblocking : (scriptedRun (BlockingProgress.sentDisconnection ++
      blockingSteps)).plane.allocated < 2 ^ 32 - 1 := by decide +kernel
  have hwaiting : (scriptedRun BlockingProgress.sentDisconnection).plane.future =
      .waiting 1 .disconnect := by decide +kernel
  have hsteps : 11 + (scriptedRun (BlockingProgress.sentDisconnection ++
        blockingSteps)).plane.dropped.length ≤
      blockingSteps.countP BlockingInput.isRunner +
        (scriptedRun BlockingProgress.sentDisconnection).plane.dropped.length := by decide +kernel
  have hincremental : (countdownRun (sentDisconnection ++ readySteps 77)).plane.allocated <
      2 ^ 32 - 1 := by decide +kernel
  have hsent : (countdownRun sentDisconnection).plane.future = .waiting 1 .disconnect := by
    decide +kernel
  have hready : ∀ ready, .runner ready ∈ readySteps 77 → allReady ready = true := by
    intro ready hm
    cases List.eq_of_mem_replicate hm
    decide
  have hcount : 18 * (countdownAttentive.bound + 3) + 5 +
      6 * (countdownRun (sentDisconnection ++ readySteps 77)).frame.shared.commands.sent.length ≤
        (readySteps 77).countP isRunner +
          6 * (countdownRun sentDisconnection).frame.shared.commands.sent.length := by
    decide +kernel
  unfold scriptedRun at hblocking hwaiting hsteps ⊢
  unfold countdownRun at hincremental hsent hcount ⊢
  exact ⟨h.1 _ _ _ _ 1 .disconnect hblocking hwaiting hsteps,
    h.2 _ countdownAttentive _ _ _ _ 1 .disconnect hincremental hsent hready hcount⟩

end HisiRfCore.CallReturn
