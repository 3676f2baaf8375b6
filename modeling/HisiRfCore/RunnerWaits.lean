import HisiRfCore.DriverCoherence
import HisiRfCore.RunnerCalls
import HisiRfCore.WakeSelection

/-!
# What the wait set of the runner state means

An empty wait set means that nothing is owned or that a poll is owed at once. Over
every sequence of calls it is empty whenever the slot is free or terminal, and is the
command source alone while an operation is queued, so the selected step never polls an
operation that the backend has not started and never waits for nothing.
-/

namespace HisiRfCore.RunnerWaits

open IncrementalContract RunnerState WakeSelection InputOutputMachine RunnerCalls DriverCoherence

/-- Nothing in the slot can be advanced. -/
def Ended (state : IncrementalRunnerState) : Prop :=
  state.tracker.current = none ∨ ∃ id, state.tracker.current = some (id, .terminal)

/-- The backend owns the operation. -/
def Live (state : IncrementalRunnerState) (id : OperationId) : Prop :=
  state.tracker.current = some (id, .started) ∨
    state.tracker.current = some (id, .cancelRequested)

/-- The wait set is the one that the lifecycle calls for. -/
structure Subscribed (state : IncrementalRunnerState) : Prop where
  /-- Nothing is waited for when nothing can be advanced. -/
  ended : Ended state → state.waitFor = .empty
  /-- A queued operation waits for the command plane alone. -/
  queued : ∀ id, state.tracker.current = some (id, .queued) → state.waitFor = .command

/-- Nothing is owned at first. -/
theorem new_subscribed : Subscribed .new := ⟨fun _ => rfl, fun _ h => by cases h⟩

/-- No listed call queues an operation, and one that ends or releases it clears the
wait set. -/
theorem outcome_waitFor {call : RunnerCall} {lifecycle : OperationLifecycle}
    {answer : RunnerAnswer} {next : Option OperationLifecycle} {old waitFor : WaitSet}
    (h : outcome old call lifecycle = some (answer, next, waitFor)) :
    next ≠ some .queued ∧ (next = none ∨ next = some .terminal → waitFor = .empty) := by
  cases call with
  | applyReport expected report =>
    obtain ⟨-, cancelled, -, -, hnext⟩ := outcome_report h
    cases hd : report.disposition <;> rw [hd] at hnext <;> cases hnext <;> cases cancelled <;>
      simp [IncrementalRunnerState.liveLifecycle]
  | _ => cases lifecycle <;> cases h <;> simp

/-- Every call restores the wait set that the lifecycle calls for. -/
theorem call_subscribed {state : IncrementalRunnerState} {call : RunnerCall}
    {result : IncrementalRunnerState × RunnerAnswer} (h : Subscribed state)
    (he : Effect state call result) : Subscribed result.1 := by
  cases he with
  | queued slot hn =>
    refine ⟨?_, fun _ _ => rfl⟩
    rintro (hc | ⟨id, hc⟩) <;> cases hc
  | moved ht hc ho =>
    obtain ⟨hqueued, hcleared⟩ := outcome_waitFor ho
    constructor
    · rintro (hx | ⟨id, hx⟩)
      · exact hcleared (Or.inl (Option.map_eq_none_iff.mp hx))
      · obtain ⟨next, hnext, he⟩ := Option.map_eq_some_iff.mp hx
        cases he
        exact hcleared (Or.inr hnext)
    · intro id hx
      obtain ⟨next, hnext, he⟩ := Option.map_eq_some_iff.mp hx
      cases he
      exact (hqueued hnext).elim
  | stepped ready =>
    obtain ⟨htracker, hwait⟩ := selectStep_frame ready state
    constructor
    · unfold Ended
      rw [htracker, hwait]
      exact h.ended
    · rw [htracker, hwait]
      exact h.queued
  | refused ha => exact h

/-- The wait set agrees with the lifecycle after every sequence of calls. -/
theorem run_subscribed (calls : List RunnerCall) :
    Subscribed (runnerMachine.run .new calls) :=
  run_invariant runnerMachine new_subscribed
    (fun state call h => call_subscribed h (call_effect state call)) calls

section Step

variable {state : IncrementalRunnerState} {ready : WaitSet}

/-- What a selected step says about the operation and the two sets. -/
def StepMeans (state : IncrementalRunnerState) (ready : WaitSet) : RunnerStep → Prop
  | .idle => Ended state
  | .pollBackend id reason =>
    Live state id ∧
      (state.waitFor.isEmpty = true ∧ reason = .backend ∨
        state.waitFor.contains (source reason) = true ∧ ready.contains (source reason) = true)
  | .commandReady _ => state.waitFor.contains .command = true ∧ ready.contains .command = true
  | .waiting waitFor =>
    waitFor.isEmpty = false ∧
      ∀ reason, waitFor.contains (source reason) = true → ready.contains (source reason) = false

/-- Without an operation to advance the step is idle. -/
theorem selectStep_of_ended (h : Ended state) : (state.selectStep ready).1 = .idle := by
  unfold IncrementalRunnerState.selectStep
  rcases h with h | ⟨id, h⟩ <;> rw [h]
  rfl

/-- The step of an operation whose wait set is not empty is the selection. -/
theorem selected_means {id : OperationId} {lifecycle : OperationLifecycle}
    (hcurrent : state.tracker.current = some (id, lifecycle)) (hl : lifecycle ≠ .terminal)
    (hqueued : lifecycle = .queued → state.waitFor = .command)
    (hw : state.waitFor.isEmpty = false) : StepMeans state ready (state.selectStep ready).1 := by
  unfold IncrementalRunnerState.selectStep
  simp only [hcurrent, if_neg hl, hw, Bool.false_and, Bool.false_eq_true, if_false]
  rcases hs : state.selector.select state.waitFor ready with ⟨picked, selector⟩
  cases picked with
  | none =>
    refine ⟨hw, fun reason hin => ?_⟩
    rw [Bool.eq_false_iff]
    exact fun hready => select_none (by rw [hs]) reason ⟨hin, hready⟩
  | some reason =>
    have hpicked : (state.selector.select state.waitFor ready).1 = some reason := by rw [hs]
    have hboth := select_some hpicked
    have hlive : reason ≠ .command → Live state id := by
      intro hne
      cases lifecycle with
      | queued =>
        -- the command plane is all that a queued operation waits for
        rw [hqueued rfl] at hboth
        cases reason with
        | command => exact (hne rfl).elim
        | _ => cases hboth.1
      | started => exact Or.inl hcurrent
      | cancelRequested => exact Or.inr hcurrent
      | terminal => exact (hl rfl).elim
    cases reason with
    | command => exact hboth
    | _ => exact ⟨hlive (by simp), Or.inr hboth⟩

/-- Every step says what it should when the wait set agrees with the lifecycle. -/
theorem selectStep_means (h : Subscribed state) (ready : WaitSet) :
    StepMeans state ready (state.selectStep ready).1 := by
  rcases hcurrent : state.tracker.current with _ | ⟨id, lifecycle⟩
  · rw [selectStep_of_ended (Or.inl hcurrent)]
    exact Or.inl hcurrent
  · have hlive : ∀ cancelled, lifecycle = IncrementalRunnerState.liveLifecycle cancelled →
        StepMeans state ready (state.selectStep ready).1 := by
      rintro cancelled rfl
      cases hw : state.waitFor.isEmpty with
      | true =>
        rw [selectStep_of_unsubscribed hcurrent ready hw]
        refine ⟨?_, Or.inl ⟨hw, rfl⟩⟩
        cases cancelled with
        | false => exact Or.inl hcurrent
        | true => exact Or.inr hcurrent
      | false =>
        refine selected_means hcurrent ?_ ?_ hw <;> cases cancelled <;>
          simp [IncrementalRunnerState.liveLifecycle]
    cases lifecycle with
    | queued =>
      have hw := h.queued id hcurrent
      exact selected_means hcurrent (by simp) (fun _ => hw) (by rw [hw]; rfl)
    | started => exact hlive false rfl
    | cancelRequested => exact hlive true rfl
    | terminal =>
      have hended : Ended state := Or.inr ⟨id, hcurrent⟩
      rw [selectStep_of_ended hended]
      exact hended

end Step

/-- After every sequence of calls the wait set is empty when there is nothing to advance and
is the command source alone for a queued operation. The selected step is idle exactly when
there is nothing to advance; it polls only an operation that the backend owns, at once or for
a source that is subscribed and ready; it hands over to the command plane only when that is
subscribed and ready; and it waits only for sources none of which is ready. -/
theorem waits_mean (calls : List RunnerCall) :
    let state := runnerMachine.run .new calls
    (Ended state → state.waitFor = .empty) ∧
    (∀ id, state.tracker.current = some (id, .queued) → state.waitFor = .command) ∧
    ∀ ready,
      ((state.selectStep ready).1 = .idle ↔ Ended state) ∧
      (∀ id reason, (state.selectStep ready).1 = .pollBackend id reason →
        Live state id ∧
          (state.waitFor.isEmpty = true ∧ reason = .backend ∨
            state.waitFor.contains (source reason) = true ∧
              ready.contains (source reason) = true)) ∧
      (∀ id, (state.selectStep ready).1 = .commandReady id →
        state.waitFor.contains .command = true ∧ ready.contains .command = true) ∧
      ∀ waitFor, (state.selectStep ready).1 = .waiting waitFor →
        waitFor.isEmpty = false ∧ ∀ reason, waitFor.contains (source reason) = true →
          ready.contains (source reason) = false := by
  intro state
  have h : Subscribed state := run_subscribed calls
  refine ⟨h.ended, h.queued, fun ready => ?_⟩
  have hm := selectStep_means h ready
  refine ⟨⟨fun hs => ?_, selectStep_of_ended⟩, fun id reason hs => ?_, fun id hs => ?_,
    fun waitFor hs => ?_⟩
  all_goals
    rw [hs] at hm
    exact hm

end HisiRfCore.RunnerWaits
