import HisiRfCore.DriverCoherence
import HisiRfCore.KeyedHistory
import HisiRfCore.RunnerCalls

/-!
# The life of one operation

Whatever the calls and their order, an identity is queued once, moves forward through
its lifecycle, ends once and is released, and no call that names it succeeds after that.
The successful calls on one identity are its story; its stage is read off the state.
-/

namespace HisiRfCore.OperationStages

open NonZeroCounter IncrementalContract RunnerState RunnerCalls InputOutputMachine KeyedHistory

/-- Calls with their answers. -/
abbrev RunnerHistory := List (RunnerCall × RunnerAnswer)

/-- Operation that a successful call is about. -/
def concerns (entry : RunnerCall × RunnerAnswer) : Option OperationId :=
  if entry.2.refused then none
  else
    match entry with
    | (.queue _, .queued (.ok id)) => some id
    | (call, _) => call.target

/-- Identities queued so far, in order. -/
def queuedIds (history : RunnerHistory) : List OperationId :=
  history.filterMap fun
    | (.queue _, .queued (.ok id)) => some id
    | _ => none

theorem queuedIds_concat (history : RunnerHistory) (entry : RunnerCall × RunnerAnswer) :
    queuedIds (history ++ [entry]) = queuedIds history ++ queuedIds [entry] :=
  List.filterMap_append

/-- The transition ends the operation. -/
def terminal : RunnerTransition → Bool
  | .completed _ | .cancelled _ | .failed _ _ => true
  | _ => false

/-- Operation that the call gave its terminal outcome. -/
def ended : RunnerCall × RunnerAnswer → Option OperationId
  | (.rejectStart id _, .changed (.ok _)) => some id
  | (.requestCancel id, .directed (.ok .completeLocally)) => some id
  | (.applyReport id _, .changed (.ok transition)) => if terminal transition then some id else none
  | (.applyError id _, .changed (.ok _)) => some id
  | _ => none

/-- The calls that gave an operation a terminal outcome. -/
def outcomes (history : RunnerHistory) (id : OperationId) : RunnerHistory :=
  history.filter fun entry => ended entry = some id

/-- The backend was told of the operation. -/
def Started (history : RunnerHistory) (id : OperationId) : Prop :=
  (.markStarted id, .returned (.ok ())) ∈ history

/-- A cancellation of the operation was accepted. -/
def CancelRequested (history : RunnerHistory) (id : OperationId) : Prop :=
  ∃ directive, (.requestCancel id, .directed (.ok directive)) ∈ history

/-- The operation was released. -/
def Reaped (history : RunnerHistory) (id : OperationId) : Prop :=
  (.reap id, .returned (.ok ())) ∈ history

/-- The call or the report that it hands over has the identity. -/
def Bears (call : RunnerCall) (id : OperationId) : Prop :=
  call.target = some id ∨
    ∃ expected report, call = .applyReport expected report ∧ report.operation = id

/-- Order of the lifecycles. -/
def rank : OperationLifecycle → ℕ
  | .queued => 0
  | .started => 1
  | .cancelRequested => 2
  | .terminal => 3

/-- How far one identity has got. -/
inductive Stage
  | unqueued
  | owning (lifecycle : OperationLifecycle)
  | reaped

/-- Stage after a move to a lifecycle, or to none. -/
def Stage.after : Option OperationLifecycle → Stage
  | some lifecycle => .owning lifecycle
  | none => .reaped

/-- The calls that move an identity, and where they move it. -/
inductive Moves (id : OperationId) : Stage → RunnerCall × RunnerAnswer → Stage → Prop
  | queue (slot : UInt8) : Moves id .unqueued (.queue slot, .queued (.ok id)) (.owning .queued)
  | move {call : RunnerCall} {lifecycle : OperationLifecycle} {old waitFor : WaitSet}
      {answer : RunnerAnswer} {next : Option OperationLifecycle} (ht : call.target = some id)
      (ho : outcome old call lifecycle = some (answer, next, waitFor)) :
    Moves id (.owning lifecycle) (call, answer) (.after next)

/-- What the story of an identity says in each stage. -/
def Told (id : OperationId) (calls : RunnerHistory) : Stage → Prop
  | .unqueued => calls = []
  | .owning .queued =>
    ¬ Started calls id ∧ ¬ CancelRequested calls id ∧ outcomes calls id = [] ∧ ¬ Reaped calls id
  | .owning .started =>
    Started calls id ∧ ¬ CancelRequested calls id ∧ outcomes calls id = [] ∧ ¬ Reaped calls id
  | .owning .cancelRequested =>
    Started calls id ∧ outcomes calls id = [] ∧ ¬ Reaped calls id
  | .owning .terminal => (outcomes calls id).length = 1 ∧ ¬ Reaped calls id
  | .reaped => (outcomes calls id).length = 1 ∧ Reaped calls id

section Story

variable {id : OperationId} {calls : RunnerHistory} {entry : RunnerCall × RunnerAnswer}

theorem started_concat : Started (calls ++ [entry]) id ↔
    Started calls id ∨ (.markStarted id, .returned (.ok ())) = entry := by
  simp [Started]

theorem cancelRequested_concat : CancelRequested (calls ++ [entry]) id ↔
    CancelRequested calls id ∨
      ∃ directive, (.requestCancel id, .directed (.ok directive)) = entry := by
  simp [CancelRequested, exists_or]

theorem reaped_concat : Reaped (calls ++ [entry]) id ↔
    Reaped calls id ∨ (.reap id, .returned (.ok ())) = entry := by
  simp [Reaped]

theorem outcomes_concat : outcomes (calls ++ [entry]) id =
    outcomes calls id ++ if ended entry = some id then [entry] else [] := by
  by_cases h : ended entry = some id <;> simp [outcomes, List.filter_append, h]

/-- A refused call is about no operation. -/
theorem concerns_refused {call : RunnerCall} {answer : RunnerAnswer}
    (h : answer.refused = true) : concerns (call, answer) = none := if_pos h

variable {call : RunnerCall} {lifecycle : OperationLifecycle} {old waitFor : WaitSet}
  {answer : RunnerAnswer} {next : Option OperationLifecycle}

/-- An accepted report of a live operation changes it; only a terminal change ends it, and
it completes only without a cancellation. -/
theorem report_cases {expected : OperationId} {report : WorkReport}
    (ho : outcome old (.applyReport expected report) lifecycle = some (answer, next, waitFor)) :
    report.operation = expected ∧ ∃ cancelled transition,
      lifecycle = IncrementalRunnerState.liveLifecycle cancelled ∧
      answer = .changed (.ok transition) ∧
      (terminal transition = false ∧ next = some (IncrementalRunnerState.liveLifecycle cancelled) ∨
        terminal transition = true ∧ next = some .terminal) ∧
      ∀ completion, transition = .completed completion → cancelled = false := by
  obtain ⟨hr, cancelled, hl, ha, hnext⟩ := outcome_report ho
  refine ⟨hr, cancelled, IncrementalRunnerState.reported cancelled report, hl, ha, ?_⟩
  cases hd : report.disposition <;> rw [hd] at hnext <;> cases hnext <;> cases cancelled <;>
    simp [IncrementalRunnerState.reported, hd, terminal]

/-- A listed call releases the operation or moves it forward. -/
theorem outcome_forward (ht : call.target = some id)
    (ho : outcome old call lifecycle = some (answer, next, waitFor)) :
    (call, answer) = (.reap id, .returned (.ok ())) ∨
      ∃ later, next = some later ∧ rank lifecycle ≤ rank later := by
  cases call with
  | applyReport expected report =>
    obtain ⟨-, cancelled, transition, rfl, -, hnext, -⟩ := report_cases ho
    rcases hnext with ⟨-, rfl⟩ | ⟨-, rfl⟩
    · exact Or.inr ⟨_, rfl, Nat.le_refl _⟩
    · exact Or.inr ⟨_, rfl, by cases cancelled <;> decide⟩
  | queue slot => cases ht
  | selectStep ready => cases ht
  | _ =>
    cases ht
    cases lifecycle <;> cases ho <;> simp [rank]

/-- A call that ended an operation is about it. -/
theorem concerns_ended (h : ended entry = some id) : concerns entry = some id := by
  unfold ended at h
  split at h
  · exact h
  · exact h
  · split at h
    · exact h
    · cases h
  · exact h
  · cases h

/-- A move is about the identity that it moves. -/
theorem Moves.concerns {stage next : Stage} (h : Moves id stage entry next) :
    concerns entry = some id := by
  cases h with
  | queue slot => rfl
  | @move call lifecycle _ _ answer _ ht ho =>
    unfold OperationStages.concerns
    rw [if_neg (ne_true_of_eq_false (outcome_answer ho))]
    cases call <;> first | exact ht | cases ht

/-- What the story says of an operation that the backend owns. -/
theorem told_live {cancelled : Bool} :
    Told id calls (.owning (IncrementalRunnerState.liveLifecycle cancelled)) ↔
      Started calls id ∧ (cancelled = false → ¬ CancelRequested calls id) ∧
        outcomes calls id = [] ∧ ¬ Reaped calls id := by
  cases cancelled <;> simp [Told, IncrementalRunnerState.liveLifecycle]

/-- Each move tells what the next stage says. -/
theorem Told.concat {stage next : Stage} (h : Told id calls stage)
    (hm : Moves id stage entry next) : Told id (calls ++ [entry]) next := by
  cases hm with
  | queue slot =>
    cases h
    simp [Told, Started, CancelRequested, outcomes, Reaped, ended]
  | @move call lifecycle _ _ answer next ht ho =>
    cases call with
    | applyReport expected report =>
      cases ht
      obtain ⟨-, cancelled, transition, rfl, rfl, hnext, -⟩ := report_cases ho
      obtain ⟨hs, hc, hnone, hr⟩ := told_live.mp h
      rcases hnext with ⟨hx, rfl⟩ | ⟨hx, rfl⟩
      · rw [Stage.after, told_live, started_concat, cancelRequested_concat, outcomes_concat,
          reaped_concat]
        simpa [ended, hx, hs, hnone, hr] using hc
      · simp [Told, Stage.after, outcomes_concat, reaped_concat, ended, hx, hnone, hr]
    | queue slot => cases ht
    | selectStep ready => cases ht
    | _ =>
      cases ht
      cases lifecycle <;> cases ho <;>
        simp [Told, Stage.after, started_concat, cancelRequested_concat, outcomes_concat,
          reaped_concat, ended] at h ⊢ <;> simp [h]

end Story

/-- Position of an identity in the order of allocation. -/
def number (id : OperationId) : ℕ := id.generation.val.toNat

/-- What the state holds of an identity in each stage. -/
def Stands (state : IncrementalRunnerState) (id : OperationId) : Stage → Prop
  | .unqueued => ∀ lifecycle, state.tracker.current ≠ some (id, lifecycle)
  | .owning lifecycle =>
    state.tracker.current = some (id, lifecycle) ∧
      number id ≤ state.tracker.nextGeneration.toNat
  | .reaped =>
    (∀ lifecycle, state.tracker.current ≠ some (id, lifecycle)) ∧
      number id ≤ state.tracker.nextGeneration.toNat

/-- The state stands where the calls so far have taken each identity. -/
structure Standing (history : RunnerHistory) (state : IncrementalRunnerState) : Prop where
  /-- Generations are counted below the wrap. -/
  counted : state.tracker.nextGeneration.toNat = (queuedIds history).length
  /-- Each identity is in some stage. -/
  stands : ∀ id, ∃ stage, Told id (story concerns history id) stage ∧ Stands state id stage

/-- Nothing is queued at first. -/
theorem standing_new : Standing [] .new :=
  ⟨rfl, fun _ => ⟨.unqueued, rfl, fun _ h => by cases h⟩⟩

section Steps

variable {history : RunnerHistory} {state : IncrementalRunnerState} {id : OperationId}
  {call : RunnerCall} {answer : RunnerAnswer} {lifecycle : OperationLifecycle}

/-- The owner of the slot is in the stage of its lifecycle. -/
theorem Standing.owner (h : Standing history state)
    (hc : state.tracker.current = some (id, lifecycle)) :
    Told id (story concerns history id) (.owning lifecycle) ∧
      number id ≤ state.tracker.nextGeneration.toNat := by
  obtain ⟨stage, htold, hstands⟩ := h.stands id
  cases stage with
  | unqueued => exact (hstands _ hc).elim
  | owning other =>
    rw [hstands.1] at hc
    cases hc
    exact ⟨htold, hstands.2⟩
  | reaped => exact (hstands.1 _ hc).elim

/-- A call that moves one identity leaves every other one in its stage. -/
theorem Standing.move {next : IncrementalRunnerState} {stage stage' : Stage}
    (h : Standing history state) (htold : Told id (story concerns history id) stage)
    (hm : Moves id stage (call, answer) stage') (hstands : Stands next id stage')
    (hcounted : next.tracker.nextGeneration.toNat =
      (queuedIds (history ++ [(call, answer)])).length)
    (hle : state.tracker.nextGeneration.toNat ≤ next.tracker.nextGeneration.toNat)
    (hbefore : ∀ other lifecycle, other ≠ id → state.tracker.current ≠ some (other, lifecycle))
    (hafter : ∀ other lifecycle, other ≠ id → next.tracker.current ≠ some (other, lifecycle)) :
    Standing (history ++ [(call, answer)]) next := by
  refine ⟨hcounted, fun other => ?_⟩
  by_cases hne : other = id
  · cases hne
    rw [story_concat_of_eq hm.concerns]
    exact ⟨stage', htold.concat hm, hstands⟩
  · obtain ⟨stage, htold, hother⟩ := h.stands other
    have hforeign : concerns (call, answer) ≠ some other := by
      rw [hm.concerns]
      exact fun he => hne (Option.some.inj he).symm
    rw [story_concat_of_ne hforeign]
    refine ⟨stage, htold, ?_⟩
    cases stage with
    | unqueued => exact fun lifecycle => hafter other lifecycle hne
    | owning lifecycle => exact (hbefore other lifecycle hne hother.1).elim
    | reaped => exact ⟨fun lifecycle => hafter other lifecycle hne, hother.2.trans hle⟩

/-- A call that moves no identity leaves every one in its stage. -/
theorem Standing.still {next : IncrementalRunnerState} (h : Standing history state)
    (hn : concerns (call, answer) = none) (hq : queuedIds [(call, answer)] = [])
    (ht : next.tracker = state.tracker) : Standing (history ++ [(call, answer)]) next := by
  constructor
  · rw [ht, queuedIds_concat, hq, List.append_nil]
    exact h.counted
  · intro id
    obtain ⟨stage, htold, hstands⟩ := h.stands id
    have hforeign : concerns (call, answer) ≠ some id := by
      rw [hn]
      exact (Option.some_ne_none id).symm
    rw [story_concat_of_ne hforeign]
    refine ⟨stage, htold, ?_⟩
    cases stage <;> simpa only [Stands, ht] using hstands

/-- A fresh identity has not been queued. -/
theorem Standing.fresh (h : Standing history state) (hn : state.tracker.current = none)
    (hb : state.tracker.nextGeneration.toNat + 1 < 2 ^ 32) (slot : UInt8) :
    Told (state.tracker.nextId slot) (story concerns history (state.tracker.nextId slot))
      .unqueued := by
  obtain ⟨stage, htold, hstands⟩ := h.stands (state.tracker.nextId slot)
  cases stage with
  | unqueued => exact htold
  | owning lifecycle =>
    have hcurrent := hstands.1
    rw [hn] at hcurrent
    cases hcurrent
  | reaped =>
    have hle := hstands.2
    have hnumber : number (state.tracker.nextId slot) =
        state.tracker.nextGeneration.toNat + 1 := advance_toNat hb
    omega

/-- Only a queue call that succeeds queues an identity. -/
theorem queuedIds_of_target (ht : call.target = some id) : queuedIds [(call, answer)] = [] := by
  cases call <;> first | rfl | cases ht

/-- A refused call queues nothing. -/
theorem queuedIds_of_refused (ha : answer.refused = true) : queuedIds [(call, answer)] = [] := by
  cases call <;> cases answer <;> first | rfl | (rename_i x; cases x <;> first | rfl | cases ha)

/-- Every call moves at most the identity that it is about. -/
theorem standing_call {result : IncrementalRunnerState × RunnerAnswer}
    (h : Standing history state) (he : Effect state call result)
    (hb : (queuedIds (history ++ [(call, result.2)])).length < 2 ^ 32 - 1) :
    Standing (history ++ [(call, result.2)]) result.1 := by
  cases he with
  | queued slot hn =>
    rw [queuedIds_concat, List.length_append] at hb
    have hone : (queuedIds [(RunnerCall.queue slot,
        RunnerAnswer.queued (.ok (state.tracker.nextId slot)))]).length = 1 := rfl
    have hcount := h.counted
    have hnext : (advance state.tracker.nextGeneration).toNat =
        state.tracker.nextGeneration.toNat + 1 := advance_toNat (by omega)
    refine h.move (h.fresh hn (by omega) slot) (.queue slot) ⟨rfl, Nat.le_refl _⟩ ?_ ?_ ?_ ?_
    · rw [queuedIds_concat, List.length_append, hone, ← hcount]
      exact hnext
    · show state.tracker.nextGeneration.toNat ≤ (advance state.tracker.nextGeneration).toNat
      omega
    · intro other lifecycle _ hx
      rw [hn] at hx
      cases hx
    · intro other lifecycle hne hx
      cases hx
      exact hne rfl
  | @moved _ id lifecycle answer next waitFor ht hc ho =>
    obtain ⟨htold, hnumber⟩ := h.owner hc
    refine h.move htold (.move ht ho) ?_ ?_ (Nat.le_refl _) ?_ ?_
    · cases next with
      | some later => exact ⟨rfl, hnumber⟩
      | none => exact ⟨fun _ hx => (by cases hx), hnumber⟩
    · rw [queuedIds_concat, queuedIds_of_target ht, List.append_nil]
      exact h.counted
    · intro other lifecycle hne hx
      rw [hc] at hx
      cases hx
      exact hne rfl
    · intro other lifecycle hne hx
      obtain ⟨later, -, he⟩ := Option.map_eq_some_iff.mp hx
      cases he
      exact hne rfl
  | stepped ready => exact h.still rfl rfl (DriverCoherence.selectStep_frame ready state).1
  | refused ha => exact h.still (concerns_refused ha) (queuedIds_of_refused ha) rfl

/-- A call releases the owner of the slot, or keeps it and moves it forward. -/
theorem call_forward {result : IncrementalRunnerState × RunnerAnswer}
    (he : Effect state call result) (hc : state.tracker.current = some (id, lifecycle)) :
    (call, result.2) = (.reap id, .returned (.ok ())) ∨
      ∃ later, result.1.tracker.current = some (id, later) ∧ rank lifecycle ≤ rank later := by
  cases he with
  | queued slot hn =>
    rw [hn] at hc
    cases hc
  | moved ht ho hx =>
    rw [ho] at hc
    cases hc
    rcases outcome_forward ht hx with hreap | ⟨later, rfl, hle⟩
    · exact Or.inl hreap
    · exact Or.inr ⟨later, rfl, hle⟩
  | stepped ready =>
    refine Or.inr ⟨lifecycle, ?_, Nat.le_refl _⟩
    rw [(DriverCoherence.selectStep_frame ready state).1]
    exact hc
  | refused ha => exact Or.inr ⟨lifecycle, hc, Nat.le_refl _⟩

/-- Only a terminal operation is released. -/
theorem reap_terminal {result : IncrementalRunnerState × RunnerAnswer}
    (he : Effect state (.reap id) result) (ha : result.2 = .returned (.ok ())) :
    state.tracker.current = some (id, .terminal) := by
  cases he with
  | @moved _ _ lifecycle _ _ _ ht hc ho =>
    cases ht
    cases lifecycle <;> first | exact hc | cases ho
  | refused hr =>
    subst ha
    cases hr

/-- A transition other than a failure is that of an operation that the backend owns; it is
a completion only without a cancellation. -/
theorem changed_live {transition : RunnerTransition} {result : IncrementalRunnerState × RunnerAnswer}
    (he : Effect state call result) (ht : call.target = some id)
    (ha : result.2 = .changed (.ok transition))
    (hf : ∀ error cancellationPending, transition ≠ .failed error cancellationPending) :
    ∃ cancelled,
      state.tracker.current = some (id, IncrementalRunnerState.liveLifecycle cancelled) ∧
      ∀ completion, transition = .completed completion → cancelled = false := by
  cases he with
  | queued slot hn => cases ht
  | @moved _ _ lifecycle _ _ _ hid hc ho =>
    rw [hid] at ht
    cases ht
    cases call with
    | applyReport expected report =>
      cases hid
      obtain ⟨-, cancelled, accepted, rfl, rfl, -, hcompleted⟩ := report_cases ho
      cases ha
      exact ⟨cancelled, hc, hcompleted⟩
    -- the other calls that change an operation fail it
    | _ => cases lifecycle <;> cases ho <;> cases ha <;> exact (hf _ _ rfl).elim
  | stepped ready => cases ht
  | refused hr =>
    subst ha
    cases hr

/-- A call that bears an identity without the slot is refused. -/
theorem refused_of_absent {result : IncrementalRunnerState × RunnerAnswer}
    (he : Effect state call result) (hb : Bears call id)
    (hc : ∀ lifecycle, state.tracker.current ≠ some (id, lifecycle)) :
    result.2.refused = true := by
  cases he with
  | queued slot hn => rcases hb with hb | ⟨_, _, hb, -⟩ <;> cases hb
  | moved ht hcurrent ho =>
    rcases hb with hb | ⟨expected, report, rfl, rfl⟩
    · rw [ht] at hb
      cases hb
      exact (hc _ hcurrent).elim
    · cases ht
      rw [(report_cases ho).1] at hc
      exact (hc _ hcurrent).elim
  | stepped ready => rcases hb with hb | ⟨_, _, hb, -⟩ <;> cases hb
  | refused ha => exact ha

/-- Whatever the stage, an identity has at most one terminal outcome. -/
theorem Told.ends_once {calls : RunnerHistory} {stage : Stage} (h : Told id calls stage) :
    (outcomes calls id).length ≤ 1 := by
  cases stage with
  | unqueued =>
    cases h
    exact Nat.zero_le _
  | owning lifecycle =>
    cases lifecycle with
    | queued => rw [h.2.2.1]; exact Nat.zero_le _
    | started => rw [h.2.2.1]; exact Nat.zero_le _
    | cancelRequested => rw [h.2.1]; exact Nat.zero_le _
    | terminal => exact Nat.le_of_eq h.1
  | reaped => exact Nat.le_of_eq h.1

/-- An operation that was released does not own the slot. -/
theorem Standing.reaped (h : Standing history state) (hr : Reaped history id) :
    ∀ lifecycle, state.tracker.current ≠ some (id, lifecycle) := by
  intro lifecycle hc
  have htold := (h.owner hc).1
  have hreaped : Reaped (story concerns history id) id := mem_story.mpr ⟨hr, rfl⟩
  cases lifecycle with
  | queued => exact htold.2.2.2 hreaped
  | started => exact htold.2.2.2 hreaped
  | cancelRequested => exact htold.2.2 hreaped
  | terminal => exact htold.2 hreaped

end Steps

/-- The calls so far account for the state of every run with fewer identities than there are. -/
theorem run_standing (calls : List RunnerCall)
    (hb : (queuedIds (runnerMachine.transcript .new calls)).length < 2 ^ 32 - 1) :
    Standing (runnerMachine.transcript .new calls) (runnerMachine.run .new calls) := by
  refine transcript_invariant runnerMachine
    (G := fun history => (queuedIds history).length < 2 ^ 32 - 1) standing_new ?_ ?_ calls hb
  · intro history entry hg
    rw [queuedIds_concat, List.length_append] at hg
    omega
  · intro history state call hg h
    exact standing_call h (call_effect state call) hg

/-- Between two moments of a run the owner of the slot was released or has moved forward. -/
theorem run_forward {state : IncrementalRunnerState} {id : OperationId}
    {lifecycle : OperationLifecycle} (hc : state.tracker.current = some (id, lifecycle))
    (calls : List RunnerCall) :
    Reaped (runnerMachine.transcript state calls) id ∨
      ∃ later, (runnerMachine.run state calls).tracker.current = some (id, later) ∧
        rank lifecycle ≤ rank later := by
  induction calls generalizing state lifecycle with
  | nil => exact Or.inr ⟨lifecycle, hc, Nat.le_refl _⟩
  | cons call rest ih =>
    rcases call_forward (call_effect state call) hc with hreap | ⟨later, hnext, hle⟩
    · exact Or.inl (List.mem_cons.mpr (Or.inl hreap.symm))
    · rcases ih hnext with hreap | ⟨last, hlast, hle'⟩
      · exact Or.inl (List.mem_cons_of_mem _ hreap)
      · exact Or.inr ⟨last, hlast, hle.trans hle'⟩

/-- Over every sequence of calls with fewer queued identities than there are: an identity has
at most one terminal outcome; its lifecycle only moves forward until it is released, and it is
released only when terminal; it completes or is cancelled by a report only after its start was
recorded, and never completes after an accepted cancellation; and once it is released no call
and no report with it succeeds. -/
theorem operations_end_once (calls : List RunnerCall)
    (hb : (queuedIds (runnerMachine.transcript .new calls)).length < 2 ^ 32 - 1) :
    let history := runnerMachine.transcript .new calls
    let state := runnerMachine.run .new calls
    (∀ id, (outcomes history id).length ≤ 1) ∧
    (∀ before after, calls = before ++ after → ∀ id lifecycle,
      (runnerMachine.run .new before).tracker.current = some (id, lifecycle) →
      Reaped (runnerMachine.transcript (runnerMachine.run .new before) after) id ∨
        ∃ later, state.tracker.current = some (id, later) ∧ rank lifecycle ≤ rank later) ∧
    (∀ id, runnerMachine.output state (.reap id) = .returned (.ok ()) →
      state.tracker.current = some (id, .terminal)) ∧
    (∀ id call, call.target = some id →
      (∀ completion, runnerMachine.output state call = .changed (.ok (.completed completion)) →
        Started history id ∧ ¬ CancelRequested history id) ∧
      ∀ suppressed, runnerMachine.output state call = .changed (.ok (.cancelled suppressed)) →
        Started history id) ∧
    ∀ id, Reaped history id → ∀ call, Bears call id →
      (runnerMachine.output state call).refused = true := by
  intro history state
  have h : Standing history state := run_standing calls hb
  have hchanged : ∀ id call transition, call.target = some id →
      runnerMachine.output state call = .changed (.ok transition) →
      (∀ error cancellationPending, transition ≠ .failed error cancellationPending) →
      Started history id ∧
        ∀ completion, transition = .completed completion → ¬ CancelRequested history id := by
    intro id call transition ht ha hf
    obtain ⟨cancelled, hc, hcompleted⟩ := changed_live (call_effect state call) ht ha hf
    obtain ⟨hs, hn, -⟩ := told_live.mp (h.owner hc).1
    refine ⟨(mem_story.mp hs).1, fun completion he ⟨directive, hm⟩ => ?_⟩
    exact hn (hcompleted completion he) ⟨directive, mem_story.mpr ⟨hm, rfl⟩⟩
  refine ⟨fun id => ?_, ?_, fun id ha => reap_terminal (call_effect state (.reap id)) ha,
    fun id call ht => ⟨fun completion ha => ?_, fun suppressed ha => ?_⟩,
    fun id hr call hbears => refused_of_absent (call_effect state call) hbears (h.reaped hr)⟩
  · obtain ⟨stage, htold, -⟩ := h.stands id
    have honce := htold.ends_once
    unfold outcomes at honce ⊢
    rwa [filter_story] at honce
    intro entry he
    exact concerns_ended (of_decide_eq_true he)
  · rintro before after rfl id lifecycle hc
    have hrun : state = runnerMachine.run (runnerMachine.run .new before) after :=
      run_append _ _ _ _
    rw [hrun]
    exact run_forward hc after
  · obtain ⟨hs, hn⟩ := hchanged id call _ ht ha (fun _ _ hx => by cases hx)
    exact ⟨hs, hn completion rfl⟩
  · exact (hchanged id call _ ht ha (fun _ _ hx => by cases hx)).1

/-- Identity that the first admission allocates. -/
def firstOperation : OperationId := OperationTracker.new.nextId 0

/-- An operation that is started, completes and is released. -/
def completedRun : List RunnerCall :=
  let id := firstOperation
  [.queue 0, .markStarted id, .applyReport id ⟨id, 1, 10, false, true, .complete .initialized⟩,
    .reap id]

/-- Its identity has one terminal outcome. -/
theorem operations_end_once_completed :
    (outcomes (runnerMachine.transcript .new completedRun) firstOperation).length ≤ 1 :=
  (operations_end_once completedRun (by decide)).1 firstOperation

end HisiRfCore.OperationStages
