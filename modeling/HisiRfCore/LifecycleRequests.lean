import HisiRfCore.LifecycleCalls

/-!
# Cancellation requests of ended generations

No terminating call clears the cancellation signal. A generation that is ended while its
request waits there leaves the request behind, and the runner takes it as if it were due.
The requests taken are current as long as each is taken before its generation is ended.
-/

namespace HisiRfCore.LifecycleRequests

open BoundedChannel LifecycleControl LifecycleStages LifecycleCalls InputOutputMachine

variable {ε : Type}

/-- The call ends a cancelling generation whose request was not taken. -/
def leavesRequest (s : LifecycleSystem ε) : LifecycleCall ε → Bool
  | .finish id _ | .terminate id _ =>
    match s.state.inner.phase with
    | .cancelling current _ => current = id && s.state.cancellation.value.isSome
    | _ => false
  | _ => false

/-- The request of a cancelling generation is taken before the generation is ended. -/
def Prompt (s : LifecycleSystem ε) (call : LifecycleCall ε) : Prop := leavesRequest s call = false

instance (s : LifecycleSystem ε) (call : LifecycleCall ε) : Decidable (Prompt s call) :=
  inferInstanceAs (Decidable (leavesRequest s call = false))

/-- A waiting request is that of the cancelling generation. -/
def Current (state : LifecycleState ε) : Prop :=
  ∀ id, state.cancellation.value = some id → ∃ attached, state.inner.phase = .cancelling id attached

section Steps

variable {s : LifecycleSystem ε} {state next : LifecycleState ε} {id : LifecycleId}

/-- A call that neither signals nor ends a cancelling generation keeps the request current. -/
theorem Current.of_phase (h : Current state) (hc : next.cancellation = state.cancellation)
    (hp : ∀ id attached, state.inner.phase = .cancelling id attached →
      ∃ attached, next.inner.phase = .cancelling id attached) : Current next := by
  intro id hv
  rw [hc] at hv
  obtain ⟨attached, ha⟩ := h id hv
  exact hp id attached ha

/-- A new request is that of the generation it moves. -/
theorem current_requestCancel (h : Current state) (id : LifecycleId) (waiterAttached : Bool) :
    Current (state.requestCancel id waiterAttached).2 := by
  rcases state.requestCancel_cases id waiterAttached with ⟨-, hx⟩ | ⟨-, hx⟩ | ⟨-, hx⟩ <;> rw [hx]
  · intro other hv
    cases hv
    exact ⟨waiterAttached, rfl⟩
  · exact h
  · exact h

/-- A detached generation is still cancelling. -/
theorem current_detachWaiter (h : Current state) (id : LifecycleId) :
    Current (state.detachWaiter id) := by
  rcases state.detachWaiter_cases id with ⟨hp, hx⟩ | ⟨hp, hx⟩ | ⟨-, -, hx⟩ <;> rw [hx]
  · refine h.of_phase rfl fun other attached ho => ?_
    rw [hp] at ho
    cases ho
    exact ⟨false, rfl⟩
  · refine h.of_phase rfl fun other attached ho => ?_
    rw [hp] at ho
    cases ho
  · exact h

/-- Reading a result frees only a finished generation. -/
theorem current_awaitTerminal (h : Current state) (guard : LifecycleGuard ε) :
    Current (guard.awaitTerminal state).2.2 := by
  cases hv : state.terminal.value with
  | none =>
    rw [LifecycleGuard.awaitTerminal_of_none hv]
    exact h
  | some terminal =>
    simp only [LifecycleGuard.awaitTerminal, LifecycleGuard.readTerminal, Signal.tryTake, hv]
    by_cases hid : terminal.id = guard.id
    · simp only [hid, ne_eq, not_true_eq_false, if_false, LifecycleGuard.acknowledge,
        LifecycleState.acknowledgeTerminal_eq]
      by_cases hp : state.inner.phase = .terminal guard.id
      · simp only [hp, if_true]
        refine h.of_phase rfl fun other attached ho => ?_
        rw [hp] at ho
        cases ho
      · simp only [hp, if_false]
        exact h
    · simp only [hid, ne_eq, not_false_eq_true, if_true]
      exact h

/-- A prompt end leaves no request behind. -/
theorem current_ending (h : Current state) {unsolicited : Bool} {result : Except ε Unit}
    {outcome : Except LifecycleStateError Bool × LifecycleState ε}
    (he : LifecycleRunner.Ending unsolicited id state outcome)
    (hprompt : ∀ attached, state.inner.phase = .cancelling id attached →
      state.cancellation.value = none) :
    Current (LifecycleRunner.publishTerminal id result outcome).2 := by
  have hended : (∃ attached, state.inner.phase = .cancelling id attached) →
      ∀ next : LifecycleState ε, next.cancellation = state.cancellation → Current next := by
    rintro ⟨attached, hp⟩ next hc other hv
    rw [hc, hprompt attached hp] at hv
    cases hv
  cases he with
  | attached hp => exact hended ⟨true, hp⟩ _ rfl
  | detached hp => exact hended ⟨false, hp⟩ _ rfl
  | early _ hp =>
    refine h.of_phase rfl fun other attached ho => ?_
    rcases hp with hp | hp <;>
    · rw [hp] at ho
      cases ho
  | refused => exact h

/-- A prompt end finds the signal empty. -/
theorem Prompt.value_none {call : LifecycleCall ε} {result : Except ε Unit}
    (h : Prompt s call) (hc : call = .finish id result ∨ call = .terminate id result)
    (attached : Bool) (hp : s.state.inner.phase = .cancelling id attached) :
    s.state.cancellation.value = none := by
  rcases hc with rfl | rfl <;> simpa [Prompt, leavesRequest, hp] using h

/-- Every prompt call keeps the request current. -/
theorem current_step (h : Current s.state) {call : LifecycleCall ε} (hp : Prompt s call) :
    Current (s.step call).1.state := by
  cases call with
  | begin =>
    simp only [LifecycleSystem.step, LifecycleRunner.begin]
    split
    · exact h
    next hidle =>
      refine h.of_phase rfl fun other attached ho => ?_
      rw [not_not.mp hidle] at ho
      cases ho
  | adopt =>
    simp only [LifecycleSystem.step, LifecycleRunner.adopt_eq]
    split
    next hidle =>
      refine h.of_phase rfl fun other attached ho => ?_
      rw [hidle] at ho
      cases ho
    · exact h
  | abortStart id =>
    simp only [LifecycleSystem.step, LifecycleRunner.abortStart_eq]
    split
    next hs =>
      refine h.of_phase rfl fun other attached ho => ?_
      rw [hs] at ho
      cases ho
    · exact h
  | activate id =>
    simp only [LifecycleSystem.step, LifecycleRunner.activate_eq]
    split
    next hs =>
      refine h.of_phase rfl fun other attached ho => ?_
      rw [hs] at ho
      cases ho
    · exact h
  | tryTakeCancel => exact fun _ hv => by cases hv
  | finish id result =>
    exact current_ending h (LifecycleRunner.lockFinish_ending id s.state)
      (hp.value_none (Or.inl rfl))
  | terminate id result =>
    exact current_ending h (LifecycleRunner.lockTerminate_ending id s.state)
      (hp.value_none (Or.inr rfl))
  | pollStop slot =>
    simp only [LifecycleSystem.step]
    split
    · exact h
    next guard _ =>
      split
      · simp only [LifecycleGuard.pollStop]
        split
        next =>
          have hr := current_requestCancel h guard.id true
          rcases hx : s.state.requestCancel guard.id true with ⟨_ | _, next⟩ <;> rw [hx] at hr
          · exact hr
          · exact current_awaitTerminal hr guard
        next => exact current_awaitTerminal h guard
        next => exact h
      · exact h
  | dropGuard slot =>
    simp only [LifecycleSystem.step]
    split
    · exact h
    next guard _ =>
      split
      · simp only [LifecycleGuard.drop]
        split
        · exact h
        · split
          · exact current_detachWaiter h guard.id
          · exact current_requestCancel h guard.id false
      · exact h

/-- An end that is not prompt leaves the request of its own generation in the signal. -/
theorem leaves_of_not_prompt (h : Current s.state) {call : LifecycleCall ε}
    (hp : ¬ Prompt s call) : ∃ id, (s.step call).1.state.cancellation.value = some id ∧
      ∀ attached, (s.step call).1.state.inner.phase ≠ .cancelling id attached := by
  have hleaves : leavesRequest s call = true := by simpa [Prompt] using hp
  have hended : ∀ (id : LifecycleId) attached (next : LifecycleState ε),
      s.state.inner.phase = .cancelling id attached →
      s.state.cancellation.value.isSome = true → next.cancellation = s.state.cancellation →
      (next.inner.phase = .terminal id ∨ next.inner.phase = .idle) →
      next.cancellation.value = some id ∧
        ∀ attached, next.inner.phase ≠ .cancelling id attached := by
    intro id attached next hphase hsome hc hn
    obtain ⟨request, hv⟩ := Option.isSome_iff_exists.mp hsome
    obtain ⟨_, hr⟩ := h request hv
    rw [hphase] at hr
    cases hr
    refine ⟨by rw [hc, hv], fun attached ha => ?_⟩
    rcases hn with hn | hn <;>
    · rw [hn] at ha
      cases ha
  cases hphase : s.state.inner.phase with
  | cancelling current attached =>
    cases call with
    | finish id result =>
      simp only [leavesRequest, hphase, Bool.and_eq_true, decide_eq_true_eq] at hleaves
      obtain ⟨rfl, hsome⟩ := hleaves
      refine ⟨current, hended current attached _ hphase hsome ?_ ?_⟩ <;>
        cases attached <;> simp [LifecycleSystem.step, LifecycleRunner.finish,
          LifecycleRunner.lockFinish, LifecycleRunner.publishTerminal, LifecycleRunner.publish,
          hphase]
    | terminate id result =>
      simp only [leavesRequest, hphase, Bool.and_eq_true, decide_eq_true_eq] at hleaves
      obtain ⟨rfl, hsome⟩ := hleaves
      refine ⟨current, hended current attached _ hphase hsome ?_ ?_⟩ <;>
        cases attached <;> simp [LifecycleSystem.step, LifecycleRunner.terminate,
          LifecycleRunner.lockTerminate, LifecycleRunner.publishTerminal, LifecycleRunner.publish,
          hphase]
    | _ => cases hleaves
  | _ => cases call <;> simp [leavesRequest, hphase] at hleaves

end Steps

/-- A run of prompt calls keeps the request current. -/
theorem run_current {calls : List (LifecycleCall ε)} (h : callMachine.Along Prompt .new calls) :
    Current (callMachine.run .new calls).state :=
  along_invariant callMachine (I := fun _ s => Current s.state) (fun _ hv => by cases hv)
    (fun _ _ _ hp hs => current_step hs hp) h

/-- While each request is taken before its generation is ended, every request taken is that
of the cancelling generation. The first end that comes too early leaves a request behind
that the next take returns. -/
theorem requests_current (calls : List (LifecycleCall ε))
    (h : callMachine.Along Prompt .new calls) :
    (∀ id, callMachine.output (callMachine.run .new calls) .tryTakeCancel = .taken (some id) →
      ∃ attached, (callMachine.run .new calls).state.inner.phase = .cancelling id attached) ∧
    ∀ call, ¬ Prompt (callMachine.run .new calls) call → ∃ id,
      callMachine.output (callMachine.run .new (calls ++ [call])) .tryTakeCancel =
        .taken (some id) ∧
      ∀ attached, (callMachine.run .new (calls ++ [call])).state.inner.phase ≠
        .cancelling id attached := by
  have hcurrent := run_current h
  refine ⟨fun id ho => hcurrent id (LifecycleAnswer.taken.inj ho), fun call hp => ?_⟩
  obtain ⟨id, hv, hne⟩ := leaves_of_not_prompt hcurrent hp
  rw [run_concat]
  exact ⟨id, congrArg LifecycleAnswer.taken hv, hne⟩

/-- A guard is dropped, its request taken and its generation finished; then the guard of an
adopted generation is dropped. -/
def promptRun : List (LifecycleCall Unit) :=
  [.begin, .activate firstId, .dropGuard 0, .tryTakeCancel, .finish firstId (.ok ()), .adopt,
    .dropGuard 1]

/-- The request that waits after that run is current. -/
theorem requests_current_prompt :
    callMachine.Along Prompt .new promptRun ∧
    (∀ id, callMachine.output (callMachine.run .new promptRun) .tryTakeCancel =
        .taken (some id) →
      ∃ attached, (callMachine.run .new promptRun).state.inner.phase = .cancelling id attached) :=
  ⟨by decide, (requests_current promptRun (by decide)).1⟩

/-- A guard is dropped, and its generation terminated before the runner takes the request. -/
def terminatedRun : List (LifecycleCall Unit) :=
  [.begin, .activate firstId, .dropGuard 0, .terminate firstId (.ok ())]

/-- The runner then takes the request of a generation that is over. -/
theorem ended_request_taken : ¬ ∀ (calls : List (LifecycleCall Unit)) (id : LifecycleId),
    (generations (callMachine.transcript .new calls)).length < 2 ^ 32 - 1 →
    callMachine.output (callMachine.run .new calls) .tryTakeCancel = .taken (some id) →
    ∃ attached, (callMachine.run .new calls).state.inner.phase = .cancelling id attached := by
  intro h
  obtain ⟨attached, hp⟩ := h terminatedRun firstId (by decide) (by decide)
  have hidle : (callMachine.run .new terminatedRun).state.inner.phase = .idle := by decide
  rw [hidle] at hp
  cases hp

end HisiRfCore.LifecycleRequests
