import HisiRfCore.LifecycleInterleaving

/-!
# Requests overwritten by late ones

`request_cancel` signals after it releases the lock, and the signal keeps one request. A
guard that is overtaken there, while its generation is terminated and the next one begun
and cancelled, writes over the request of the next one. Otherwise every request stays in
the signal until the runner takes it.
-/

namespace HisiRfCore.LifecycleOverwrites

open BoundedChannel LifecycleControl LifecycleStages LifecycleCalls LifecycleInterleaving
  InputOutputMachine

variable {ε : Type}

/-- A request is about to replace that of the generation being cancelled. -/
def overwritesRequest (s : LifecycleParties ε) : LifecycleStep ε → Bool
  | .guard slot =>
    match s.guards[slot]? with
    | some guard =>
      match guard.progress with
      | .requesting _ =>
        match s.state.inner.phase with
        | .cancelling current _ =>
          s.state.cancellation.value = some current && guard.id ≠ current
        | _ => false
      | _ => false
    | none => false
  | _ => false

/-- No request replaces that of the generation being cancelled. -/
def Preserving (s : LifecycleParties ε) (step : LifecycleStep ε) : Prop :=
  overwritesRequest s step = false

instance (s : LifecycleParties ε) (step : LifecycleStep ε) : Decidable (Preserving s step) :=
  inferInstanceAs (Decidable (overwritesRequest s step = false))

/-- Steps of a run with what each answered. -/
abbrev StepHistory (ε : Type) := List (LifecycleStep ε × LifecycleAnswer ε)

/-- Requests that `try_take_cancel` returned, in order. -/
def requestsTaken (history : StepHistory ε) : List LifecycleId :=
  history.filterMap fun
    | (_, .taken request) => request
    | _ => none

/-- A guard of the generation has moved the phase and its signal is due. -/
def Requesting (s : LifecycleParties ε) (id : LifecycleId) : Prop :=
  ∃ (slot : ℕ) (waiterAttached : Bool), s.guards[slot]? = some ⟨id, .requesting waiterAttached⟩

/-- The request of the generation being cancelled is due, signalled or taken. -/
def Requested (history : StepHistory ε) (s : LifecycleParties ε) : Prop :=
  ∀ id attached, s.state.inner.phase = .cancelling id attached →
    Requesting s id ∨ id ∈ requestsTaken history ∨ s.state.cancellation.value = some id

section Steps

variable {s next : LifecycleParties ε} {history : StepHistory ε} {slot : ℕ}
  {guard : LifecycleGuard ε} {entry : LifecycleStep ε × LifecycleAnswer ε}

/-- What was taken stays taken. -/
theorem taken_concat {id : LifecycleId} (h : id ∈ requestsTaken history) :
    id ∈ requestsTaken (history ++ [entry]) := by
  rw [requestsTaken, List.filterMap_append]
  exact List.mem_append_left _ h

/-- A step that cancels no other generation, leaves the signal alone and goes on with every
request that is due. -/
theorem Requested.keep (h : Requested history s)
    (hp : ∀ id attached, next.state.inner.phase = .cancelling id attached →
      ∃ attached, s.state.inner.phase = .cancelling id attached)
    (hc : next.state.cancellation = s.state.cancellation)
    (hg : ∀ id, Requesting s id → Requesting next id) : Requested (history ++ [entry]) next := by
  intro id attached hphase
  obtain ⟨before, hbefore⟩ := hp id attached hphase
  rw [hc]
  rcases h id before hbefore with hr | ht | hv
  · exact Or.inl (hg id hr)
  · exact Or.inr (Or.inl (taken_concat ht))
  · exact Or.inr (Or.inr hv)

/-- A step after which nothing is being cancelled. -/
theorem requested_elsewhere
    (hp : ∀ id attached, next.state.inner.phase ≠ .cancelling id attached) :
    Requested (history ++ [entry]) next :=
  fun id attached hphase => absurd hphase (hp id attached)

/-- A step that changes nothing. -/
theorem Requested.same (h : Requested history s) : Requested (history ++ [entry]) s :=
  h.keep (fun _ attached hp => ⟨attached, hp⟩) rfl fun _ hr => hr

/-- A step on a guard whose signal is not due leaves those that are due. -/
theorem Requesting.put {id : LifecycleId} (h : Requesting s id)
    (hslot : s.guards[slot]? = some guard) (state : LifecycleState ε) (progress : GuardProgress ε)
    (hne : guard.id = id → ∀ waiterAttached, guard.progress ≠ .requesting waiterAttached) :
    Requesting (s.put state slot guard progress) id := by
  obtain ⟨other, waiterAttached, hother⟩ := h
  have he : other ≠ slot := by
    rintro rfl
    rw [hslot] at hother
    cases hother
    exact hne rfl waiterAttached rfl
  exact ⟨other, waiterAttached, by rw [put_guards hslot, if_neg he, hother]⟩

/-- A step on a guard whose signal is not due. -/
theorem Requested.put (h : Requested history s) (hslot : s.guards[slot]? = some guard)
    (hne : ∀ waiterAttached, guard.progress ≠ .requesting waiterAttached)
    {state : LifecycleState ε} {progress : GuardProgress ε}
    (hp : ∀ id attached, state.inner.phase = .cancelling id attached →
      ∃ attached, s.state.inner.phase = .cancelling id attached)
    (hc : state.cancellation = s.state.cancellation) :
    Requested (history ++ [entry]) (s.put state slot guard progress) :=
  h.keep hp hc fun _ hr => hr.put hslot state progress fun _ => hne

/-- An activation cancels nothing and hands out a held guard. -/
theorem requested_activate (h : Requested history s) (id : LifecycleId) :
    Requested (history ++ [entry]) (s.receive (LifecycleRunner.activate id s.state)).1 := by
  rw [LifecycleRunner.activate_eq]
  split
  · exact requested_elsewhere fun _ _ => nofun
  · exact h.keep (fun _ attached hp => ⟨attached, hp⟩) rfl fun _ hr => hr

/-- Neither does the end of a generation. -/
theorem requested_unlock (h : Requested history s) {unsolicited : Bool} {id : LifecycleId}
    {result : Except ε Unit} {outcome : Except LifecycleStateError Bool × LifecycleState ε}
    (he : LifecycleRunner.Ending unsolicited id s.state outcome) :
    Requested (history ++ [entry]) (s.unlock ⟨id, result⟩ outcome).1 := by
  cases he with
  | attached => exact requested_elsewhere fun _ _ => nofun
  | detached => exact requested_elsewhere fun _ _ => nofun
  | early => exact requested_elsewhere fun _ _ => nofun
  | refused => exact h.same

/-- A request that the runner takes is in the history. -/
theorem requested_tryTakeCancel (h : Requested history s) :
    Requested (history ++ [(.call .tryTakeCancel, (s.enter .tryTakeCancel).2)])
      (s.enter .tryTakeCancel).1 := by
  intro id attached hp
  rcases h id attached hp with hr | ht | hv
  · exact Or.inl hr
  · exact Or.inr (Or.inl (taken_concat ht))
  · refine Or.inr (Or.inl ?_)
    rw [requestsTaken, List.filterMap_append]
    refine List.mem_append_right _ ?_
    simp [LifecycleParties.enter, LifecycleRunner.tryTakeCancel, Signal.tryTake, hv]

/-- The first step of a call of the runner loses no request. -/
theorem requested_enter (h : Requested history s) (call : RunnerCall ε) :
    Requested (history ++ [(.call call, (s.enter call).2)]) (s.enter call).1 := by
  cases call with
  | begin =>
    simp only [LifecycleParties.enter, LifecycleRunner.begin]
    split
    · exact h.same
    · exact requested_elsewhere fun _ _ h => by cases h
  | adopt =>
    simp only [LifecycleParties.enter, LifecycleRunner.begin]
    by_cases hidle : s.state.inner.phase = .idle
    · simp only [hidle, ne_eq, not_true_eq_false, if_false]
      exact requested_elsewhere fun _ _ h => by cases h
    · simp only [hidle, ne_eq, not_false_eq_true, if_true]
      exact h.same
  | abortStart id =>
    simp only [LifecycleParties.enter, LifecycleRunner.abortStart_eq]
    split
    · exact requested_elsewhere fun _ _ h => by cases h
    · exact h.same
  | activate id => exact requested_activate h id
  | tryTakeCancel => exact requested_tryTakeCancel h
  | finish id result => exact requested_unlock h (LifecycleRunner.lockFinish_ending id s.state)
  | terminate id result =>
    exact requested_unlock h (LifecycleRunner.lockTerminate_ending id s.state)

/-- The locked section of a request makes it due. -/
theorem requested_request (h : Requested history s) (hslot : s.guards[slot]? = some guard)
    (hheld : guard.progress = .held) (waiterAttached : Bool) {progress : GuardProgress ε}
    {state : LifecycleState ε} {answer : Except LifecycleStateError Bool}
    (hx : s.state.lockRequest guard.id waiterAttached = (answer, state))
    (hprogress : answer = .ok true → progress = .requesting waiterAttached) :
    Requested (history ++ [entry]) (s.put state slot guard progress) := by
  have hne : ∀ waiterAttached, guard.progress ≠ .requesting waiterAttached := by
    rw [hheld]
    exact fun _ => nofun
  rcases s.state.lockRequest_cases guard.id waiterAttached with ⟨-, hy⟩ | ⟨-, hy⟩ | ⟨-, hy⟩ <;>
    rw [hx] at hy <;> cases hy
  · intro id attached hp
    cases hp
    refine Or.inl ⟨slot, waiterAttached, ?_⟩
    rw [put_guards hslot, if_pos rfl, hprogress rfl]
  · exact h.put hslot hne (fun _ attached hp => ⟨attached, hp⟩) rfl
  · exact h.put hslot hne (fun _ attached hp => ⟨attached, hp⟩) rfl

/-- Reading a result concerns no request. -/
theorem requested_read (h : Requested history s) (hslot : s.guards[slot]? = some guard)
    (hne : ∀ waiterAttached, guard.progress ≠ .requesting waiterAttached) :
    Requested (history ++ [entry]) (s.read slot guard).1 := by
  unfold LifecycleParties.read LifecycleGuard.readTerminal
  cases hv : s.state.terminal.value with
  | none =>
    simp only [Signal.tryTake, hv]
    exact h.put hslot hne (fun _ attached hp => ⟨attached, hp⟩) rfl
  | some terminal =>
    simp only [Signal.tryTake, hv]
    by_cases hid : terminal.id = guard.id
    · simp only [hid, ne_eq, not_true_eq_false, if_false]
      exact h.put hslot hne (fun _ attached hp => ⟨attached, hp⟩) rfl
    · simp only [hid, ne_eq, not_false_eq_true, if_true]
      exact h.put hslot hne (fun _ attached hp => ⟨attached, hp⟩) rfl

/-- The first step of a poll loses no request. -/
theorem requested_poll (h : Requested history s) (hslot : s.guards[slot]? = some guard) :
    Requested (history ++ [entry]) (s.poll slot guard).1 := by
  unfold LifecycleParties.poll
  cases hp : guard.progress with
  | held =>
    rcases hx : s.state.lockRequest guard.id true with ⟨_ | _ | _, state⟩
    · exact requested_request h hslot hp true hx nofun
    · exact requested_request h hslot hp true hx nofun
    · exact requested_request h hslot hp true hx fun _ => rfl
  | waiting => exact requested_read h hslot (by rw [hp]; exact fun _ => nofun)
  | _ => exact h.same

/-- The first step of a drop loses no request. -/
theorem requested_drop (h : Requested history s) (hslot : s.guards[slot]? = some guard) :
    Requested (history ++ [entry]) (s.drop slot guard).1 := by
  unfold LifecycleParties.drop
  cases hp : guard.progress with
  | held =>
    rcases hx : s.state.lockRequest guard.id false with ⟨_ | _ | _, state⟩
    · exact requested_request h hslot hp false hx nofun
    · exact requested_request h hslot hp false hx nofun
    · exact requested_request h hslot hp false hx fun _ => rfl
  | waiting =>
    have hne : ∀ waiterAttached, guard.progress ≠ .requesting waiterAttached := by
      rw [hp]
      exact fun _ => nofun
    rcases s.state.detachWaiter_cases guard.id with ⟨hc, hx⟩ | ⟨-, hx⟩ | ⟨-, -, hx⟩ <;>
      simp only [hx]
    · refine h.put hslot hne (fun id attached hphase => ?_) rfl
      cases hphase
      exact ⟨true, hc⟩
    · exact requested_elsewhere fun _ _ => nofun
    · exact h.put hslot hne (fun _ attached hphase => ⟨attached, hphase⟩) rfl
  | _ => exact h.same

/-- The signal of a request overwrites only what is not wanted any more. -/
theorem requested_signal (h : Requested history s) (hslot : s.guards[slot]? = some guard)
    {waiterAttached : Bool} (hdue : guard.progress = .requesting waiterAttached)
    (hp : Preserving s (.guard slot)) (progress : GuardProgress ε) :
    Requested (history ++ [entry])
      (s.put (s.state.signalCancel guard.id) slot guard progress) := by
  intro id attached hphase
  rw [put_state, LifecycleState.signalCancel_inner] at hphase
  by_cases hid : guard.id = id
  · rw [← hid]
    exact Or.inr (Or.inr rfl)
  · rcases h id attached hphase with hr | ht | hv
    · exact Or.inl (hr.put hslot _ progress fun he => absurd he hid)
    · exact Or.inr (Or.inl (taken_concat ht))
    · have hover : overwritesRequest s (.guard slot) = true := by
        simp [overwritesRequest, hslot, hdue, hphase, hv, hid]
      rw [show overwritesRequest s (.guard slot) = false from hp] at hover
      cases hover

/-- A later step of a call on a guard loses no request. -/
theorem requested_resume (h : Requested history s) (hslot : s.guards[slot]? = some guard)
    (hp : Preserving s (.guard slot)) :
    Requested (history ++ [entry]) (s.resume slot guard).1 := by
  unfold LifecycleParties.resume
  cases hdue : guard.progress with
  | requesting waiterAttached =>
    cases waiterAttached <;> exact requested_signal h hslot hdue hp _
  | polling => exact requested_read h hslot (by rw [hdue]; exact fun _ h => by cases h)
  | acknowledging result =>
    simp only [LifecycleGuard.acknowledge, LifecycleState.acknowledgeTerminal_eq]
    by_cases hphase : s.state.inner.phase = .terminal guard.id
    · simp only [hphase, if_true]
      exact requested_elsewhere fun _ _ h => by cases h
    · simp only [hphase, if_false]
      refine h.put hslot ?_ (fun _ attached hp => ⟨attached, hp⟩) rfl
      rw [hdue]
      exact fun _ h => by cases h
  | _ => exact h.same

/-- No step loses a request unless it writes over it. -/
theorem requested_step (h : Requested history s) {step : LifecycleStep ε}
    (hp : Preserving s step) :
    Requested (history ++ [(step, (s.step step).2)]) (s.step step).1 := by
  cases step with
  | call call =>
    simp only [LifecycleParties.step]
    split
    · exact requested_enter h call
    · exact h.same
  | runner =>
    simp only [LifecycleParties.step]
    split
    · exact h.same
    · exact requested_activate h _
    · exact h.keep (fun _ attached hphase => ⟨attached, hphase⟩) rfl fun _ hr => hr
  | pollStop slot =>
    simp only [LifecycleParties.step]
    split
    · exact h.same
    next hslot => exact requested_poll h hslot
  | dropGuard slot =>
    simp only [LifecycleParties.step]
    split
    · exact h.same
    next hslot => exact requested_drop h hslot
  | guard slot =>
    simp only [LifecycleParties.step]
    split
    · exact h.same
    next hslot => exact requested_resume h hslot hp

end Steps

/-- No request is lost while none is overwritten: when the call that moved a generation to
its cancellation has returned, the runner has taken the request or finds it in the signal. -/
theorem requests_kept (steps : List (LifecycleStep ε))
    (h : partyMachine.Along Preserving .new steps) :
    let s := partyMachine.run .new steps
    ∀ id attached, s.state.inner.phase = .cancelling id attached →
      (∀ guard ∈ s.guards, guard.id = id →
        ∀ waiterAttached, guard.progress ≠ .requesting waiterAttached) →
      id ∈ requestsTaken (partyMachine.transcript .new steps) ∨
        s.state.cancellation.value = some id := by
  intro s id attached hphase hreturned
  have hs : Requested (partyMachine.transcript .new steps) s :=
    along_invariant partyMachine (I := Requested) (fun _ _ hp => by cases hp)
      (fun _ _ _ hp hr => requested_step hr hp) h
  rcases hs id attached hphase with ⟨slot, waiterAttached, hslot⟩ | hr
  · exact absurd rfl (hreturned _ (List.mem_of_getElem? hslot) rfl waiterAttached)
  · exact hr

/-- A guard is dropped, and its generation terminated before the signal; the next generation is
begun, activated and dropped. The first one signals before the second. -/
def signalledRun : List (LifecycleStep Unit) :=
  [.call .begin, .call (.activate firstId), .dropGuard 0, .call (.terminate firstId (.ok ())),
    .call .begin, .call (.activate secondId), .dropGuard 1, .guard 0, .guard 1]

/-- The request of the second generation is in the signal or taken. -/
theorem requests_kept_signalled :
    partyMachine.Along Preserving .new signalledRun ∧
    (secondId ∈ requestsTaken (partyMachine.transcript .new signalledRun) ∨
      (partyMachine.run .new signalledRun).state.cancellation.value = some secondId) :=
  ⟨by decide +kernel, requests_kept signalledRun (by decide +kernel) secondId false
    (by decide +kernel) (by
      have hclosed : ∀ guard ∈ (partyMachine.run .new signalledRun).guards,
          guard.progress = .closed := by decide +kernel
      intro guard hg _ waiterAttached
      rw [hclosed guard hg]
      nofun)⟩

/-- A guard is dropped, and its generation terminated before the signal; the next generation
is begun, activated and dropped, and signals first. -/
def lateRun : List (LifecycleStep Unit) :=
  [.call .begin, .call (.activate firstId), .dropGuard 0, .call (.terminate firstId (.ok ())),
    .call .begin, .call (.activate secondId), .dropGuard 1, .guard 1, .guard 0]

/-- The late signal of the first generation replaces the request of the second one, which
the runner has not taken. -/
theorem late_request_overwrites :
    ¬ ∀ (steps : List (LifecycleStep Unit)) (id : LifecycleId) (attached : Bool),
      steps.length < 2 ^ 32 - 1 →
      (partyMachine.run .new steps).state.inner.phase = .cancelling id attached →
      (∀ guard ∈ (partyMachine.run .new steps).guards, guard.id = id →
        ∀ waiterAttached, guard.progress ≠ .requesting waiterAttached) →
      id ∈ requestsTaken (partyMachine.transcript .new steps) ∨
        (partyMachine.run .new steps).state.cancellation.value = some id := by
  intro h
  have hclosed : ∀ guard ∈ (partyMachine.run .new lateRun).guards,
      guard.progress = .closed := by decide +kernel
  have hlost : ¬ (secondId ∈ requestsTaken (partyMachine.transcript .new lateRun) ∨
      (partyMachine.run .new lateRun).state.cancellation.value = some secondId) := by
    decide +kernel
  refine hlost (h lateRun secondId false (by decide) (by decide +kernel) ?_)
  intro guard hg _ waiterAttached
  rw [hclosed guard hg]
  nofun

end HisiRfCore.LifecycleOverwrites
