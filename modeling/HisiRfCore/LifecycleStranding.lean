import HisiRfCore.LifecycleInterleaving

/-!
# Results that nobody acknowledges

`finish` and `terminate` publish the result after they release the lock. A `stop` that is
dropped in between frees the generation without it, and the result stays in the signal for
the `stop` of the next generation. As long as no `stop` is dropped there, every finished
generation and every attached cancellation has a live `stop`.
-/

namespace HisiRfCore.LifecycleStranding

open BoundedChannel LifecycleControl LifecycleStages LifecycleCalls LifecycleInterleaving
  InputOutputMachine

variable {ε : Type}

/-- A waiting `stop` is dropped between the end of its generation and the publication. -/
def abandonsResult (s : LifecycleParties ε) : LifecycleStep ε → Bool
  | .dropGuard slot =>
    match s.guards[slot]? with
    | some guard =>
      match guard.progress with
      | .waiting => s.state.inner.phase = .terminal guard.id && s.state.terminal.value.isNone
      | _ => false
    | none => false
  | _ => false

/-- A `stop` of a finished generation is dropped only once its result is published. -/
def Published (s : LifecycleParties ε) (step : LifecycleStep ε) : Prop :=
  abandonsResult s step = false

instance (s : LifecycleParties ε) (step : LifecycleStep ε) : Decidable (Published s step) :=
  inferInstanceAs (Decidable (abandonsResult s step = false))

/-- A `stop` that has requested its cancellation and not resolved. -/
def stopping : GuardProgress ε → Bool
  | .requesting waiterAttached => waiterAttached
  | .polling | .waiting | .acknowledging _ => true
  | _ => false

/-- A live `stop` owns the generation. -/
def Attended (s : LifecycleParties ε) (id : LifecycleId) : Prop :=
  ∃ (slot : ℕ) (guard : LifecycleGuard ε),
    s.guards[slot]? = some guard ∧ guard.id = id ∧ stopping guard.progress = true

/-- The guard in the slot is about to acknowledge the result of the generation. -/
def Acknowledging (s : LifecycleParties ε) (slot : ℕ) (id : LifecycleId) : Prop :=
  ∃ result : Except ε Unit, s.guards[slot]? = some ⟨id, .acknowledging result⟩

/-- A result is in one place at a time, and only while its generation is finished. -/
structure Coherent (s : LifecycleParties ε) : Prop where
  /-- A published result belongs to the phase. -/
  signalled : ∀ terminal, s.state.terminal.value = some terminal →
    s.state.inner.phase = .terminal terminal.id ∧ ∀ other, s.runner ≠ .publishing other
  /-- So does one about to be published. -/
  publishing : ∀ terminal, s.runner = .publishing terminal →
    s.state.inner.phase = .terminal terminal.id ∧ s.state.terminal.value = none
  /-- So does one about to be acknowledged. -/
  acknowledging : ∀ slot id, Acknowledging s slot id →
    s.state.inner.phase = .terminal id ∧ s.state.terminal.value = none ∧
      ∀ other, s.runner ≠ .publishing other
  /-- One guard acknowledges. -/
  single : ∀ first second id other, Acknowledging s first id → Acknowledging s second other →
    first = second
  /-- What waits for a `stop` has one. -/
  attended : ∀ id, s.state.inner.phase = .terminal id ∨ s.state.inner.phase = .cancelling id true →
    Attended s id

section Steps

variable {s next : LifecycleParties ε} {slot : ℕ} {guard : LifecycleGuard ε}

/-- No result is on its way. -/
structure Still (s : LifecycleParties ε) : Prop where
  /-- None is published. -/
  value : s.state.terminal.value = none
  /-- None is about to be. -/
  runner : ∀ terminal, s.runner ≠ .publishing terminal
  /-- None is about to be acknowledged. -/
  guards : ∀ slot id, ¬ Acknowledging s slot id

/-- Outside the terminal phase nothing is on its way. -/
theorem Coherent.still (h : Coherent s) (hp : ∀ id, s.state.inner.phase ≠ .terminal id) :
    Still s := by
  refine ⟨?_, ?_, ?_⟩
  · cases hv : s.state.terminal.value with
    | none => rfl
    | some terminal => exact absurd (h.signalled terminal hv).1 (hp terminal.id)
  · exact fun terminal hr => hp terminal.id (h.publishing terminal hr).1
  · exact fun slot id ha => hp id (h.acknowledging slot id ha).1

/-- Without a result on its way only the attendance is left to check. -/
theorem Still.coherent (h : Still s)
    (ha : ∀ id, s.state.inner.phase = .terminal id ∨ s.state.inner.phase = .cancelling id true →
      Attended s id) : Coherent s :=
  ⟨fun _ hv => absurd (h.value.symm.trans hv) nofun, fun _ hr => absurd hr (h.runner _),
    fun _ _ hg => absurd hg (h.guards _ _), fun _ _ _ _ hg => absurd hg (h.guards _ _), ha⟩

/-- Who acknowledges after a step on one guard. -/
theorem acknowledging_put {state : LifecycleState ε} {progress : GuardProgress ε}
    (hslot : s.guards[slot]? = some guard) {other : ℕ} {id : LifecycleId}
    (h : Acknowledging (s.put state slot guard progress) other id) :
    (other = slot ∧ guard.id = id ∧ ∃ result, progress = .acknowledging result) ∨
    (other ≠ slot ∧ Acknowledging s other id) := by
  obtain ⟨result, hr⟩ := h
  rw [put_guards hslot] at hr
  split at hr
  next he =>
    cases hr
    exact Or.inl ⟨he, rfl, result, rfl⟩
  next he => exact Or.inr ⟨he, result, hr⟩

/-- A step on one guard leaves the other ones attending. -/
theorem Attended.put {id : LifecycleId} (h : Attended s id) (hslot : s.guards[slot]? = some guard)
    (state : LifecycleState ε) (progress : GuardProgress ε)
    (hstop : guard.id = id → stopping guard.progress = true → stopping progress = true) :
    Attended (s.put state slot guard progress) id := by
  obtain ⟨other, found, hother, hid, hs⟩ := h
  by_cases he : other = slot
  · cases he
    rw [hslot] at hother
    cases hother
    exact ⟨slot, {guard with progress := progress}, by rw [put_guards hslot, if_pos rfl], hid,
      hstop hid hs⟩
  · exact ⟨other, found, by rw [put_guards hslot, if_neg he, hother], hid, hs⟩

/-- A step that moves neither phase nor result, and acknowledges nothing. -/
theorem coherent_put (h : Coherent s) (hslot : s.guards[slot]? = some guard)
    {state : LifecycleState ε} {progress : GuardProgress ε}
    (hphase : state.inner.phase = s.state.inner.phase)
    (hterminal : state.terminal = s.state.terminal)
    (hack : ∀ result, progress ≠ .acknowledging result)
    (hstop : ∀ id, s.state.inner.phase = .terminal id ∨ s.state.inner.phase = .cancelling id true →
      guard.id = id → stopping guard.progress = true → stopping progress = true) :
    Coherent (s.put state slot guard progress) := by
  have hold : ∀ other id, Acknowledging (s.put state slot guard progress) other id →
      Acknowledging s other id := by
    intro other id ha
    rcases acknowledging_put hslot ha with ⟨-, -, result, hr⟩ | ⟨-, ha⟩
    · exact absurd hr (hack result)
    · exact ha
  refine ⟨?_, ?_, ?_, ?_, ?_⟩
  · intro terminal hv
    rw [put_state, hterminal] at hv
    rw [put_state, hphase]
    exact h.signalled terminal hv
  · intro terminal hr
    rw [put_state, hphase, hterminal]
    exact h.publishing terminal hr
  · intro other id ha
    rw [put_state, hphase, hterminal]
    exact h.acknowledging other id (hold other id ha)
  · exact fun first second id other ha hb => h.single first second id other (hold _ _ ha) (hold _ _ hb)
  · intro id hp
    rw [put_state, hphase] at hp
    exact (h.attended id hp).put hslot state progress (hstop id hp)

/-- A guard without a `stop` attends no generation, so it may take any such step. -/
theorem coherent_put_idle (h : Coherent s) (hslot : s.guards[slot]? = some guard)
    (hidle : stopping guard.progress = false) {state : LifecycleState ε}
    {progress : GuardProgress ε} (hphase : state.inner.phase = s.state.inner.phase)
    (hterminal : state.terminal = s.state.terminal)
    (hack : ∀ result, progress ≠ .acknowledging result) :
    Coherent (s.put state slot guard progress) :=
  coherent_put h hslot hphase hterminal hack fun _ _ _ hstop =>
    absurd (hidle.symm.trans hstop) (by simp)

/-- A step on one guard that acknowledges nothing leaves everything still. -/
theorem Still.put (h : Still s) (hslot : s.guards[slot]? = some guard) {state : LifecycleState ε}
    {progress : GuardProgress ε} (hterminal : state.terminal.value = none)
    (hack : ∀ result, progress ≠ .acknowledging result) :
    Still (s.put state slot guard progress) := by
  refine ⟨hterminal, h.runner, fun other id ha => ?_⟩
  rcases acknowledging_put hslot ha with ⟨-, -, result, hr⟩ | ⟨-, ha⟩
  · exact hack result hr
  · exact h.guards other id ha

/-- A call of the runner that leaves the terminal signal alone. -/
theorem Still.of_state (h : Still s) {state : LifecycleState ε}
    (hterminal : state.terminal = s.state.terminal) : Still {s with state := state} := by
  refine ⟨?_, h.runner, h.guards⟩
  rw [hterminal]
  exact h.value

/-- A new guard acknowledges nothing. -/
theorem Still.receive (h : Still s) {state : LifecycleState ε} (id : LifecycleId)
    (hterminal : state.terminal = s.state.terminal) :
    Still ⟨state, .ready, s.guards ++ [⟨id, .held⟩]⟩ := by
  refine ⟨?_, nofun, ?_⟩
  · rw [hterminal]
    exact h.value
  · rintro slot other ⟨result, hr⟩
    rw [List.getElem?_append] at hr
    split at hr
    · exact h.guards slot other ⟨result, hr⟩
    · rw [List.getElem?_singleton] at hr
      split at hr
      · cases hr
      · cases hr

/-- Leaving a phase where no result is on its way, for one where no `stop` is needed. -/
theorem Coherent.calm (h : Still next) (hp : next.state.inner.phase ≠ .idle →
    (∃ id, next.state.inner.phase = .starting id) ∨ (∃ id, next.state.inner.phase = .active id) ∨
      ∃ id, next.state.inner.phase = .cancelling id false) : Coherent next := by
  refine h.coherent fun id hid => ?_
  have hne : next.state.inner.phase ≠ .idle := by
    rcases hid with hid | hid <;> (rw [hid]; nofun)
  rcases hp hne with ⟨other, ho⟩ | ⟨other, ho⟩ | ⟨other, ho⟩ <;>
  · rw [ho] at hid
    rcases hid with hid | hid <;> cases hid

/-- A runner that is ready has nothing to publish. -/
theorem Coherent.ready (h : Coherent s) : Coherent ⟨s.state, .ready, s.guards⟩ :=
  ⟨fun terminal hv => ⟨(h.signalled terminal hv).1, nofun⟩, nofun,
    fun slot id ha => ⟨(h.acknowledging slot id ha).1, (h.acknowledging slot id ha).2.1, nofun⟩,
    h.single, h.attended⟩

/-- The end of a generation is published next when it has a waiter. -/
theorem coherent_unlock (h : Coherent s) {unsolicited : Bool} {id : LifecycleId}
    {result : Except ε Unit} {outcome : Except LifecycleStateError Bool × LifecycleState ε}
    (he : LifecycleRunner.Ending unsolicited id s.state outcome) :
    Coherent (s.unlock ⟨id, result⟩ outcome).1 := by
  cases he with
  | attached hp =>
    have hstill := h.still fun other => by rw [hp]; nofun
    refine ⟨fun terminal hv => absurd (hstill.value.symm.trans hv) nofun, ?_,
      fun slot other ha => absurd ha (hstill.guards slot other),
      fun first _ other _ ha => absurd ha (hstill.guards first other), ?_⟩
    · intro terminal hr
      cases hr
      exact ⟨rfl, hstill.value⟩
    · rintro other (ho | ho)
      · cases ho
        exact h.attended id (Or.inr hp)
      · cases ho
  | detached hp =>
    have hstill := h.still fun other => by rw [hp]; nofun
    exact Coherent.calm (hstill.of_state rfl) fun hne => absurd rfl hne
  | early _ hp =>
    have hstill := h.still fun other => by rcases hp with hp | hp <;> (rw [hp]; nofun)
    exact Coherent.calm (hstill.of_state rfl) fun hne => absurd rfl hne
  | refused => exact h

/-- An activation hands out a guard, or is refused. -/
theorem coherent_activate (h : Coherent s) (id : LifecycleId) :
    Coherent (s.receive (LifecycleRunner.activate id s.state)).1 := by
  rw [LifecycleRunner.activate_eq]
  split
  next hp =>
    have hstill := h.still fun other => by rw [hp]; nofun
    exact Coherent.calm (hstill.receive id rfl) fun _ => Or.inr (Or.inl ⟨id, rfl⟩)
  next => exact h.ready

/-- The first step of a call of the runner keeps the results coherent. -/
theorem coherent_enter (h : Coherent s) (call : RunnerCall ε) : Coherent (s.enter call).1 := by
  cases call with
  | begin =>
    simp only [LifecycleParties.enter, LifecycleRunner.begin]
    split
    · exact h
    next hidle =>
      have hstill := h.still fun other => by simp [not_not.mp hidle]
      exact Coherent.calm (hstill.of_state rfl) fun _ => Or.inl ⟨_, rfl⟩
  | adopt =>
    simp only [LifecycleParties.enter, LifecycleRunner.begin]
    by_cases hidle : s.state.inner.phase = .idle
    · simp only [hidle, ne_eq, not_true_eq_false, if_false]
      have hstill := h.still fun other => by simp [hidle]
      exact Coherent.calm ⟨hstill.value, by simp, hstill.guards⟩ fun _ => Or.inl ⟨_, rfl⟩
    · simp only [hidle, ne_eq, not_false_eq_true, if_true]
      exact h
  | abortStart id =>
    simp only [LifecycleParties.enter, LifecycleRunner.abortStart_eq]
    split
    next hp =>
      have hstill := h.still fun other => by simp [hp]
      exact Coherent.calm (hstill.of_state rfl) fun hne => absurd rfl hne
    next => exact h
  | activate id => exact coherent_activate h id
  | tryTakeCancel => exact ⟨h.signalled, h.publishing, h.acknowledging, h.single, h.attended⟩
  | finish id result => exact coherent_unlock h (LifecycleRunner.lockFinish_ending id s.state)
  | terminate id result =>
    exact coherent_unlock h (LifecycleRunner.lockTerminate_ending id s.state)

/-- So does its second step. -/
theorem coherent_runner (h : Coherent s) : Coherent (s.step .runner).1 := by
  cases hr : s.runner with
  | ready =>
    simp only [LifecycleParties.step, hr]
    exact h
  | adopting id =>
    simp only [LifecycleParties.step, hr]
    exact coherent_activate h id
  | publishing terminal =>
    simp only [LifecycleParties.step, hr]
    have hp := (h.publishing terminal hr).1
    have hnone : ∀ slot id, ¬ Acknowledging s slot id := fun slot id ha =>
      (h.acknowledging slot id ha).2.2 terminal hr
    refine ⟨?_, by simp, fun slot id ha => absurd ha (hnone slot id),
      fun first _ id _ ha => absurd ha (hnone first id), h.attended⟩
    intro other hv
    cases hv
    exact ⟨hp, by simp⟩

/-- A `stop` takes the result of its own generation, or leaves that of another to its owner. -/
theorem coherent_read (h : Coherent s) (hslot : s.guards[slot]? = some guard) :
    Coherent (s.read slot guard).1 := by
  unfold LifecycleParties.read LifecycleGuard.readTerminal
  cases hv : s.state.terminal.value with
  | none =>
    simp only [Signal.tryTake, hv]
    exact coherent_put h hslot rfl rfl (by simp) fun _ _ _ _ => rfl
  | some terminal =>
    obtain ⟨hp, hrunner⟩ := h.signalled terminal hv
    have hnone : ∀ slot id, ¬ Acknowledging s slot id := fun slot id ha =>
      absurd ((h.acknowledging slot id ha).2.1.symm.trans hv) (by simp)
    simp only [Signal.tryTake, hv]
    by_cases hid : terminal.id = guard.id
    · simp only [hid, ne_eq, not_true_eq_false, if_false]
      have hself : ∀ other id, Acknowledging (s.put {s.state with
          terminal := ⟨none, s.state.terminal.written⟩} slot guard
            (.acknowledging terminal.result)) other id → other = slot ∧ guard.id = id := by
        intro other id ha
        rcases acknowledging_put hslot ha with ⟨he, hg, -⟩ | ⟨-, ha⟩
        · exact ⟨he, hg⟩
        · exact absurd ha (hnone other id)
      refine ⟨by simp, fun other hr => absurd hr (hrunner other), ?_, ?_, ?_⟩
      · intro other id ha
        obtain ⟨-, rfl⟩ := hself other id ha
        exact ⟨hid ▸ hp, rfl, hrunner⟩
      · intro first second id other ha hb
        rw [(hself first id ha).1, (hself second other hb).1]
      · intro other hother
        exact (h.attended other hother).put hslot _ _ fun _ _ => rfl
    · simp only [hid, ne_eq, not_false_eq_true, if_true]
      refine Still.coherent ⟨rfl, hrunner, ?_⟩ ?_
      · intro other id ha
        rcases acknowledging_put hslot ha with ⟨-, -, result, hr⟩ | ⟨-, ha⟩
        · cases hr
        · exact hnone other id ha
      · intro other hother
        refine (h.attended other hother).put hslot _ _ fun he _ => ?_
        rw [put_state] at hother
        rcases hother with hother | hother <;> rw [show _ = _ from hp] at hother
        · cases hother
          exact absurd he.symm hid
        · cases hother

/-- A request attends the generation that it cancels. -/
theorem coherent_request (h : Coherent s) (hslot : s.guards[slot]? = some guard)
    (hlive : s.state.inner.phase = .starting guard.id ∨ s.state.inner.phase = .active guard.id)
    (waiterAttached : Bool) :
    Coherent (s.put (s.state.setPhase (.cancelling guard.id waiterAttached)) slot guard
      (.requesting waiterAttached)) := by
  have hstill := h.still fun other => by rcases hlive with hp | hp <;> (rw [hp]; nofun)
  have hput : Still (s.put (s.state.setPhase (.cancelling guard.id waiterAttached)) slot guard
      (.requesting waiterAttached)) := hstill.put hslot hstill.value nofun
  refine hput.coherent ?_
  rintro id (hp | hp)
  · cases hp
  · cases hp
    exact ⟨slot, {guard with progress := .requesting true}, by rw [put_guards hslot, if_pos rfl],
      rfl, rfl⟩

/-- The first step of a poll keeps the results coherent. -/
theorem coherent_poll (h : Coherent s) (hslot : s.guards[slot]? = some guard) :
    Coherent (s.poll slot guard).1 := by
  unfold LifecycleParties.poll
  cases hp : guard.progress with
  | held =>
    have hidle : stopping guard.progress = false := by
      rw [hp]
      rfl
    rcases s.state.lockRequest_cases guard.id true with ⟨hlive, hx⟩ | ⟨-, hx⟩ | ⟨-, hx⟩
    · simp only [hx]
      exact coherent_request h hslot hlive true
    · simp only [hx]
      exact coherent_put_idle h hslot hidle rfl rfl nofun
    · simp only [hx]
      exact coherent_put_idle h hslot hidle rfl rfl nofun
  | waiting => exact coherent_read h hslot
  | _ => exact h

/-- So does each later step of a call on a guard. -/
theorem coherent_resume (h : Coherent s) (hslot : s.guards[slot]? = some guard) :
    Coherent (s.resume slot guard).1 := by
  unfold LifecycleParties.resume
  cases hp : guard.progress with
  | requesting waiterAttached =>
    cases waiterAttached with
    | true => exact coherent_put h hslot rfl rfl nofun fun _ _ _ _ => rfl
    | false =>
      refine coherent_put_idle h hslot ?_ rfl rfl nofun
      rw [hp]
      rfl
  | polling => exact coherent_read h hslot
  | acknowledging result =>
    have hself : Acknowledging s slot guard.id := ⟨result, by rw [hslot, ← hp]⟩
    obtain ⟨hphase, hvalue, hrunner⟩ := h.acknowledging slot guard.id hself
    simp only [LifecycleGuard.acknowledge, LifecycleState.acknowledgeTerminal_eq, hphase, if_true]
    refine Coherent.calm ⟨hvalue, hrunner, ?_⟩ fun hne => absurd rfl hne
    intro other id ha
    rcases acknowledging_put hslot ha with ⟨-, -, _, hr⟩ | ⟨hne, ha⟩
    · cases hr
    · exact hne (h.single other slot id guard.id ha hself)
  | _ => exact h

/-- The drop of a `stop` frees a finished generation whose result is published. -/
theorem coherent_drop (h : Coherent s) (hslot : s.guards[slot]? = some guard)
    (hpublished : Published s (.dropGuard slot)) : Coherent (s.drop slot guard).1 := by
  unfold LifecycleParties.drop
  cases hp : guard.progress with
  | held =>
    have hidle : stopping guard.progress = false := by
      rw [hp]
      rfl
    rcases s.state.lockRequest_cases guard.id false with ⟨hlive, hx⟩ | ⟨-, hx⟩ | ⟨-, hx⟩
    · simp only [hx]
      exact coherent_request h hslot hlive false
    · simp only [hx]
      exact coherent_put_idle h hslot hidle rfl rfl nofun
    · simp only [hx]
      exact coherent_put_idle h hslot hidle rfl rfl nofun
  | waiting =>
    rcases s.state.detachWaiter_cases guard.id with ⟨hc, hx⟩ | ⟨ht, hx⟩ | ⟨hc, ht, hx⟩ <;>
      simp only [hx]
    · have hstill := h.still fun other => by rw [hc]; nofun
      exact Coherent.calm (hstill.put hslot hstill.value nofun) fun _ =>
        Or.inr (Or.inr ⟨guard.id, rfl⟩)
    · have hsome : s.state.terminal.value.isSome = true := by
        simpa [Published, abandonsResult, hslot, hp, ht] using hpublished
      obtain ⟨terminal, hv⟩ := Option.isSome_iff_exists.mp hsome
      refine Coherent.calm ⟨rfl, (h.signalled terminal hv).2, ?_⟩ fun hne => absurd rfl hne
      intro other id ha
      rcases acknowledging_put hslot ha with ⟨-, -, _, hr⟩ | ⟨-, ha⟩
      · cases hr
      · exact absurd ((h.acknowledging other id ha).2.1.symm.trans hv) nofun
    · refine coherent_put h hslot rfl rfl nofun fun id hid he _ => ?_
      cases he
      rcases hid with hid | hid
      · exact absurd hid ht
      · exact absurd hid hc
  | _ => exact h

/-- Every step that drops no `stop` before its result is published keeps the results
coherent. -/
theorem coherent_step (h : Coherent s) {step : LifecycleStep ε} (hp : Published s step) :
    Coherent (s.step step).1 := by
  cases step with
  | call call =>
    simp only [LifecycleParties.step]
    split
    · exact coherent_enter h call
    · exact h
  | runner => exact coherent_runner h
  | pollStop slot =>
    simp only [LifecycleParties.step]
    split
    · exact h
    next hslot => exact coherent_poll h hslot
  | dropGuard slot =>
    simp only [LifecycleParties.step]
    split
    · exact h
    next hslot => exact coherent_drop h hslot hp
  | guard slot =>
    simp only [LifecycleParties.step]
    split
    · exact h
    next hslot => exact coherent_resume h hslot

/-- A quiet generation that waits for a `stop` has one at its await. -/
theorem Coherent.waiting (h : Coherent s) (hq : s.Quiet) {id : LifecycleId}
    (hp : s.state.inner.phase = .terminal id ∨ s.state.inner.phase = .cancelling id true) :
    ∃ slot : ℕ, s.guards[slot]? = some ⟨id, .waiting⟩ := by
  obtain ⟨slot, guard, hslot, rfl, hstop⟩ := h.attended id hp
  refine ⟨slot, ?_⟩
  rw [hslot]
  rcases hq.2 guard (List.mem_of_getElem? hslot) with hw | hw | hw
  · rw [hw] at hstop
    cases hstop
  · rw [← hw]
  · rw [hw] at hstop
    cases hstop

/-- Once that `stop` is dropped, the runner ends the generation and begins the next. -/
theorem owner_releases {id : LifecycleId} (hr : ∀ terminal, s.runner ≠ .publishing terminal)
    (hslot : s.guards[slot]? = some ⟨id, .waiting⟩)
    (hp : s.state.inner.phase = .terminal id ∨ s.state.inner.phase = .cancelling id true)
    (result : Except ε Unit) :
    ∃ fresh, partyMachine.output
      (partyMachine.run s [.runner, .dropGuard slot, .call (.finish id result)])
        (.call .begin) = .begun (.ok fresh) := by
  have hready : partyMachine.next s .runner = ⟨s.state, .ready, s.guards⟩ := by
    rcases s with ⟨state, runner, guards⟩
    cases runner with
    | ready => rfl
    | publishing terminal => exact absurd rfl (hr terminal)
    | adopting other =>
      have hne : state.inner.phase ≠ .starting other := by
        rcases hp with hp | hp <;> (rw [show state.inner.phase = _ from hp]; nofun)
      simp only [partyMachine, Machine.next, LifecycleParties.step, LifecycleRunner.activate_eq]
      rw [if_neg hne]
      rfl
  have hdrop : partyMachine.next ⟨s.state, .ready, s.guards⟩ (.dropGuard slot) =
      (⟨s.state, .ready, s.guards⟩ : LifecycleParties ε).put (s.state.detachWaiter id) slot
        ⟨id, .waiting⟩ .closed := by
    simp [partyMachine, Machine.next, LifecycleParties.step, LifecycleParties.drop, hslot]
  rw [run_cons, hready, run_cons, hdrop, run_cons, run_nil]
  rcases hp with hp | hp
  · rw [LifecycleState.detachWaiter_of_terminal hp]
    exact ⟨_, rfl⟩
  · rw [LifecycleState.detachWaiter_of_cancelling hp]
    simp [partyMachine, Machine.next, Machine.output, LifecycleParties.step,
      LifecycleParties.enter, LifecycleParties.put, LifecycleParties.unlock,
      LifecycleRunner.lockFinish, LifecycleRunner.begin]

/-- An activation answers no poll. -/
theorem receive_answer {id : LifecycleId} {answer : Option (Except (LifecycleStopError ε) Unit)}
    (outcome : Except LifecycleStateError (LifecycleGuard ε) × LifecycleState ε) :
    (s.receive outcome).2 ≠ .polled id answer := by
  rcases outcome with ⟨_ | _, _⟩ <;> nofun

/-- Neither does another call of the runner. -/
theorem enter_answer {id : LifecycleId} {answer : Option (Except (LifecycleStopError ε) Unit)}
    (call : RunnerCall ε) : (s.enter call).2 ≠ .polled id answer := by
  cases call with
  | begin | abortStart | tryTakeCancel => exact fun h => by cases h
  | activate other => exact receive_answer _
  | adopt =>
    simp only [LifecycleParties.enter]
    rcases LifecycleRunner.begin s.state with ⟨_ | _, _⟩ <;> exact fun h => by cases h
  | finish other result =>
    simp only [LifecycleParties.enter]
    rcases LifecycleRunner.lockFinish other s.state with ⟨_ | _ | _, _⟩ <;> exact fun h => by cases h
  | terminate other result =>
    simp only [LifecycleParties.enter]
    rcases LifecycleRunner.lockTerminate other s.state with ⟨_ | _ | _, _⟩ <;> exact fun h => by cases h

/-- A `stop` finds a foreign result only while another generation is finished. -/
theorem stale_read (h : Coherent s) {id : LifecycleId}
    (ho : (s.read slot guard).2 = .polled id (some (.error .stale))) :
    s.state.inner.phase.owner ≠ some id := by
  unfold LifecycleParties.read LifecycleGuard.readTerminal at ho
  cases hv : s.state.terminal.value with
  | none =>
    simp only [Signal.tryTake, hv] at ho
    cases ho
  | some terminal =>
    simp only [Signal.tryTake, hv] at ho
    by_cases hid : terminal.id = guard.id
    · simp only [hid, ne_eq, not_true_eq_false, if_false] at ho
      cases ho
    · simp only [hid, ne_eq, not_false_eq_true, if_true] at ho
      cases ho
      rw [(h.signalled terminal hv).1]
      exact fun he => hid (Option.some.inj he)

/-- A first poll is refused only while its generation does not own the phase. -/
theorem stale_poll (h : Coherent s) {id : LifecycleId}
    (ho : (s.poll slot guard).2 = .polled id (some (.error .stale))) :
    s.state.inner.phase.owner ≠ some id := by
  unfold LifecycleParties.poll at ho
  cases hp : guard.progress with
  | held =>
    simp only [hp] at ho
    rcases s.state.lockRequest_cases guard.id true with ⟨-, hx⟩ | ⟨-, hx⟩ | ⟨hne, hx⟩ <;>
      simp only [hx] at ho <;> cases ho
    exact hne
  | waiting =>
    simp only [hp] at ho
    exact stale_read h ho
  | _ =>
    simp only [hp] at ho
    cases ho

/-- A result is acknowledged while its generation is finished. -/
theorem stale_resume (h : Coherent s) (hslot : s.guards[slot]? = some guard) {id : LifecycleId}
    (ho : (s.resume slot guard).2 = .polled id (some (.error .stale))) :
    s.state.inner.phase.owner ≠ some id := by
  unfold LifecycleParties.resume at ho
  cases hp : guard.progress with
  | requesting waiterAttached => cases waiterAttached <;> simp only [hp] at ho <;> cases ho
  | polling =>
    simp only [hp] at ho
    exact stale_read h ho
  | acknowledging result =>
    have hself : Acknowledging s slot guard.id := ⟨result, by rw [hslot, ← hp]⟩
    have hphase := (h.acknowledging slot guard.id hself).1
    simp only [hp, LifecycleGuard.acknowledge, LifecycleState.acknowledgeTerminal_eq, hphase,
      if_true] at ho
    cases result <;> cases ho
  | _ =>
    simp only [hp] at ho
    cases ho

/-- A drop answers no poll. -/
theorem drop_answer {id : LifecycleId} {answer : Option (Except (LifecycleStopError ε) Unit)} :
    (s.drop slot guard).2 ≠ .polled id answer := by
  unfold LifecycleParties.drop
  cases guard.progress with
  | held => rcases s.state.lockRequest guard.id false with ⟨_ | _ | _, _⟩ <;> nofun
  | _ => nofun

/-- A `stop` resolves stale only when another generation, or none, owns the phase. -/
theorem Coherent.stale (h : Coherent s) {step : LifecycleStep ε} {id : LifecycleId}
    (ho : (s.step step).2 = .polled id (some (.error .stale))) :
    s.state.inner.phase.owner ≠ some id := by
  cases step with
  | call call =>
    simp only [LifecycleParties.step] at ho
    split at ho
    · exact absurd ho (enter_answer call)
    · cases ho
  | runner =>
    simp only [LifecycleParties.step] at ho
    split at ho
    · cases ho
    · exact absurd ho (receive_answer _)
    · cases ho
  | pollStop slot =>
    simp only [LifecycleParties.step] at ho
    split at ho
    · cases ho
    · exact stale_poll h ho
  | dropGuard slot =>
    simp only [LifecycleParties.step] at ho
    split at ho
    · cases ho
    · exact absurd ho drop_answer
  | guard slot =>
    simp only [LifecycleParties.step] at ho
    split at ho
    · cases ho
    next hslot => exact stale_resume h hslot ho

end Steps

/-- Results stay coherent over a run that drops no `stop` before its result is published. -/
theorem run_coherent {steps : List (LifecycleStep ε)}
    (h : partyMachine.Along Published .new steps) : Coherent (partyMachine.run .new steps) := by
  refine along_invariant partyMachine (I := fun _ s => Coherent s) ?_
    (fun _ _ _ hp hs => coherent_step hs hp) h
  have hstill : Still (LifecycleParties.new : LifecycleParties ε) :=
    ⟨rfl, nofun, fun slot id ha => by obtain ⟨_, hr⟩ := ha; cases hr⟩
  exact Coherent.calm hstill fun hne => absurd rfl hne

/-- The lifecycle is never stranded while no `stop` is dropped between the end of its
generation and the publication of the result: a finished generation and an attached
cancellation have a live `stop`, whose drop lets the runner begin again, and a `stop` whose
generation owns the phase does not resolve stale. -/
theorem never_stranded (steps : List (LifecycleStep ε))
    (h : partyMachine.Along Published .new steps) :
    let s := partyMachine.run .new steps
    (s.Quiet → ∀ id,
      s.state.inner.phase = .terminal id ∨ s.state.inner.phase = .cancelling id true →
      ∃ slot : ℕ, s.guards[slot]? = some ⟨id, .waiting⟩ ∧
        ∀ result, ∃ fresh, partyMachine.output
          (partyMachine.run s [.runner, .dropGuard slot, .call (.finish id result)])
            (.call .begin) = .begun (.ok fresh)) ∧
    ∀ step id, partyMachine.output s step = .polled id (some (.error .stale)) →
      s.state.inner.phase.owner ≠ some id := by
  intro s
  have hs : Coherent s := run_coherent h
  refine ⟨fun hq id hp => ?_, fun step id ho => hs.stale ho⟩
  obtain ⟨slot, hslot⟩ := hs.waiting hq hp
  exact ⟨slot, hslot, owner_releases hq.1 hslot hp⟩

/-- A `stop` is dropped after its generation is ended and the result published; that of the next
generation waits for the runner, which has ended it and published its result. -/
def publishedRun : List (LifecycleStep Unit) :=
  [.call .begin, .call (.activate firstId), .pollStop 0, .guard 0, .guard 0,
    .call (.finish firstId (.ok ())), .runner, .dropGuard 0,
    .call .begin, .call (.activate secondId), .pollStop 1, .guard 1, .guard 1,
    .call (.finish secondId (.ok ())), .runner]

/-- The second generation of that run, which is finished, is owned by its `stop`. -/
theorem never_stranded_published :
    partyMachine.Along Published .new publishedRun ∧
    ∃ slot : ℕ, (partyMachine.run .new publishedRun).guards[slot]? = some ⟨secondId, .waiting⟩ := by
  refine ⟨by decide, ?_⟩
  have hready : (partyMachine.run .new publishedRun).runner = .ready := by decide
  have hq : (partyMachine.run .new publishedRun).Quiet :=
    ⟨fun terminal => by rw [hready]; nofun, by decide⟩
  obtain ⟨slot, hslot, -⟩ := (never_stranded publishedRun (by decide)).1 hq secondId (by decide)
  exact ⟨slot, hslot⟩

/-- A `stop` is dropped after its generation is ended and before the result is published;
the next generation is begun, and its `stop` requests the cancellation. -/
def abandonedRun : List (LifecycleStep Unit) :=
  [.call .begin, .call (.activate firstId), .pollStop 0, .guard 0, .guard 0,
    .call (.finish firstId (.ok ())), .dropGuard 0, .runner,
    .call .begin, .call (.activate secondId), .pollStop 1, .guard 1]

/-- The same, with the read. -/
def strandedRun : List (LifecycleStep Unit) := abandonedRun ++ [.guard 1]

/-- The second `stop` reads the result of the first generation: it resolves stale, and its
own generation is left cancelling with nobody to wait for it. -/
theorem abandoned_result_strands :
    (¬ ∀ (steps : List (LifecycleStep Unit)) (id : LifecycleId),
      (partyMachine.run .new steps).Quiet →
      ((partyMachine.run .new steps).state.inner.phase = .terminal id ∨
        (partyMachine.run .new steps).state.inner.phase = .cancelling id true) →
      ∃ slot : ℕ, (partyMachine.run .new steps).guards[slot]? = some ⟨id, .waiting⟩) ∧
    ¬ ∀ (steps : List (LifecycleStep Unit)) (step : LifecycleStep Unit) (id : LifecycleId),
      partyMachine.output (partyMachine.run .new steps) step =
        .polled id (some (.error .stale)) →
      (partyMachine.run .new steps).state.inner.phase.owner ≠ some id := by
  refine ⟨fun h => ?_, fun h => ?_⟩
  · have hready : (partyMachine.run .new strandedRun).runner = .ready := by decide +kernel
    have hclosed : ∀ guard ∈ (partyMachine.run .new strandedRun).guards,
        guard.progress = .closed := by decide +kernel
    have hq : (partyMachine.run .new strandedRun).Quiet := by
      refine ⟨fun terminal => ?_, fun guard hg => Or.inr (Or.inr (hclosed guard hg))⟩
      rw [hready]
      nofun
    obtain ⟨slot, hslot⟩ := h strandedRun secondId hq (by decide +kernel)
    have hprogress : GuardProgress.waiting = GuardProgress.closed :=
      hclosed ⟨secondId, .waiting⟩ (List.mem_of_getElem? hslot)
    cases hprogress
  · have howner : (partyMachine.run .new abandonedRun).state.inner.phase.owner = some secondId := by
      decide +kernel
    exact h abandonedRun (.guard 1) secondId (by decide +kernel) howner

end HisiRfCore.LifecycleStranding
