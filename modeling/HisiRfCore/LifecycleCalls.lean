import HisiRfCore.InputOutputMachine
import HisiRfCore.LifecycleStages

/-!
# Whole calls on a lifecycle

Runner and application call in any order, with any identities; `stop` is cut at its
await. Each call moves at most one generation by one step of its life and leaves the
others alone, so signal, phase and answers agree with the calls so far.
-/

namespace HisiRfCore.LifecycleCalls

open NonZeroCounter LifecycleControl LifecycleStages InputOutputMachine

variable {ε : Type}

/-- The shared state with the guards handed out so far. -/
structure LifecycleSystem (ε : Type) where
  /-- State shared by runner and guards. -/
  state : LifecycleState ε
  /-- Guards in order of activation, the closed ones included. -/
  guards : List (LifecycleGuard ε)

/-- A guard, or a `stop` future at its await. -/
def resting (guard : LifecycleGuard ε) : Bool :=
  match guard.progress with
  | .held | .waiting => true
  | _ => false

namespace LifecycleSystem

/-- Nothing allocated. -/
def new : LifecycleSystem ε := ⟨.new, []⟩

/-- Keep the guard that the runner returned. -/
def receive (s : LifecycleSystem ε) :
    Except LifecycleStateError (LifecycleGuard ε) × LifecycleState ε →
      LifecycleSystem ε × LifecycleAnswer ε
  | (.ok guard, state) => (⟨state, s.guards ++ [guard]⟩, .activated (.ok guard.id))
  | (.error error, state) => ({s with state := state}, .activated (.error error))

/-- One whole call. -/
def step (s : LifecycleSystem ε) : LifecycleCall ε → LifecycleSystem ε × LifecycleAnswer ε
  | .begin =>
    ({s with state := (LifecycleRunner.begin s.state).2}, .begun (LifecycleRunner.begin s.state).1)
  | .adopt => s.receive (LifecycleRunner.adopt s.state)
  | .abortStart id =>
    ({s with state := (LifecycleRunner.abortStart id s.state).2},
      .returned (LifecycleRunner.abortStart id s.state).1)
  | .activate id => s.receive (LifecycleRunner.activate id s.state)
  | .tryTakeCancel =>
    ({s with state := (LifecycleRunner.tryTakeCancel s.state).2},
      .taken (LifecycleRunner.tryTakeCancel s.state).1)
  | .finish id result =>
    ({s with state := (LifecycleRunner.finish id result s.state).2},
      .returned (LifecycleRunner.finish id result s.state).1)
  | .terminate id result =>
    ({s with state := (LifecycleRunner.terminate id result s.state).2},
      .returned (LifecycleRunner.terminate id result s.state).1)
  | .pollStop slot =>
    match s.guards[slot]? with
    | none => (s, .nothing)
    | some guard =>
      if resting guard then
        (⟨(guard.pollStop s.state).2.2, s.guards.set slot (guard.pollStop s.state).2.1⟩,
          .polled guard.id (guard.pollStop s.state).1)
      else (s, .nothing)
  | .dropGuard slot =>
    match s.guards[slot]? with
    | none => (s, .nothing)
    | some guard =>
      if resting guard then
        (⟨guard.drop s.state, s.guards.set slot {guard with progress := .closed}⟩,
          .dropped guard.id)
      else (s, .nothing)

end LifecycleSystem

/-- Runner and application, one whole call at a time. -/
def callMachine : Machine (LifecycleSystem ε) (LifecycleCall ε) (LifecycleAnswer ε) :=
  ⟨LifecycleSystem.step⟩

/-- Position of an identity in the order of allocation. -/
def number (id : LifecycleId) : ℕ := id.raw.val.toNat

/-- The part of the phase that belongs to one generation. -/
def view (phase : LifecyclePhase) (id : LifecycleId) : Option LifecyclePhase :=
  if phase.owner = some id then some phase else none

/-- Phase of the lifecycle while a generation is in the stage. -/
def stagePhase (id : LifecycleId) : Stage ε → Option LifecyclePhase
  | .starting => some (.starting id)
  | .active => some (.active id)
  | .stopping => some (.cancelling id true)
  | .detached => some (.cancelling id false)
  | .finished _ => some (.terminal id)
  | _ => none

/-- Progress of the guard of a generation in the stage. -/
def stageProgress : Stage ε → Option (GuardProgress ε)
  | .active | .invalidated => some .held
  | .stopping | .finished _ => some .waiting
  | .detached | .past => some .closed
  | _ => none

/-- What the system holds of a generation in each stage. -/
structure Holds (s : LifecycleSystem ε) (id : LifecycleId) (stage : Stage ε) : Prop where
  /-- Identities are allocated in order. -/
  allocated : number id ≤ s.state.inner.nextGeneration.toNat ↔ stage ≠ .unborn
  /-- Its part of the phase. -/
  phase : view s.state.inner.phase id = stagePhase id stage
  /-- The published result. -/
  result : ∀ result, stage = .finished result → s.state.terminal.value = some ⟨id, result⟩
  /-- Its guard. -/
  guards : ∀ guard ∈ s.guards, guard.id = id → some guard.progress = stageProgress stage

/-- The system stands where the calls so far have taken each generation. -/
structure Standing (history : LifecycleHistory ε) (s : LifecycleSystem ε) : Prop where
  /-- Generations are counted below the wrap. -/
  counted : s.state.inner.nextGeneration.toNat = (generations history).length
  /-- One guard a generation. -/
  unique : (s.guards.map fun guard => guard.id).Nodup
  /-- A published result belongs to the phase. -/
  signalled : ∀ terminal, s.state.terminal.value = some terminal →
    s.state.inner.phase = .terminal terminal.id
  /-- The calls were legal moves. -/
  lawful : Lawful history
  /-- Each generation is in some stage. -/
  stands : ∀ id, ∃ stage : Stage ε, stage.Told (story history id) ∧ Holds s id stage

/-- A call moves one generation along its life and leaves the others alone. -/
structure Advances (s : LifecycleSystem ε) (entry : LifecycleCall ε × LifecycleAnswer ε)
    (next : LifecycleSystem ε) (id : LifecycleId) : Prop where
  /-- The generation it moves. -/
  moves : ∀ stage, Holds s id stage → ∃ stage', Stage.Moves id stage entry stage' ∧
    Holds next id stage'
  /-- No other one is allocated. -/
  allocated : ∀ other, other ≠ id →
    (number other ≤ next.state.inner.nextGeneration.toNat ↔
      number other ≤ s.state.inner.nextGeneration.toNat)
  /-- No other one has its phase changed. -/
  phase : ∀ other, other ≠ id → view next.state.inner.phase other = view s.state.inner.phase other
  /-- The result of another one stays. -/
  result : ∀ other, other ≠ id → s.state.inner.phase = .terminal other →
    next.state.terminal.value = s.state.terminal.value
  /-- No other guard is touched. -/
  guards : ∀ guard ∈ next.guards, guard.id ≠ id → guard ∈ s.guards

section Steps

variable {s next : LifecycleSystem ε} {history : LifecycleHistory ε} {id : LifecycleId}
  {entry : LifecycleCall ε × LifecycleAnswer ε} {stage : Stage ε}

/-- A phase of the generation is seen whole. -/
theorem view_of_owner {phase : LifecyclePhase} (h : phase.owner = some id) :
    view phase id = some phase := if_pos h

/-- A phase of another one is not seen. -/
theorem view_of_ne {phase : LifecyclePhase} (h : phase.owner ≠ some id) : view phase id = none :=
  if_neg h

/-- What is seen is the phase. -/
theorem eq_of_view {phase seen : LifecyclePhase} (h : view phase id = some seen) :
    phase = seen := by
  unfold view at h
  split at h
  · exact Option.some.inj h
  · cases h

/-- Others are not seen in a phase of the generation, before and after. -/
theorem view_others {before after : LifecyclePhase}
    (hb : before.owner = none ∨ before.owner = some id)
    (ha : after.owner = none ∨ after.owner = some id) (other : LifecycleId) (hne : other ≠ id) :
    view after other = view before other := by
  rw [view_of_ne, view_of_ne]
  · rcases hb with hb | hb <;> simp [hb, hne.symm]
  · rcases ha with ha | ha <;> simp [ha, hne.symm]

/-- Such a call keeps every generation in its stage. -/
theorem Standing.concat (h : Standing history s) (ha : Advances s entry next id)
    (hcounted : next.state.inner.nextGeneration.toNat = (generations (history ++ [entry])).length)
    (hunique : (next.guards.map fun guard => guard.id).Nodup)
    (hsignalled : ∀ terminal, next.state.terminal.value = some terminal →
      next.state.inner.phase = .terminal terminal.id) :
    Standing (history ++ [entry]) next := by
  obtain ⟨stage, htold, hholds⟩ := h.stands id
  obtain ⟨stage', hmoves, hholds'⟩ := ha.moves stage hholds
  have hlawful : ∀ other, concerns entry = some other → ∃ stage next : Stage ε,
      stage.Told (story history other) ∧ Stage.Moves other stage entry next := by
    intro other ho
    rw [hmoves.concerns] at ho
    cases ho
    exact ⟨stage, stage', htold, hmoves⟩
  refine ⟨hcounted, hunique, hsignalled, h.lawful.concat hlawful, fun other => ?_⟩
  by_cases hne : other = id
  · cases hne
    rw [story_concat_of_eq hmoves.concerns]
    exact ⟨stage', htold.concat hmoves, hholds'⟩
  · obtain ⟨stage, htold, hholds⟩ := h.stands other
    have hother : concerns entry ≠ some other := by
      rw [hmoves.concerns]
      exact fun he => hne (Option.some.inj he).symm
    rw [story_concat_of_ne hother]
    refine ⟨stage, htold, ?_, ?_, ?_, ?_⟩
    · rw [ha.allocated other hne]
      exact hholds.allocated
    · rw [ha.phase other hne]
      exact hholds.phase
    · intro result hs
      have hp := hholds.phase
      rw [hs] at hp
      rw [ha.result other hne (eq_of_view hp)]
      exact hholds.result result hs
    · intro guard hg hid
      exact hholds.guards guard (ha.guards guard hg (by rw [hid]; exact hne)) hid

/-- A refused call says nothing of any generation. -/
theorem Standing.silent (h : Standing history s) (hc : concerns entry = none)
    (hg : generations [entry] = []) (hinner : next.state.inner = s.state.inner)
    (hterminal : next.state.terminal = s.state.terminal) (hguards : next.guards = s.guards) :
    Standing (history ++ [entry]) next := by
  refine ⟨?_, ?_, ?_, h.lawful.concat fun id hid => ?_, fun other => ?_⟩
  · rw [hinner, h.counted, generations_concat, hg, List.append_nil]
  · rw [hguards]
    exact h.unique
  · rw [hterminal, hinner]
    exact h.signalled
  · rw [hc] at hid
    cases hid
  · obtain ⟨stage, htold, hholds⟩ := h.stands other
    have hother : concerns entry ≠ some other := by
      rw [hc]
      exact fun he => by cases he
    rw [story_concat_of_ne hother]
    refine ⟨stage, htold, ?_, ?_, ?_, ?_⟩
    · rw [hinner]
      exact hholds.allocated
    · rw [hinner]
      exact hholds.phase
    · rw [hterminal]
      exact hholds.result
    · rw [hguards]
      exact hholds.guards

/-- A call on the generation that owns the phase. -/
theorem Standing.owned (h : Standing history s) (hgen : generations [entry] = [])
    (hnext : next.state.inner.nextGeneration = s.state.inner.nextGeneration)
    (hb : s.state.inner.phase.owner = some id)
    (ha : next.state.inner.phase.owner = none ∨ next.state.inner.phase.owner = some id)
    (hids : (next.guards.map fun guard => guard.id).Nodup)
    (hguards : ∀ guard ∈ next.guards, guard.id ≠ id → guard ∈ s.guards)
    (hsignalled : ∀ terminal, next.state.terminal.value = some terminal →
      next.state.inner.phase = .terminal terminal.id)
    (hmoves : ∀ stage, Holds s id stage → ∃ stage', Stage.Moves id stage entry stage' ∧
      Holds next id stage') : Standing (history ++ [entry]) next := by
  refine h.concat ⟨hmoves, ?_, view_others (Or.inr hb) ha, ?_, hguards⟩ ?_ hids hsignalled
  · intro other _
    rw [hnext]
  · intro other hne hp
    rw [hp] at hb
    exact absurd (Option.some.inj hb) hne
  · rw [hnext, h.counted, generations_concat, hgen, List.append_nil]

/-- A runner's call moves the phase of the generation and leaves the guards alone. -/
theorem Holds.advance {stage' : Stage ε} (h : Holds s id stage)
    (hnext : next.state.inner.nextGeneration = s.state.inner.nextGeneration)
    (hguards : next.guards = s.guards) (hborn : stage ≠ .unborn) (hborn' : stage' ≠ .unborn)
    (hphase : view next.state.inner.phase id = stagePhase id stage')
    (hresult : ∀ result, stage' = .finished result →
      next.state.terminal.value = some ⟨id, result⟩)
    (hprogress : stageProgress stage = none ∨ stageProgress stage = stageProgress stage') :
    Holds next id stage' := by
  refine ⟨?_, hphase, hresult, ?_⟩
  · rw [hnext, h.allocated]
    exact iff_of_true hborn hborn'
  · rw [hguards]
    intro guard hg hid
    have hp := h.guards guard hg hid
    rcases hprogress with hn | he
    · rw [hn] at hp
      cases hp
    · rw [hp, he]

/-- Replacing the guard in a slot leaves the guards of other generations alone. -/
theorem guards_set {guards : List (LifecycleGuard ε)} {slot : ℕ} {guard : LifecycleGuard ε}
    (hunique : (guards.map fun guard => guard.id).Nodup) (hslot : guards[slot]? = some guard)
    (progress : GuardProgress ε) :
    ((guards.set slot {guard with progress := progress}).map fun guard => guard.id).Nodup ∧
    (∀ other ∈ guards.set slot {guard with progress := progress}, other.id ≠ guard.id →
      other ∈ guards) ∧
    ∀ other ∈ guards.set slot {guard with progress := progress}, other.id = guard.id →
      other.progress = progress := by
  obtain ⟨hlt, hget⟩ := List.getElem?_eq_some_iff.mp hslot
  have hids : ((guards.set slot {guard with progress := progress}).map fun guard => guard.id) =
      guards.map fun guard => guard.id := by
    have hlen : slot < (guards.map fun guard => guard.id).length := by
      rw [List.length_map]
      exact hlt
    have hid : (guards.map fun guard => guard.id)[slot] = guard.id := by
      rw [List.getElem_map, hget]
    rw [List.map_set]
    show (guards.map fun guard => guard.id).set slot guard.id = _
    rw [← hid]
    exact List.set_getElem_self hlen
  refine ⟨by rw [hids]; exact hunique, ?_, ?_⟩
  · intro other hmem hne
    rcases List.mem_or_eq_of_mem_set hmem with hold | heq
    · exact hold
    · exact absurd (by rw [heq]) hne
  · intro other hmem hid
    obtain ⟨i, hi⟩ := List.getElem?_of_mem hmem
    rw [List.getElem?_set] at hi
    split at hi
    next he =>
      cases hi
      rfl
    next hne =>
      refine absurd ?_ hne
      have hlen : slot < (guards.map fun guard => guard.id).length := by
        rw [List.length_map]
        exact hlt
      refine (List.getElem?_inj hlen hunique).mp ?_
      rw [List.getElem?_map, List.getElem?_map, hslot, hi]
      exact congrArg some hid.symm

/-- A fresh identity comes after every allocated one. -/
theorem number_freshId {state : LifecycleState ε}
    (hb : state.inner.nextGeneration.toNat + 1 < 2 ^ 32) :
    number (LifecycleRunner.freshId state) = state.inner.nextGeneration.toNat + 1 :=
  advance_toNat hb

/-- The order of allocation tells identities apart. -/
theorem number_injective : Function.Injective number := by
  intro _ _ h
  exact LifecycleId.ext (Subtype.ext (UInt32.toNat_inj.mp h))

/-- An identity past the last allocated one is unborn. -/
theorem Holds.unborn_of_fresh (h : Holds s id stage)
    (hn : number id = s.state.inner.nextGeneration.toNat + 1) : stage = .unborn := by
  by_contra hne
  have hle := h.allocated.mpr hne
  omega

/-- Beginning or adopting moves the fresh generation alone. -/
theorem advances_fresh {stage' : Stage ε} {guards : List (LifecycleGuard ε)}
    {phase : LifecyclePhase}
    (hn : number id = s.state.inner.nextGeneration.toNat + 1)
    (hadvance : (advance s.state.inner.nextGeneration).toNat =
      s.state.inner.nextGeneration.toNat + 1)
    (hidle : s.state.inner.phase = .idle) (hm : Stage.Moves id .unborn entry stage')
    (howner : phase.owner = some id) (hphase : stagePhase id stage' = some phase)
    (hguards : ∀ guard ∈ guards, guard.id = id ∧ some guard.progress = stageProgress stage') :
    Advances s entry
      ⟨{s.state with inner := ⟨advance s.state.inner.nextGeneration, phase⟩},
        s.guards ++ guards⟩ id := by
  refine ⟨?_, ?_, ?_, ?_, ?_⟩
  · intro stage hholds
    cases hholds.unborn_of_fresh hn
    refine ⟨stage', hm, ?_, ?_, ?_, ?_⟩
    · refine iff_of_true ?_ ?_
      · rw [hadvance, hn]
      · rintro rfl
        cases hphase
    · rw [hphase]
      exact view_of_owner howner
    · rintro result rfl
      cases hm
    · intro guard hg he
      rcases List.mem_append.mp hg with hg | hg
      · cases hholds.guards guard hg he
      · exact (hguards guard hg).2
  · intro other hne
    have hother := number_injective.ne hne
    rw [hadvance]
    omega
  · exact view_others (Or.inl (by rw [hidle]; rfl)) (Or.inr howner)
  · exact fun _ _ _ => rfl
  · intro guard hg hne
    rcases List.mem_append.mp hg with hg | hg
    · exact hg
    · exact absurd (hguards guard hg).1 hne

/-- Beginning and adopting a generation keep the correspondence. -/
theorem standing_fresh (h : Standing history s) (guards : List (LifecycleGuard ε))
    {stage' : Stage ε} {phase : LifecyclePhase}
    (hb : s.state.inner.nextGeneration.toNat + 1 < 2 ^ 32)
    (hidle : s.state.inner.phase = .idle) (hid : id = LifecycleRunner.freshId s.state)
    (hm : Stage.Moves id .unborn entry stage') (hgen : generations [entry] = [id])
    (howner : phase.owner = some id) (hphase : stagePhase id stage' = some phase)
    (hguards : ∀ guard ∈ guards, guard.id = id ∧ some guard.progress = stageProgress stage')
    (hnodup : (guards.map fun guard => guard.id).Nodup) :
    Standing (history ++ [entry])
      ⟨{s.state with inner := ⟨advance s.state.inner.nextGeneration, phase⟩},
        s.guards ++ guards⟩ := by
  have hnumber : number id = s.state.inner.nextGeneration.toNat + 1 := by
    rw [hid]
    exact number_freshId hb
  refine h.concat (advances_fresh hnumber (advance_toNat hb) hidle hm howner hphase hguards)
    ?_ ?_ ?_
  · rw [generations_concat, hgen, List.length_append, ← h.counted]
    exact advance_toNat hb
  · rw [List.map_append, List.nodup_append]
    refine ⟨h.unique, hnodup, ?_⟩
    intro a ha b hb' he
    obtain ⟨guard, hg, rfl⟩ := List.mem_map.mp ha
    obtain ⟨new, hnew, rfl⟩ := List.mem_map.mp hb'
    obtain ⟨stage, -, hholds⟩ := h.stands id
    have hp := hholds.guards guard hg (he.trans (hguards new hnew).1)
    rw [hholds.unborn_of_fresh hnumber] at hp
    cases hp
  · intro terminal ht
    have hp := h.signalled terminal ht
    rw [hidle] at hp
    cases hp

/-- A start request keeps the correspondence. -/
theorem standing_begin (h : Standing history s)
    (hb : s.state.inner.nextGeneration.toNat + 1 < 2 ^ 32) :
    Standing (history ++ [(.begin, (s.step .begin).2)]) (s.step .begin).1 := by
  by_cases hidle : s.state.inner.phase = .idle
  · simp only [LifecycleSystem.step, LifecycleRunner.begin, hidle, ne_eq, not_true_eq_false,
      if_false]
    have hfresh := standing_fresh h [] hb hidle rfl .begin rfl rfl rfl
      (fun _ hg => by cases hg) List.nodup_nil
    rwa [List.append_nil] at hfresh
  · simp only [LifecycleSystem.step, LifecycleRunner.begin, ne_eq, hidle, not_false_eq_true,
      if_true]
    exact h.silent rfl rfl rfl rfl rfl

/-- So does an adoption. -/
theorem standing_adopt (h : Standing history s)
    (hb : s.state.inner.nextGeneration.toNat + 1 < 2 ^ 32) :
    Standing (history ++ [(.adopt, (s.step .adopt).2)]) (s.step .adopt).1 := by
  simp only [LifecycleSystem.step, LifecycleRunner.adopt_eq]
  by_cases hidle : s.state.inner.phase = .idle
  · simp only [hidle, if_true, LifecycleSystem.receive]
    refine standing_fresh h _ hb hidle rfl .adopt rfl rfl rfl ?_ (List.nodup_singleton _)
    intro guard hg
    cases List.mem_singleton.mp hg
    exact ⟨rfl, rfl⟩
  · simp only [hidle, if_false, LifecycleSystem.receive]
    exact h.silent rfl rfl rfl rfl rfl

/-- Stage of a generation that owns the phase. -/
theorem Holds.stagePhase_eq (h : Holds s id stage) {phase : LifecyclePhase}
    (hp : s.state.inner.phase = phase) (ho : phase.owner = some id) :
    stagePhase id stage = some phase := by
  rw [← h.phase, hp]
  exact view_of_owner ho

/-- Aborting a start keeps the correspondence. -/
theorem standing_abortStart (h : Standing history s) (id : LifecycleId) :
    Standing (history ++ [(.abortStart id, (s.step (.abortStart id)).2)])
      (s.step (.abortStart id)).1 := by
  simp only [LifecycleSystem.step, LifecycleRunner.abortStart_eq]
  by_cases hp : s.state.inner.phase = .starting id
  · simp only [hp, if_true]
    refine h.owned rfl rfl (by rw [hp]; rfl) (Or.inl rfl) h.unique (fun _ hg _ => hg) ?_ ?_
    · intro terminal ht
      rw [h.signalled terminal ht] at hp
      cases hp
    · intro stage hholds
      have hs := hholds.stagePhase_eq hp rfl
      cases stage <;> cases hs
      exact ⟨.past, .abort, hholds.advance rfl rfl nofun nofun rfl
        (fun _ => nofun) (Or.inl rfl)⟩
  · simp only [hp, if_false]
    exact h.silent rfl rfl rfl rfl rfl

/-- Activation keeps the correspondence. -/
theorem standing_activate (h : Standing history s) (id : LifecycleId) :
    Standing (history ++ [(.activate id, (s.step (.activate id)).2)])
      (s.step (.activate id)).1 := by
  simp only [LifecycleSystem.step, LifecycleRunner.activate_eq]
  by_cases hp : s.state.inner.phase = .starting id
  · simp only [hp, if_true, LifecycleSystem.receive]
    have hnone : ∀ guard ∈ s.guards, guard.id ≠ id := by
      intro guard hg he
      obtain ⟨stage, -, hholds⟩ := h.stands id
      have hs := hholds.stagePhase_eq hp rfl
      cases stage <;> cases hs
      cases hholds.guards guard hg he
    refine h.owned rfl rfl (by rw [hp]; rfl) (Or.inr rfl) ?_ ?_ ?_ ?_
    · rw [List.map_append, List.nodup_append]
      refine ⟨h.unique, List.nodup_singleton _, ?_⟩
      intro a ha b hb he
      obtain ⟨guard, hg, rfl⟩ := List.mem_map.mp ha
      rw [List.map_singleton, List.mem_singleton] at hb
      exact hnone guard hg (he.trans hb)
    · intro guard hg hne
      rcases List.mem_append.mp hg with hg | hg
      · exact hg
      · cases List.mem_singleton.mp hg
        exact absurd rfl hne
    · intro terminal ht
      rw [h.signalled terminal ht] at hp
      cases hp
    · intro stage hholds
      have hs := hholds.stagePhase_eq hp rfl
      cases stage <;> cases hs
      refine ⟨.active, .activate, iff_of_true (hholds.allocated.mpr nofun)
        nofun, view_of_owner rfl, fun _ => nofun, ?_⟩
      · intro guard hg he
        rcases List.mem_append.mp hg with hg | hg
        · exact absurd he (hnone guard hg)
        · cases List.mem_singleton.mp hg
          rfl
  · simp only [hp, if_false, LifecycleSystem.receive]
    exact h.silent rfl rfl rfl rfl rfl

/-- Taking a request concerns no generation. -/
theorem standing_tryTakeCancel (h : Standing history s) :
    Standing (history ++ [(.tryTakeCancel, (s.step .tryTakeCancel).2)])
      (s.step .tryTakeCancel).1 :=
  h.silent rfl rfl rfl rfl rfl

/-- Ending a generation keeps the correspondence, by either call of the runner. -/
theorem standing_ending (h : Standing history s) {unsolicited : Bool} {result : Except ε Unit}
    {outcome : Except LifecycleStateError Bool × LifecycleState ε} {call : LifecycleCall ε}
    (he : LifecycleRunner.Ending unsolicited id s.state outcome)
    (hcall : call = .terminate id result ∨ unsolicited = false ∧ call = .finish id result) :
    Standing
      (history ++ [(call, .returned (LifecycleRunner.publishTerminal id result outcome).1)])
      {s with state := (LifecycleRunner.publishTerminal id result outcome).2} := by
  have hgen : ∀ answer, generations [(call, .returned answer)] = [] := by
    rcases hcall with rfl | ⟨-, rfl⟩ <;> exact fun _ => rfl
  have hunpublished : s.state.inner.phase ≠ .terminal id → ∀ phase,
      s.state.inner.phase.owner = some id → ∀ terminal, s.state.terminal.value = some terminal →
        phase = LifecyclePhase.terminal terminal.id := by
    intro hne _ ho terminal ht
    have hp := h.signalled terminal ht
    rw [hp] at ho
    cases ho
    exact absurd hp hne
  cases he with
  | attached hp =>
    refine h.owned (hgen _) rfl (by rw [hp]; rfl) (Or.inr rfl) h.unique (fun _ hg _ => hg) ?_ ?_
    · intro terminal ht
      cases ht
      rfl
    · intro stage hholds
      have hs := hholds.stagePhase_eq hp rfl
      cases stage <;> cases hs
      have hm : Stage.Moves id .stopping (call, .returned (.ok ())) (.finished result) := by
        rcases hcall with rfl | ⟨-, rfl⟩
        · exact .terminate result
        · exact .finish result
      refine ⟨.finished result, hm, hholds.advance rfl rfl nofun nofun (view_of_owner rfl) ?_
        (Or.inr rfl)⟩
      intro other ho
      cases ho
      rfl
  | detached hp =>
    refine h.owned (hgen _) rfl (by rw [hp]; rfl) (Or.inl rfl) h.unique (fun _ hg _ => hg)
      (hunpublished (by rw [hp]; nofun) _ (by rw [hp]; rfl)) ?_
    intro stage hholds
    have hs := hholds.stagePhase_eq hp rfl
    cases stage <;> cases hs
    have hm : Stage.Moves id .detached (call, .returned (.ok ())) .past := by
      rcases hcall with rfl | ⟨-, rfl⟩
      · exact .terminateDetached result
      · exact .finishDetached result
    exact ⟨.past, hm, hholds.advance rfl rfl nofun nofun rfl (fun _ => nofun) (Or.inr rfl)⟩
  | early hu hp =>
    have hterminate : call = .terminate id result := by
      rcases hcall with hc | ⟨hf, -⟩
      · exact hc
      · rw [hf] at hu
        cases hu
    cases hterminate
    have ho : s.state.inner.phase.owner = some id := by
      rcases hp with hp | hp <;> (rw [hp]; rfl)
    refine h.owned (hgen _) rfl ho (Or.inl rfl) h.unique (fun _ hg _ => hg)
      (hunpublished (by rcases hp with hp | hp <;> (rw [hp]; nofun)) _ ho) ?_
    intro stage hholds
    rcases hp with hp | hp
    · have hs := hholds.stagePhase_eq hp rfl
      cases stage <;> cases hs
      exact ⟨.past, .terminateStarting result,
        hholds.advance rfl rfl nofun nofun rfl (fun _ => nofun) (Or.inl rfl)⟩
    · have hs := hholds.stagePhase_eq hp rfl
      cases stage <;> cases hs
      exact ⟨.invalidated, .terminateActive result,
        hholds.advance rfl rfl nofun nofun rfl (fun _ => nofun) (Or.inr rfl)⟩
  | refused =>
    refine h.silent ?_ (hgen _) rfl rfl rfl
    rcases hcall with rfl | ⟨-, rfl⟩ <;> rfl

/-- A generation with a guard is in one stage. -/
theorem Holds.unique {guard : LifecycleGuard ε} {next : Stage ε} (hmem : guard ∈ s.guards)
    (ha : Holds s guard.id stage) (hb : Holds s guard.id next) : stage = next := by
  have hprogress := (ha.guards guard hmem rfl).symm.trans (hb.guards guard hmem rfl)
  have hphase := ha.phase.symm.trans hb.phase
  cases stage <;> cases next <;>
    try first | rfl | (cases hphase; done) | (cases hprogress; done)
  next a b =>
    -- two results of one generation are both in the signal
    have hvalue := (ha.result a rfl).symm.trans (hb.result b rfl)
    cases hvalue
    rfl

/-- Stage of the generation whose guard is in a slot. -/
theorem Standing.stage_of_guard (h : Standing history s) {slot : ℕ} {guard : LifecycleGuard ε}
    (hslot : s.guards[slot]? = some guard) :
    ∃ stage, Holds s guard.id stage ∧ some guard.progress = stageProgress stage := by
  obtain ⟨stage, -, hholds⟩ := h.stands guard.id
  exact ⟨stage, hholds, hholds.guards guard (List.mem_of_getElem? hslot) rfl⟩

/-- A call on a guard that leaves it in its slot with some progress. -/
theorem standing_guard (h : Standing history s) {slot : ℕ} {guard : LifecycleGuard ε}
    (hslot : s.guards[slot]? = some guard) (progress : GuardProgress ε) {state : LifecycleState ε}
    (hgen : generations [entry] = [])
    (hnext : state.inner.nextGeneration = s.state.inner.nextGeneration)
    (hphase : ∀ other, other ≠ guard.id →
      view state.inner.phase other = view s.state.inner.phase other)
    (hresult : ∀ other, other ≠ guard.id → s.state.inner.phase = .terminal other →
      state.terminal.value = s.state.terminal.value)
    (hsignalled : ∀ terminal, state.terminal.value = some terminal →
      state.inner.phase = .terminal terminal.id)
    {next : Stage ε} (hholds : Holds s guard.id stage)
    (hm : Stage.Moves guard.id stage entry next)
    (hview : view state.inner.phase guard.id = stagePhase guard.id next)
    (hvalue : ∀ result, next = .finished result → state.terminal.value = some ⟨guard.id, result⟩)
    (hprogress : stageProgress next = some progress) :
    Standing (history ++ [entry])
      ⟨state, s.guards.set slot {guard with progress := progress}⟩ := by
  obtain ⟨hids, hothers, hown⟩ := guards_set h.unique hslot progress
  have hmem := List.mem_of_getElem? hslot
  refine h.concat ⟨?_, ?_, hphase, hresult, hothers⟩ ?_ hids hsignalled
  · intro other hother
    cases hother.unique hmem hholds
    have hp := hholds.guards guard hmem rfl
    refine ⟨next, hm, ?_, hview, hvalue, ?_⟩
    · rw [hnext, hholds.allocated]
      refine iff_of_true ?_ ?_
      · rintro rfl
        cases hp
      · rintro rfl
        cases hprogress
    · intro other hg hid
      rw [hown other hg hid, hprogress]
  · intro other _
    rw [hnext]
  · rw [hnext, h.counted, generations_concat, hgen, List.append_nil]

/-- No result is published outside the terminal phase. -/
theorem Standing.value_none (h : Standing history s)
    (hp : ∀ id, s.state.inner.phase ≠ .terminal id) : s.state.terminal.value = none := by
  cases hv : s.state.terminal.value with
  | none => rfl
  | some terminal => exact absurd (h.signalled terminal hv) (hp terminal.id)

/-- A generation is not seen when another one, or none, owns the phase. -/
theorem ne_of_view {phase : LifecyclePhase} (h : view phase id = none) :
    phase.owner ≠ some id := by
  intro ho
  rw [view_of_owner ho] at h
  cases h

/-- The first poll of a `stop` keeps the correspondence. -/
theorem standing_stop (h : Standing history s) {slot : ℕ} {guard : LifecycleGuard ε}
    (hslot : s.guards[slot]? = some guard) (hheld : guard.progress = .held) :
    Standing (history ++ [(.pollStop slot, (s.step (.pollStop slot)).2)])
      (s.step (.pollStop slot)).1 := by
  obtain ⟨stage, hholds, hp⟩ := h.stage_of_guard hslot
  rw [hheld] at hp
  simp only [LifecycleSystem.step, hslot, resting, hheld, if_true, LifecycleGuard.pollStop]
  cases stage <;> cases hp
  case active =>
    have hphase := eq_of_view hholds.phase
    have hvalue := h.value_none (fun id => by rw [hphase]; nofun)
    have hrequested : ((s.state.setPhase (.cancelling guard.id true)).signalCancel
        guard.id).terminal.value = none := hvalue
    rw [LifecycleState.requestCancel_of_active true hphase]
    dsimp only
    rw [LifecycleGuard.awaitTerminal_of_none hrequested]
    refine standing_guard h hslot .waiting rfl rfl (view_others ?_ (Or.inr rfl))
      (fun _ _ _ => rfl) ?_ hholds (.stop slot) (view_of_owner rfl) (fun _ => nofun) rfl
    · exact Or.inr (by rw [hphase]; rfl)
    · exact fun terminal ht => absurd (hvalue.symm.trans ht) nofun
  case invalidated =>
    have hne := ne_of_view hholds.phase
    rw [LifecycleState.requestCancel_of_ne true hne]
    exact standing_guard h hslot .closed rfl rfl (fun _ _ => rfl) (fun _ _ _ => rfl) h.signalled
      hholds (.stale slot) (view_of_ne hne) (fun _ => nofun) rfl

/-- So does a later one. -/
theorem standing_wait (h : Standing history s) {slot : ℕ} {guard : LifecycleGuard ε}
    (hslot : s.guards[slot]? = some guard) (hwaiting : guard.progress = .waiting) :
    Standing (history ++ [(.pollStop slot, (s.step (.pollStop slot)).2)])
      (s.step (.pollStop slot)).1 := by
  obtain ⟨stage, hholds, hp⟩ := h.stage_of_guard hslot
  rw [hwaiting] at hp
  simp only [LifecycleSystem.step, hslot, resting, hwaiting, if_true, LifecycleGuard.pollStop]
  cases stage <;> cases hp
  case stopping =>
    have hphase := eq_of_view hholds.phase
    have hvalue := h.value_none (fun id => by rw [hphase]; nofun)
    rw [LifecycleGuard.awaitTerminal_of_none hvalue]
    exact standing_guard h hslot .waiting rfl rfl (fun _ _ => rfl) (fun _ _ _ => rfl) h.signalled
      hholds (.wait slot) hholds.phase (fun _ => nofun) rfl
  case finished result =>
    have hphase := eq_of_view hholds.phase
    have hvalue := hholds.result result rfl
    rw [LifecycleGuard.awaitTerminal_of_matching hvalue hphase]
    refine standing_guard h hslot .closed rfl rfl (view_others ?_ (Or.inl rfl)) ?_ nofun
      hholds (.deliver slot result) rfl (fun _ => nofun) rfl
    · exact Or.inr (by rw [hphase]; rfl)
    · intro other hne hp
      rw [hphase] at hp
      cases hp
      exact absurd rfl hne

/-- The drop of a guard keeps the correspondence. -/
theorem standing_drop (h : Standing history s) {slot : ℕ} {guard : LifecycleGuard ε}
    (hslot : s.guards[slot]? = some guard) (hheld : guard.progress = .held) :
    Standing (history ++ [(.dropGuard slot, (s.step (.dropGuard slot)).2)])
      (s.step (.dropGuard slot)).1 := by
  obtain ⟨stage, hholds, hp⟩ := h.stage_of_guard hslot
  rw [hheld] at hp
  simp only [LifecycleSystem.step, hslot, resting, hheld, if_true,
    LifecycleGuard.drop_of_held hheld]
  cases stage <;> cases hp
  case active =>
    have hphase := eq_of_view hholds.phase
    have hvalue := h.value_none (fun id => by rw [hphase]; nofun)
    rw [LifecycleState.requestCancel_of_active false hphase]
    refine standing_guard h hslot .closed rfl rfl (view_others ?_ (Or.inr rfl))
      (fun _ _ _ => rfl) ?_ hholds (.drop slot) (view_of_owner rfl) (fun _ => nofun) rfl
    · exact Or.inr (by rw [hphase]; rfl)
    · exact fun terminal ht => absurd (hvalue.symm.trans ht) nofun
  case invalidated =>
    have hne := ne_of_view hholds.phase
    rw [LifecycleState.requestCancel_of_ne false hne]
    exact standing_guard h hslot .closed rfl rfl (fun _ _ => rfl) (fun _ _ _ => rfl) h.signalled
      hholds (.dropInvalidated slot) (view_of_ne hne) (fun _ => nofun) rfl

/-- So does the drop of a waiting `stop`. -/
theorem standing_detach (h : Standing history s) {slot : ℕ} {guard : LifecycleGuard ε}
    (hslot : s.guards[slot]? = some guard) (hwaiting : guard.progress = .waiting) :
    Standing (history ++ [(.dropGuard slot, (s.step (.dropGuard slot)).2)])
      (s.step (.dropGuard slot)).1 := by
  obtain ⟨stage, hholds, hp⟩ := h.stage_of_guard hslot
  rw [hwaiting] at hp
  simp only [LifecycleSystem.step, hslot, resting, hwaiting, if_true,
    LifecycleGuard.drop_of_waiting hwaiting]
  cases stage <;> cases hp
  case stopping =>
    have hphase := eq_of_view hholds.phase
    have hvalue := h.value_none (fun id => by rw [hphase]; nofun)
    rw [LifecycleState.detachWaiter_of_cancelling hphase]
    refine standing_guard h hslot .closed rfl rfl (view_others ?_ (Or.inr rfl))
      (fun _ _ _ => rfl) ?_ hholds (.detach slot) (view_of_owner rfl) (fun _ => nofun) rfl
    · exact Or.inr (by rw [hphase]; rfl)
    · exact fun terminal ht => absurd (hvalue.symm.trans ht) nofun
  case finished result =>
    have hphase := eq_of_view hholds.phase
    rw [LifecycleState.detachWaiter_of_terminal hphase]
    refine standing_guard h hslot .closed rfl rfl (view_others ?_ (Or.inl rfl)) ?_ nofun
      hholds (.discard slot result) rfl (fun _ => nofun) rfl
    · exact Or.inr (by rw [hphase]; rfl)
    · intro other hne hp
      rw [hphase] at hp
      cases hp
      exact absurd rfl hne

/-- Every call keeps the correspondence. -/
theorem standing_step (h : Standing history s)
    (hb : s.state.inner.nextGeneration.toNat + 1 < 2 ^ 32) (call : LifecycleCall ε) :
    Standing (history ++ [(call, (s.step call).2)]) (s.step call).1 := by
  cases call with
  | begin => exact standing_begin h hb
  | adopt => exact standing_adopt h hb
  | abortStart id => exact standing_abortStart h id
  | activate id => exact standing_activate h id
  | tryTakeCancel => exact standing_tryTakeCancel h
  | finish id result =>
    exact standing_ending h (LifecycleRunner.lockFinish_ending id s.state) (Or.inr ⟨rfl, rfl⟩)
  | terminate id result =>
    exact standing_ending h (LifecycleRunner.lockTerminate_ending id s.state) (Or.inl rfl)
  | pollStop slot =>
    cases hslot : s.guards[slot]? with
    | none =>
      simp only [LifecycleSystem.step, hslot]
      exact h.silent rfl rfl rfl rfl rfl
    | some guard =>
      cases hp : guard.progress with
      | held => exact standing_stop h hslot hp
      | waiting => exact standing_wait h hslot hp
      | _ =>
        simp only [LifecycleSystem.step, hslot, resting, hp, Bool.false_eq_true, if_false]
        exact h.silent rfl rfl rfl rfl rfl
  | dropGuard slot =>
    cases hslot : s.guards[slot]? with
    | none =>
      simp only [LifecycleSystem.step, hslot]
      exact h.silent rfl rfl rfl rfl rfl
    | some guard =>
      cases hp : guard.progress with
      | held => exact standing_drop h hslot hp
      | waiting => exact standing_detach h hslot hp
      | _ =>
        simp only [LifecycleSystem.step, hslot, resting, hp, Bool.false_eq_true, if_false]
        exact h.silent rfl rfl rfl rfl rfl

end Steps

/-- Before the first call every generation is unborn. -/
theorem standing_new : Standing ([] : LifecycleHistory ε) .new := by
  refine ⟨rfl, List.nodup_nil, nofun, fun before _ _ h => ?_, fun id => ?_⟩
  · exact absurd h.symm (List.append_ne_nil_of_right_ne_nil before (List.cons_ne_nil _ _))
  · refine ⟨.unborn, ⟨rfl, rfl, rfl, rfl⟩, ?_, rfl, fun _ => nofun, nofun⟩
    refine iff_of_false ?_ (fun h => h rfl)
    intro hle
    exact id.raw.property (UInt32.toNat_inj.mp (Nat.le_zero.mp hle))

/-- The correspondence holds after every run below the wrap. -/
theorem run_standing (calls : List (LifecycleCall ε))
    (hb : (generations (callMachine.transcript .new calls)).length < 2 ^ 32 - 1) :
    Standing (callMachine.transcript .new calls) (callMachine.run .new calls) := by
  refine transcript_invariant callMachine
    (G := fun history => (generations history).length < 2 ^ 32 - 1) standing_new ?_ ?_ calls hb
  · intro history entry hg
    rw [generations_concat, List.length_append] at hg
    omega
  · intro history s call hg h
    rw [generations_concat, List.length_append] at hg
    refine standing_step h ?_ call
    rw [h.counted]
    omega

/-- Signal, phase, answers and activity agree with the calls, whatever their order: the
terminal signal holds the result that ended the generation of the terminal phase; a `stop`
resolves with that result, or stale when its generation was terminated before its first
poll; no result is delivered twice; and a generation is active from its activation to its
release. -/
theorem outcomes_agree (calls : List (LifecycleCall ε))
    (hb : (generations (callMachine.transcript .new calls)).length < 2 ^ 32 - 1) :
    let history := callMachine.transcript .new calls
    let s := callMachine.run .new calls
    (∀ id, s.state.inner.phase = .terminal id ↔
      ∃ result, s.state.terminal.value = some ⟨id, result⟩) ∧
    (∀ terminal, s.state.terminal.value = some terminal →
      ended (story history terminal.id) = [terminal.result]) ∧
    (∀ slot id answer, callMachine.output s (.pollStop slot) = .polled id answer →
      (answer = some (.error .stale) ↔
        terminated (story history id) = true ∧ polled (story history id) = false) ∧
      ∀ result : Except ε Unit, answer = some (result.mapError .backend) ↔
        ended (story history id) = [result] ∧ polled (story history id) = true) ∧
    (∀ id, (ended (story history id)).length ≤ 1 ∧
      (delivered (story history id)).Sublist (ended (story history id))) ∧
    ∀ id, LifecycleRunner.isActive id s.state = true ↔
      activated (story history id) = true ∧ released (story history id) = false := by
  intro history s
  have h : Standing history s := run_standing calls hb
  have hfinished : ∀ id, s.state.inner.phase = .terminal id →
      ∃ result, s.state.terminal.value = some ⟨id, result⟩ ∧
        ended (story history id) = [result] := by
    intro id hp
    obtain ⟨stage, htold, hholds⟩ := h.stands id
    have hs := hholds.stagePhase_eq hp rfl
    cases stage <;> cases hs
    next result => exact ⟨result, hholds.result result rfl, htold.2.1⟩
  refine ⟨fun id => ⟨?_, ?_⟩, ?_, ?_, ?_, ?_⟩
  · intro hp
    obtain ⟨result, hv, -⟩ := hfinished id hp
    exact ⟨result, hv⟩
  · rintro ⟨result, hv⟩
    exact h.signalled _ hv
  · intro terminal hv
    obtain ⟨result, hv', he⟩ := hfinished terminal.id (h.signalled terminal hv)
    rw [hv] at hv'
    have hresult := congrArg LifecycleTerminal.result (Option.some.inj hv')
    rw [hresult]
    exact he
  · intro slot id answer ho
    have hnext : Lawful (history ++ [(.pollStop slot, .polled id answer)]) := by
      have hrun := run_standing (calls ++ [.pollStop slot]) (by
        rw [transcript_concat, generations_concat, List.length_append]
        exact hb)
      rw [transcript_concat, show callMachine.output (callMachine.run .new calls) _ = _ from ho]
        at hrun
      exact hrun.lawful
    obtain ⟨stage, next, htold, hmoves⟩ := hnext history _ [] rfl id rfl
    exact htold.poll_answer hmoves
  · intro id
    obtain ⟨stage, htold, -⟩ := h.stands id
    exact htold.delivered_ended
  · intro id
    obtain ⟨stage, htold, hholds⟩ := h.stands id
    rw [LifecycleRunner.isActive_iff, ← htold.active_iff]
    constructor
    · intro hp
      have hs := hholds.stagePhase_eq hp rfl
      cases stage <;> cases hs
      rfl
    · rintro rfl
      exact eq_of_view hholds.phase

/-- Identity of the first generation. -/
def firstId : LifecycleId := LifecycleRunner.freshId (LifecycleState.new (ε := Unit))

/-- Identity of the second generation. -/
def secondId : LifecycleId := ⟨⟨advance firstId.raw, advance_ne_zero firstId.raw⟩⟩

/-- A generation that is stopped, ended by its runner and delivered. -/
def stoppedRun : List (LifecycleCall Unit) :=
  [.begin, .activate firstId, .pollStop 0, .tryTakeCancel, .finish firstId (.ok ())]

/-- In that run the last poll delivers the result. -/
theorem outcomes_agree_stopped :
    (generations (callMachine.transcript .new stoppedRun)).length < 2 ^ 32 - 1 ∧
    ∀ answer : Option (Except (LifecycleStopError Unit) Unit),
      callMachine.output (callMachine.run .new stoppedRun) (.pollStop 0) =
        .polled firstId answer →
      (answer = some (.ok ()) ↔ ended (story (callMachine.transcript .new stoppedRun) firstId) =
        [.ok ()] ∧ polled (story (callMachine.transcript .new stoppedRun) firstId) = true) :=
  ⟨by decide, fun answer ho =>
    ((outcomes_agree stoppedRun (by decide)).2.2.1 0 firstId answer ho).2 (.ok ())⟩

end HisiRfCore.LifecycleCalls
