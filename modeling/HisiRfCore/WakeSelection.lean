import HisiRfCore.RunnerState

/-!
# Wake sources and their selection

Wake sets are compared source by source. The selector picks a source that is
subscribed and ready, and picks none only when no source is both, wherever its
rotation stands.
-/

namespace HisiRfCore.WakeSelection

open IncrementalContract RunnerState

/-- Wake source of a reason. -/
def source : WakeReason → WaitSet
  | .command => .command
  | .backend => .backend
  | .l2Rx => .l2Rx
  | .timer => .timer

/-- The source of a reason is its one bit. -/
@[simp] theorem source_bits (reason : WakeReason) : (source reason).bits = reason.bit := by
  cases reason <;> rfl

/-- A source is in a set exactly when the set has its bit. -/
theorem contains_source (set : WaitSet) (reason : WakeReason) :
    set.contains (source reason) = set.bits.toBitVec.getLsbD reason.index.toNat := by
  have h : ∀ k : Fin (2 ^ 8), ((⟨⟨k⟩⟩ : UInt8) &&& reason.bit == reason.bit) =
      (BitVec.ofFin k).getLsbD reason.index.toNat := by
    cases reason <;> decide +kernel
  rw [WaitSet.contains, source_bits]
  exact h set.bits.toBitVec.toFin

theorem source_self (reason : WakeReason) :
    (source reason).contains (source reason) = true := by
  cases reason <;> rfl

/-- The cancellation source is the fifth bit. -/
theorem contains_cancel (set : WaitSet) :
    set.contains .cancel = set.bits.toBitVec.getLsbD 4 := by
  have h : ∀ k : Fin (2 ^ 8), ((⟨⟨k⟩⟩ : UInt8) &&& 16 == 16) = (BitVec.ofFin k).getLsbD 4 := by
    decide +kernel
  exact h set.bits.toBitVec.toFin

/-- A reason is eligible when both sets contain its source. -/
theorem eligible_iff (subscribed ready : WaitSet) (reason : WakeReason) :
    subscribed.bits &&& ready.bits &&& reason.bit ≠ 0 ↔
      subscribed.contains (source reason) = true ∧ ready.contains (source reason) = true := by
  have h : ∀ k : Fin (2 ^ 8), ((⟨⟨k⟩⟩ : UInt8) &&& reason.bit ≠ 0) ↔
      (BitVec.ofFin k).getLsbD reason.index.toNat = true := by
    cases reason <;> decide +kernel
  have hbit := h (subscribed.bits &&& ready.bits).toBitVec.toFin
  simp only [contains_source]
  rw [← Bool.and_eq_true, ← BitVec.getLsbD_and, ← UInt8.toBitVec_and]
  exact hbit

@[simp] theorem contains_union (a b : WaitSet) (reason : WakeReason) :
    (a.union b).contains (source reason) =
      (a.contains (source reason) || b.contains (source reason)) := by
  simp only [contains_source, WaitSet.union, UInt8.toBitVec_or, BitVec.getLsbD_or]

/-- Removing sources leaves the others. -/
theorem contains_without (a b : WaitSet) (reason : WakeReason) :
    (a.without b).contains (source reason) =
      (a.contains (source reason) && !b.contains (source reason)) := by
  have hlt : reason.index.toNat < 8 := by cases reason <;> decide
  simp [contains_source, WaitSet.without, hlt]

/-- Nothing is left of the cancellation source after its removal. -/
theorem without_cancel (set : WaitSet) : (set.without .cancel).contains .cancel = false := by
  rw [contains_cancel]
  simp [WaitSet.without, WaitSet.cancel]

@[simp] theorem contains_empty (reason : WakeReason) :
    WaitSet.empty.contains (source reason) = false := by
  cases reason <;> rfl

/-- A set without sources is the empty set. -/
theorem isEmpty_iff {set : WaitSet} : set.isEmpty = true ↔ set = .empty := by
  rcases set with ⟨bits, known⟩
  simp only [WaitSet.isEmpty, WaitSet.empty, WaitSet.mk.injEq, beq_iff_eq]

/-- A set with a source is not empty. -/
theorem isEmpty_of_contains {set : WaitSet} {reason : WakeReason}
    (h : set.contains (source reason) = true) : set.isEmpty = false := by
  rw [Bool.eq_false_iff]
  intro he
  rw [isEmpty_iff.mp he, contains_empty] at h
  cases h

/-- A set from which another takes everything is part of the other. -/
theorem contains_of_without {a b s : WaitSet} (h : (a.without b).isEmpty = true)
    (ha : a.contains s = true) : b.contains s = true := by
  have hbits : a.bits &&& ~~~b.bits = 0 := eq_of_beq h
  have hsub : a.bits &&& s.bits = s.bits := eq_of_beq ha
  refine beq_iff_eq.mpr (UInt8.toBitVec_inj.mp (BitVec.eq_of_getLsbD_eq fun i hi => ?_))
  have hin := congrArg (fun bits : UInt8 => bits.toBitVec.getLsbD i) hbits
  have hon := congrArg (fun bits : UInt8 => bits.toBitVec.getLsbD i) hsub
  simp only [UInt8.toBitVec_and, UInt8.toBitVec_not, BitVec.getLsbD_and, BitVec.getLsbD_not, hi,
    decide_true, Bool.true_and, UInt8.toBitVec_zero, BitVec.getLsbD_zero] at hin hon ⊢
  cases hs : s.bits.toBitVec.getLsbD i <;> simp_all

/-- A set that is not empty and has no cancellation has the source of a reason. -/
theorem exists_source {set : WaitSet} (hne : set.isEmpty = false)
    (hc : set.contains .cancel = false) : ∃ reason, set.contains (source reason) = true := by
  have h : ∀ k : Fin (2 ^ 8), k.val < 2 ^ 5 → (BitVec.ofFin k).getLsbD 0 = false →
      (BitVec.ofFin k).getLsbD 1 = false → (BitVec.ofFin k).getLsbD 2 = false →
      (BitVec.ofFin k).getLsbD 3 = false → (BitVec.ofFin k).getLsbD 4 = false →
      ((⟨⟨k⟩⟩ : UInt8) == 0) = true := by decide +kernel
  by_contra hnone
  have hreason : ∀ reason, set.contains (source reason) = false :=
    fun reason => Bool.eq_false_iff.mpr fun hr => hnone ⟨reason, hr⟩
  have hbit : ∀ reason : WakeReason, set.bits.toBitVec.getLsbD reason.index.toNat = false :=
    fun reason => (contains_source set reason).symm.trans (hreason reason)
  rw [contains_cancel] at hc
  have hzero := h set.bits.toBitVec.toFin set.known (hbit .command) (hbit .backend) (hbit .l2Rx)
    (hbit .timer) hc
  exact Bool.eq_false_iff.mp hne hzero

@[simp] theorem empty_union (set : WaitSet) : WaitSet.empty.union set = set := by
  rcases set with ⟨bits, known⟩
  simp only [WaitSet.union, WaitSet.empty, UInt8.zero_or]

/-- A non-empty part of a set without commands and cancellations has neither, and has the
source of another reason of the set. -/
theorem reason_of_part {set all : WaitSet}
    (h : (set.without ((all.without .command).without .cancel)).isEmpty = true)
    (hne : set.isEmpty = false) :
    set.contains .command = false ∧ set.contains .cancel = false ∧
      ∃ reason, reason ≠ .command ∧ set.contains (source reason) = true ∧
        all.contains (source reason) = true := by
  have hcommand : set.contains .command = false := by
    rw [Bool.eq_false_iff]
    intro hc
    have hin := contains_of_without h hc
    rw [show WaitSet.command = source .command from rfl, contains_without, contains_without,
      source_self, Bool.not_true, Bool.and_false, Bool.false_and] at hin
    cases hin
  have hcancel : set.contains .cancel = false := by
    rw [Bool.eq_false_iff]
    intro hc
    have hin := contains_of_without h hc
    rw [without_cancel] at hin
    cases hin
  obtain ⟨reason, hr⟩ := exists_source hne hcancel
  refine ⟨hcommand, hcancel, reason, ?_, hr, ?_⟩
  · rintro rfl
    cases hcommand.symm.trans hr
  · have hin := contains_of_without h hr
    rw [contains_without, contains_without] at hin
    exact (Bool.and_eq_true_iff.mp (Bool.and_eq_true_iff.mp hin).1).1

/-- The loop picks an eligible reason. -/
theorem selectFrom_eligible {selector : FairWakeSelector} {eligible : UInt8}
    {offsets : List UInt8} {reason : WakeReason}
    (h : (selector.selectFrom eligible offsets).1 = some reason) :
    eligible &&& reason.bit ≠ 0 := by
  induction offsets with
  | nil => cases h
  | cons offset rest ih =>
    unfold FairWakeSelector.selectFrom at h
    dsimp only at h
    split at h
    · next hbit =>
      cases h
      exact hbit
    · exact ih h

/-- The loop picks nothing only when the reasons it looks at are not eligible. -/
theorem selectFrom_none {selector : FairWakeSelector} {eligible : UInt8} {offsets : List UInt8}
    (h : (selector.selectFrom eligible offsets).1 = none) {offset : UInt8}
    (ho : offset ∈ offsets) :
    eligible &&& (WakeReason.fromIndex ((selector.next + offset) % WakeReason.count)).bit = 0 := by
  induction offsets with
  | nil => cases ho
  | cons first rest ih =>
    unfold FairWakeSelector.selectFrom at h
    dsimp only at h
    split at h
    · cases h
    · next hbit =>
      rcases List.mem_cons.mp ho with rfl | ho
      · exact not_not.mp hbit
      · exact ih h ho

/-- A loop that picks nothing does not rotate. -/
theorem selectFrom_rests {selector : FairWakeSelector} {eligible : UInt8} {offsets : List UInt8}
    (h : (selector.selectFrom eligible offsets).1 = none) :
    (selector.selectFrom eligible offsets).2 = selector := by
  induction offsets with
  | nil => rfl
  | cons first rest ih =>
    unfold FairWakeSelector.selectFrom at h ⊢
    dsimp only at h ⊢
    split at h
    · cases h
    · next hbit =>
      rw [if_neg hbit]
      exact ih h

/-- The rotation reaches every reason from wherever it stands. -/
theorem rotation_covers (next : UInt8) (reason : WakeReason) :
    ∃ offset ∈ [(0 : UInt8), 1, 2, 3],
      WakeReason.fromIndex ((next + offset) % WakeReason.count) = reason := by
  have h : ∀ k : Fin (2 ^ 8), ∃ offset ∈ [(0 : UInt8), 1, 2, 3],
      WakeReason.fromIndex (((⟨⟨k⟩⟩ : UInt8) + offset) % WakeReason.count) = reason := by
    cases reason <;> decide +kernel
  exact h next.toBitVec.toFin

section Select

variable {selector : FairWakeSelector} {subscribed ready : WaitSet} {reason : WakeReason}

/-- The selected reason is subscribed and ready. -/
theorem select_some (h : (selector.select subscribed ready).1 = some reason) :
    subscribed.contains (source reason) = true ∧ ready.contains (source reason) = true :=
  (eligible_iff subscribed ready reason).mp (selectFrom_eligible h)

/-- Nothing is selected only when no reason is both subscribed and ready. -/
theorem select_none (h : (selector.select subscribed ready).1 = none) (reason : WakeReason) :
    ¬ (subscribed.contains (source reason) = true ∧ ready.contains (source reason) = true) := by
  obtain ⟨offset, ho, hr⟩ := rotation_covers selector.next reason
  have hbit := selectFrom_none h ho
  rw [hr] at hbit
  exact fun hboth => (eligible_iff subscribed ready reason).mpr hboth hbit

end Select

/-- Step of a live operation for the selected reason. -/
def selectedStep (operation : OperationId) (waitFor : WaitSet) : Option WakeReason → RunnerStep
  | some .command => .commandReady operation
  | some reason => .pollBackend operation reason
  | none => .waiting waitFor

/-- Only the command source selects the step of a ready command. -/
theorem selectedStep_command {operation id : OperationId} {waitFor : WaitSet}
    {picked : Option WakeReason} (h : selectedStep operation waitFor picked = .commandReady id) :
    picked = some .command := by
  rcases picked with _ | ⟨_ | _ | _ | _⟩ <;> first | rfl | cases h

/-- With something to wait for, the step of a live operation is that of the selection. -/
theorem selectStep_of_subscribed {state : IncrementalRunnerState} {id : OperationId}
    {cancelled : Bool}
    (h : state.tracker.current = some (id, IncrementalRunnerState.liveLifecycle cancelled))
    (ready : WaitSet) (hw : state.waitFor.isEmpty = false) :
    (state.selectStep ready).1 =
      selectedStep id state.waitFor (state.selector.select state.waitFor ready).1 := by
  have hl : IncrementalRunnerState.liveLifecycle cancelled ≠ .terminal := by
    cases cancelled <;> decide
  unfold IncrementalRunnerState.selectStep
  simp only [h, if_neg hl, hw, Bool.false_and, Bool.false_eq_true, if_false]
  rcases state.selector.select state.waitFor ready with ⟨picked, selector⟩
  rcases picked with _ | ⟨_ | _ | _ | _⟩ <;> rfl

/-- A step that waits writes nothing. -/
theorem selectStep_of_waiting {state : IncrementalRunnerState} {ready waitFor : WaitSet}
    (h : (state.selectStep ready).1 = .waiting waitFor) :
    state.selectStep ready = (.waiting state.waitFor, state) := by
  unfold IncrementalRunnerState.selectStep at h ⊢
  cases hcurrent : state.tracker.current with
  | none => simp [hcurrent] at h
  | some current =>
    rcases current with ⟨operation, lifecycle⟩
    simp only [hcurrent] at h ⊢
    split at h
    · cases h
    · next hlive =>
      rw [if_neg hlive]
      split at h
      · cases h
      · next hmore =>
        rw [if_neg hmore]
        rcases hs : state.selector.select state.waitFor ready with ⟨picked, selector⟩
        rw [hs] at h
        rcases picked with _ | ⟨_ | _ | _ | _⟩
        · have hrests : (state.selector.select state.waitFor ready).2 = state.selector :=
            selectFrom_rests (congrArg Prod.fst hs)
          rw [hs] at hrests
          rw [show selector = state.selector from hrests]
        all_goals cases h

/-- With nothing to wait for, a live operation is polled at once. -/
theorem selectStep_of_unsubscribed {state : IncrementalRunnerState} {id : OperationId}
    {cancelled : Bool}
    (h : state.tracker.current = some (id, IncrementalRunnerState.liveLifecycle cancelled))
    (ready : WaitSet) (hw : state.waitFor.isEmpty = true) :
    (state.selectStep ready).1 = .pollBackend id .backend := by
  have hl : IncrementalRunnerState.liveLifecycle cancelled ≠ .terminal := by
    cases cancelled <;> decide
  unfold IncrementalRunnerState.selectStep
  rw [h]
  dsimp only
  rw [if_neg hl, hw]
  cases cancelled <;> rfl

end HisiRfCore.WakeSelection
