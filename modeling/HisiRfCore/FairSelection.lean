import HisiRfCore.InputOutputMachine
import HisiRfCore.RoundRobin
import HisiRfCore.WakeSelection

/-!
# Fairness of the wake selector

The selector is a rotation over four places. From a new selector every sequence of
calls keeps the rotation on the circle, so the library of rotating priorities applies:
a source that stays subscribed and ready is selected in every four calls, and between
two of its turns every other source has at most one.
-/

namespace HisiRfCore.FairSelection

open IncrementalContract RunnerState WakeSelection InputOutputMachine RoundRobin

/-- Place of a reason in the rotation. -/
def place : WakeReason → Fin 4
  | .command => 0
  | .backend => 1
  | .l2Rx => 2
  | .timer => 3

theorem place_injective : Function.Injective place := by
  intro a b h
  cases a <;> cases b <;> first | rfl | cases h

/-- The source of a reason is subscribed and ready. -/
def Eligible (subscribed ready : WaitSet) (reason : WakeReason) : Prop :=
  subscribed.contains (source reason) = true ∧ ready.contains (source reason) = true

instance (subscribed ready : WaitSet) (reason : WakeReason) :
    Decidable (Eligible subscribed ready reason) :=
  inferInstanceAs (Decidable (_ ∧ _))

/-- Places of the eligible reasons. -/
def eligiblePlaces (subscribed ready : WaitSet) (spot : Fin 4) : Prop :=
  ∃ reason, place reason = spot ∧ Eligible subscribed ready reason

/-- The preferred index of a selector is a place of the rotation. -/
def Stands (selector : FairWakeSelector) (start : Fin 4) : Prop :=
  selector.next.toNat = start.val

/-- A new selector prefers the first place. -/
theorem new_stands : Stands .new 0 := rfl

/-- The loop stops at the first offset whose reason is eligible. -/
theorem selectFrom_first {selector next : FairWakeSelector} {eligible : UInt8}
    {offsets : List UInt8} {reason : WakeReason}
    (h : selector.selectFrom eligible offsets = (some reason, next)) :
    ∃ before offset after, offsets = before ++ offset :: after ∧
      WakeReason.fromIndex ((selector.next + offset) % WakeReason.count) = reason ∧
      next.next = ((selector.next + offset) % WakeReason.count + 1) % WakeReason.count ∧
      ∀ earlier ∈ before, eligible &&&
        (WakeReason.fromIndex ((selector.next + earlier) % WakeReason.count)).bit = 0 := by
  induction offsets with
  | nil => cases h
  | cons offset rest ih =>
    unfold FairWakeSelector.selectFrom at h
    dsimp only at h
    split at h
    · cases h
      exact ⟨[], offset, rest, rfl, rfl, rfl, fun _ hx => by cases hx⟩
    · next hbit =>
      obtain ⟨before, picked, after, rfl, hr, hn, hb⟩ := ih h
      refine ⟨offset :: before, picked, after, rfl, hr, hn, fun earlier he => ?_⟩
      rcases List.mem_cons.mp he with rfl | he
      · exact not_not.mp hbit
      · exact hb earlier he

/-- A loop that selects nothing leaves the rotation alone. -/
theorem selectFrom_unmoved {selector next : FairWakeSelector} {eligible : UInt8}
    {offsets : List UInt8} (h : selector.selectFrom eligible offsets = (none, next)) :
    next = selector := by
  induction offsets with
  | nil =>
    cases h
    rfl
  | cons offset rest ih =>
    unfold FairWakeSelector.selectFrom at h
    dsimp only at h
    split at h
    · cases h
    · exact ih h

/-- An offset of the loop is the distance of its reason from the preferred index. -/
theorem place_offset {selector : FairWakeSelector} {start : Fin 4} (h : Stands selector start)
    {offset : UInt8} (ho : offset ∈ [(0 : UInt8), 1, 2, 3]) :
    ahead start (place (WakeReason.fromIndex ((selector.next + offset) % WakeReason.count))) =
        offset.toNat ∧
      (((selector.next + offset) % WakeReason.count + 1) % WakeReason.count).toNat =
        (place (WakeReason.fromIndex ((selector.next + offset) % WakeReason.count)) + 1).val := by
  have hall : ∀ start k : Fin 4,
      ahead start (place (WakeReason.fromIndex
          ((UInt8.ofNat start.val + UInt8.ofNat k.val) % WakeReason.count))) = k.val ∧
        (((UInt8.ofNat start.val + UInt8.ofNat k.val) % WakeReason.count + 1) %
            WakeReason.count).toNat =
          (place (WakeReason.fromIndex
            ((UInt8.ofNat start.val + UInt8.ofNat k.val) % WakeReason.count)) + 1).val := by
    decide
  have hnext : selector.next = UInt8.ofNat start.val := by
    rw [← h, UInt8.ofNat_toNat]
  rw [hnext]
  simp only [List.mem_cons, List.not_mem_nil, or_false] at ho
  obtain rfl | rfl | rfl | rfl := ho
  · exact hall start 0
  · exact hall start 1
  · exact hall start 2
  · exact hall start 3

section Select

variable {selector next : FairWakeSelector} {start : Fin 4} {subscribed ready : WaitSet}
  {reason : WakeReason}

/-- A selection picks the nearest eligible place and moves the rotation past it. -/
theorem select_picks (h : Stands selector start)
    (hs : selector.select subscribed ready = (some reason, next)) :
    Picks (eligiblePlaces subscribed ready) start (place reason) ∧
      Stands next (place reason + 1) := by
  have hpicked : (selector.select subscribed ready).1 = some reason := by rw [hs]
  obtain ⟨before, offset, after, hoffsets, hr, hn, hb⟩ := selectFrom_first hs
  have hmem : offset ∈ [(0 : UInt8), 1, 2, 3] := by
    rw [hoffsets]
    exact List.mem_append_right _ List.mem_cons_self
  obtain ⟨hahead, hstands⟩ := place_offset h hmem
  rw [hr] at hahead hstands
  refine ⟨⟨⟨reason, rfl, select_some hpicked⟩, ?_⟩, ?_⟩
  · rintro other ⟨source, rfl, heligible⟩
    -- every eligible reason has an offset, and one before the pick was refused
    obtain ⟨found, hfound, hsource⟩ := rotation_covers selector.next source
    have hdistance := (place_offset h hfound).1
    rw [hsource] at hdistance
    rw [hahead, hdistance]
    by_contra hlt
    have hsorted : [(0 : UInt8), 1, 2, 3].Pairwise (fun a b => a.toNat ≤ b.toNat) := by decide
    rw [hoffsets] at hfound hsorted
    rcases List.mem_append.mp hfound with hin | hin
    · have hzero := hb found hin
      rw [hsource] at hzero
      exact (eligible_iff subscribed ready source).mpr heligible hzero
    · rcases List.mem_cons.mp hin with rfl | hin
      · exact hlt (Nat.le_refl _)
      · have hle := (List.pairwise_cons.mp (List.pairwise_append.mp hsorted).2.1).1 found hin
        exact hlt hle
  · unfold Stands
    rw [hn]
    exact hstands

end Select

/-- The selector as a machine whose inputs are the sets of a call. -/
def selectorMachine : Machine FairWakeSelector (WaitSet × WaitSet) (Option WakeReason) where
  step selector call :=
    ((selector.select call.1 call.2).2, (selector.select call.1 call.2).1)

/-- The rotation is on the circle after every sequence of calls. -/
theorem run_stands (calls : List (WaitSet × WaitSet)) :
    ∃ start, Stands (selectorMachine.run .new calls) start := by
  refine run_invariant selectorMachine (I := fun selector => ∃ start, Stands selector start)
    ⟨0, new_stands⟩ ?_ calls
  rintro selector ⟨subscribed, ready⟩ ⟨start, hstart⟩
  rcases hs : selector.select subscribed ready with ⟨picked, next⟩
  have hnext : selectorMachine.next selector (subscribed, ready) = next := by
    simp only [Machine.next, selectorMachine, hs]
  rw [hnext]
  cases picked with
  | some reason => exact ⟨_, (select_picks hstart hs).2⟩
  | none =>
    rw [selectFrom_unmoved hs]
    exact ⟨start, hstart⟩

/-- What the calls of a sequence select, in order. -/
def selections (selector : FairWakeSelector) (calls : List (WaitSet × WaitSet)) :
    List (Option WakeReason) :=
  (selectorMachine.transcript selector calls).map Prod.snd

/-- While a reason stays eligible every call selects, and the selections are rounds of the
rotation. -/
theorem rotates_selections {reason : WakeReason} {calls : List (WaitSet × WaitSet)}
    (h : ∀ call ∈ calls, Eligible call.1 call.2 reason) {selector : FairWakeSelector}
    {start : Fin 4} (hstart : Stands selector start) :
    ∃ rounds : List ((Fin 4 → Prop) × WakeReason),
      selections selector calls = rounds.map (fun round => some round.2) ∧
      Rotates start (rounds.map fun round => (round.1, place round.2)) ∧
      ∀ round ∈ rounds, round.1 (place reason) := by
  induction calls generalizing selector start with
  | nil => exact ⟨[], rfl, trivial, fun _ hx => by cases hx⟩
  | cons call rest ih =>
    rcases hs : selector.select call.1 call.2 with ⟨picked, next⟩
    have heligible := h call List.mem_cons_self
    cases picked with
    | none => exact (select_none (by rw [hs]) reason heligible).elim
    | some selected =>
      obtain ⟨hpicks, hnext⟩ := select_picks hstart hs
      obtain ⟨rounds, hout, hrotates, hround⟩ :=
        ih (fun c hc => h c (List.mem_cons_of_mem _ hc)) hnext
      refine ⟨(eligiblePlaces call.1 call.2, selected) :: rounds, ?_, ⟨hpicks, hrotates⟩, ?_⟩
      · rw [List.map_cons, ← hout]
        simp only [selections, Machine.transcript, selectorMachine, hs, List.map_cons]
      · intro round hr
        rcases List.mem_cons.mp hr with rfl | hr
        · exact ⟨reason, rfl, heligible⟩
        · exact hround round hr

section Stretch

variable {reason : WakeReason} {calls : List (WaitSet × WaitSet)} {selector : FairWakeSelector}
  {start : Fin 4}

/-- A stretch of calls that passes over an eligible reason is shorter than the circle and
selects no other reason twice. -/
theorem passed_over (h : ∀ call ∈ calls, Eligible call.1 call.2 reason)
    (hstart : Stands selector start) (hn : some reason ∉ selections selector calls) :
    calls.length < 4 ∧ (selections selector calls).Nodup := by
  obtain ⟨rounds, hout, hrotates, hround⟩ := rotates_selections h hstart
  have htarget : ∀ round ∈ rounds.map (fun round => (round.1, place round.2)),
      round.1 (place reason) := by
    intro round hr
    obtain ⟨r, hm, rfl⟩ := List.mem_map.mp hr
    exact hround r hm
  have hpassed : ∀ round ∈ rounds.map (fun round => (round.1, place round.2)),
      round.2 ≠ place reason := by
    intro round hr he
    obtain ⟨r, hm, rfl⟩ := List.mem_map.mp hr
    rw [hout] at hn
    exact hn (List.mem_map.mpr ⟨r, hm, by rw [place_injective he]⟩)
  constructor
  · have hlength := congrArg List.length hout
    rw [selections, List.length_map, transcript_length, List.length_map] at hlength
    have hwait := waits_le hrotates htarget hpassed
    rw [List.length_map, ← hlength] at hwait
    exact Nat.lt_of_le_of_lt hwait (ahead_lt _ _)
  · have hnodup := picks_nodup hrotates htarget hpassed
    rw [List.map_map] at hnodup
    have hplaces : (rounds.map Prod.snd).map place = rounds.map
        (Prod.snd ∘ fun round : (Fin 4 → Prop) × WakeReason => (round.1, place round.2)) := by
      rw [List.map_map]
      rfl
    rw [← hplaces] at hnodup
    rw [hout, show (fun round : (Fin 4 → Prop) × WakeReason => some round.2) =
      some ∘ Prod.snd from rfl, ← List.map_map]
    exact hnodup.of_map.map (Option.some_injective _)

end Stretch

/-- A source that is subscribed and ready in every call is selected in any four consecutive
calls; in a stretch without it, and so between two of its turns, no other source is selected
twice. Whatever is selected is subscribed and ready, and nothing is selected exactly when no
source is both. -/
theorem selection_fair (earlier later : List (WaitSet × WaitSet)) (reason : WakeReason)
    (h : ∀ call ∈ later, Eligible call.1 call.2 reason) :
    (∀ before four after, later = before ++ four ++ after → four.length = 4 →
      some reason ∈ selections (selectorMachine.run .new (earlier ++ before)) four) ∧
    (∀ before between after, later = before ++ between ++ after →
      some reason ∉ selections (selectorMachine.run .new (earlier ++ before)) between →
      ∀ other, (selections (selectorMachine.run .new (earlier ++ before)) between).count
        (some other) ≤ 1) ∧
    ∀ subscribed ready,
      (∀ picked, selectorMachine.output (selectorMachine.run .new earlier) (subscribed, ready) =
        some picked → Eligible subscribed ready picked) ∧
      (selectorMachine.output (selectorMachine.run .new earlier) (subscribed, ready) = none ↔
        ∀ other, ¬ Eligible subscribed ready other) := by
  have hcut : ∀ before stretch after, later = before ++ stretch ++ after →
      ∀ call ∈ stretch, Eligible call.1 call.2 reason := by
    rintro before stretch after rfl call hc
    exact h call (List.mem_append_left _ (List.mem_append_right _ hc))
  refine ⟨fun before four after he hlength => ?_, fun before between after he hn other => ?_,
    fun subscribed ready => ⟨fun picked hp => select_some hp, ?_, ?_⟩⟩
  · by_contra hn
    obtain ⟨start, hstart⟩ := run_stands (earlier ++ before)
    have hlt := (passed_over (hcut before four after he) hstart hn).1
    exact Nat.lt_irrefl _ (hlength ▸ hlt)
  · obtain ⟨start, hstart⟩ := run_stands (earlier ++ before)
    exact List.nodup_iff_count_le_one.mp
      (passed_over (hcut before between after he) hstart hn).2 (some other)
  · exact fun hnone other => select_none hnone other
  · intro hnone
    cases hs : selectorMachine.output (selectorMachine.run .new earlier) (subscribed, ready) with
    | none => rfl
    | some picked => exact (hnone picked (select_some hs)).elim

/-- Every source subscribed and ready. -/
def busyCall : WaitSet × WaitSet :=
  let all := ((WaitSet.command.union .backend).union .l2Rx).union .timer
  (all, all)

/-- With everything ready all the time the timer has its turn within four calls. -/
theorem selection_fair_busy :
    some WakeReason.timer ∈ selections (selectorMachine.run .new ([busyCall] ++ []))
      (List.replicate 4 busyCall) :=
  (selection_fair [busyCall] (List.replicate 4 busyCall) .timer (by decide)).1 []
    (List.replicate 4 busyCall) [] (by simp) rfl

end HisiRfCore.FairSelection
