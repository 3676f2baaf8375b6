import Mathlib.Data.List.Nodup
import HisiRfCore.DriverCalls

/-!
# Ownership of accepted commands

Every accepted sequence is in exactly one of three places: the pending slot,
the active slot, or the terminated history. The argument only uses the slot
moves of a call. It holds for every backend, every reply of that backend and
every order of driver calls that accepts distinct sequences.
-/

namespace HisiRfCore.DriverOwnership

open WifiTypes IncrementalContract CommandArbitration BackendDriver DriverCoherence DriverCalls
open InputOutputMachine

/-- Place of an accepted sequence. -/
inductive Place
  | pending | active | terminated
  deriving DecidableEq

/-- A sequence is in a place, given the terminated history and the slots. -/
def Occupies (terminated : List CommandSequence) (s : Slots) (x : CommandSequence) : Place → Prop
  | .pending => s.pending = some x
  | .active => s.active = some x
  | .terminated => x ∈ terminated

/-- Balance of the accepted, terminated and started histories with the slots. -/
structure Owned (accepted terminated started : List CommandSequence) (s : Slots) : Prop where
  /-- Each accepted sequence is counted once, in the history or in a slot. -/
  balanced : accepted.Perm (terminated ++ s.toList)
  /-- The started sequences, then the pending one, are in submission order. -/
  ordered : (started ++ s.pending.toList).Sublist accepted
  /-- The started sequence that has not terminated is the active one. -/
  live : started.filter (fun x => x ∉ terminated) = s.active.toList

/-- Nothing is owned before the first call. -/
theorem owned_nil : Owned [] [] [] ⟨none, none⟩ := ⟨.nil, .slnil, rfl⟩

section Owned

variable {a t st : List CommandSequence} {s : Slots}

/-- With distinct acceptances no sequence is in two places. -/
theorem Owned.nodup (h : Owned a t st s) (hd : a.Nodup) : (t ++ s.toList).Nodup :=
  h.balanced.nodup_iff.mp hd

/-- A terminated sequence is in neither slot. -/
theorem Owned.terminated_slots (h : Owned a t st s) (hd : a.Nodup) {x : CommandSequence}
    (hx : x ∈ t) : s.active ≠ some x ∧ s.pending ≠ some x := by
  have hn := (List.nodup_append.mp (h.nodup hd)).2.2
  constructor
  · intro hs
    exact hn x hx x (by simp [Slots.toList, hs]) rfl
  · intro hs
    exact hn x hx x (by simp [Slots.toList, hs]) rfl

/-- The pending sequence was not started. -/
theorem Owned.pending_not_started (h : Owned a t st s) (hd : a.Nodup) {x : CommandSequence}
    (hp : s.pending = some x) : x ∉ st := by
  have hn := h.ordered.nodup hd
  intro hx
  exact (List.nodup_append.mp hn).2.2 x hx x (by simp [hp]) rfl

/-- The active and the pending sequence differ. -/
theorem Owned.active_ne_pending (h : Owned a t st s) (hd : a.Nodup) {x : CommandSequence}
    (ha : s.active = some x) : s.pending ≠ some x := by
  intro hp
  have hn := (List.nodup_append.mp (h.nodup hd)).2.1
  simp [Slots.toList, ha, hp] at hn

/-- Every accepted sequence is in exactly one place. -/
theorem Owned.place (h : Owned a t st s) (hd : a.Nodup) {x : CommandSequence} (hx : x ∈ a) :
    ∃! place, Occupies t s x place := by
  have hm : x ∈ t ∨ s.active = some x ∨ s.pending = some x := by
    have hx' := h.balanced.mem_iff.mp hx
    simpa [Slots.toList, Option.mem_toList] using hx'
  rcases hm with ht | ha | hp
  · have hs := h.terminated_slots hd ht
    refine ⟨.terminated, ht, fun place ho => ?_⟩
    cases place with
    | pending => exact (hs.2 ho).elim
    | active => exact (hs.1 ho).elim
    | terminated => rfl
  · refine ⟨.active, ha, fun place ho => ?_⟩
    cases place with
    | pending => exact (h.active_ne_pending hd ha ho).elim
    | active => rfl
    | terminated => exact ((h.terminated_slots hd ho).1 ha).elim
  · refine ⟨.pending, hp, fun place ho => ?_⟩
    cases place with
    | pending => rfl
    | active => exact (h.active_ne_pending hd ho hp).elim
    | terminated => exact ((h.terminated_slots hd ho).2 hp).elim

/-- A sequence in a slot was accepted. -/
theorem Owned.accepted_of_slot (h : Owned a t st s) {x : CommandSequence}
    (hx : s.active = some x ∨ s.pending = some x) : x ∈ a := by
  apply h.balanced.mem_iff.mpr
  rcases hx with hx | hx <;> simp [Slots.toList, hx]

/-- Ending one more sequence drops it from the live ones. -/
theorem live_of_terminated {active : List CommandSequence} {x : CommandSequence}
    (h : st.filter (fun y => y ∉ t) = active) :
    st.filter (fun y => y ∉ t ++ [x]) = active.filter (fun y => y ≠ x) := by
  rw [← h, List.filter_filter]
  apply List.filter_congr
  intro y _
  simp only [List.mem_append, List.mem_singleton, not_or, Bool.decide_and, Bool.and_comm, ne_eq]

/-- Every slot move keeps the balance. -/
theorem Owned.move {s' : Slots} {x : Option CommandSequence}
    {event : Option IncrementalDriverEvent} (h : Owned a t st s) (hm : SlotMove s x event s')
    (hd : (a ++ x.toList).Nodup) :
    Owned (a ++ x.toList) (t ++ (event.bind IncrementalDriverEvent.terminal).toList)
      (st ++ (event.bind IncrementalDriverEvent.starts).toList) s' := by
  cases hm with
  | stay s event ht hs hn =>
    rw [ht, hs]
    simpa only [Option.toList_none, List.append_nil] using h
  | accept active y =>
    have hb : a.Perm (t ++ active.toList) := by simpa [Slots.toList] using h.balanced
    have ho : st.Sublist a := by simpa using h.ordered
    refine ⟨?_, ?_, ?_⟩
    · simpa [Slots.toList] using hb.append_right [y]
    · simpa using ho.append (List.Sublist.refl [y])
    · simpa using h.live
  | start y operation =>
    have hy : y ∉ t := by
      intro hy
      have hn : a.Nodup := by simpa using hd
      exact (h.terminated_slots hn hy).2 rfl
    have hl : st.filter (fun x => x ∉ t) = [] := h.live
    refine ⟨?_, ?_, ?_⟩
    · simpa [Slots.toList, IncrementalDriverEvent.terminal] using h.balanced
    · simpa [IncrementalDriverEvent.starts] using h.ordered
    · simp only [Option.bind_some, IncrementalDriverEvent.terminal, IncrementalDriverEvent.starts,
        Option.toList_none, List.append_nil, Option.toList_some, List.filter_append, hl]
      simp [hy]
  | leavePending active y event ht ha =>
    have hs : event.starts = none := (terminal_names ht).2
    have ho : st.Sublist a := (List.sublist_append_left st _).trans h.ordered
    have hl := @live_of_terminated t st _ y h.live
    simp only [Option.bind_some, ht, hs, Option.toList_none, Option.toList_some, List.append_nil]
    refine ⟨?_, by simpa using ho, ?_⟩
    · have hp : (t ++ (active.toList ++ [y])).Perm (t ++ [y] ++ active.toList) := by
        rw [List.append_assoc]
        exact (List.perm_append_comm).append_left t
      simpa [Slots.toList] using h.balanced.trans hp
    · rw [hl]
      cases active with
      | none => rfl
      | some z =>
        have hz : z ≠ y := fun hz => ha (congrArg some hz)
        simp [hz]
  | leaveActive pending y event ht =>
    have hs : event.starts = none := (terminal_names ht).2
    have hl := @live_of_terminated t st _ y h.live
    simp only [Option.bind_some, ht, hs, Option.toList_none, Option.toList_some, List.append_nil]
    refine ⟨?_, h.ordered, ?_⟩
    · simpa [Slots.toList] using h.balanced
    · rw [hl]
      simp

/-- The event of a move names only sequences in a slot. -/
theorem move_names {s' : Slots} {x : Option CommandSequence}
    {event : Option IncrementalDriverEvent} (hm : SlotMove s x event s') {y : CommandSequence}
    (hy : event.bind IncrementalDriverEvent.names = some y) :
    s.active = some y ∨ s.pending = some y := by
  cases hm with
  | stay s event ht hs hn => exact Or.inl (hn y hy)
  | accept active z => cases hy
  | start z operation => exact Or.inr hy
  | leavePending active z event ht ha =>
    have hz : some z = some y := (terminal_names ht).1.symm.trans hy
    exact Or.inr hz
  | leaveActive pending z event ht =>
    have hz : some z = some y := (terminal_names ht).1.symm.trans hy
    exact Or.inl hz

end Owned

variable {B E : Type} [IncrementalWifiBackend B]

section Histories

variable (h : List (DriverCall E × DriverReply)) (x : DriverCall E × DriverReply)

@[simp] theorem accepted_concat : accepted (h ++ [x]) = accepted h ++ (acceptedBy x).toList := by
  simp [accepted, List.filterMap_append, List.filterMap_cons, List.filterMap_nil]
  cases acceptedBy x <;> rfl

@[simp] theorem terminals_concat : terminals (h ++ [x]) = terminals h ++ x.2.terminal.toList := by
  simp [terminals, List.filterMap_append, List.filterMap_cons, List.filterMap_nil]
  cases x.2.terminal <;> rfl

@[simp] theorem starts_concat : starts (h ++ [x]) = starts h ++ x.2.starts.toList := by
  simp [starts, List.filterMap_append, List.filterMap_cons, List.filterMap_nil]
  cases x.2.starts <;> rfl

/-- A prefix of a history with distinct acceptances has distinct acceptances. -/
theorem accepted_nodup_prefix (hd : (accepted (h ++ [x])).Nodup) : (accepted h).Nodup := by
  rw [accepted_concat] at hd
  exact hd.of_append_left

end Histories

/-- Over every run the histories balance with the slots. -/
theorem run_owned (interrupt : E → B → B) (backend : B) (budget : WorkBudget)
    (calls : List (DriverCall E))
    (hd : (accepted (driverTranscript interrupt backend budget calls)).Nodup) :
    Owned (accepted (driverTranscript interrupt backend budget calls))
      (terminals (driverTranscript interrupt backend budget calls))
      (starts (driverTranscript interrupt backend budget calls))
      (slots (driverRun interrupt backend budget calls)) := by
  refine (transcript_invariant (driverMachine interrupt)
    (I := fun h driver => Coherent driver ∧
      Owned (accepted h) (terminals h) (starts h) (slots driver))
    (G := fun h => (accepted h).Nodup) ⟨new_coherent backend budget, owned_nil⟩
    accepted_nodup_prefix ?_ calls hd).2
  intro h driver call hn hi
  obtain ⟨hc, hm⟩ := call_move interrupt hi.1 call
  refine ⟨hc, ?_⟩
  rw [accepted_concat] at hn ⊢
  rw [terminals_concat, starts_concat]
  exact hi.2.move hm hn

/-- Acceptances stay distinct in every earlier part of a run. -/
theorem nodup_of_split {interrupt : E → B → B} {backend : B} {budget : WorkBudget}
    {before after : List (DriverCall E)}
    (hd : (accepted (driverTranscript interrupt backend budget (before ++ after))).Nodup) :
    (accepted (driverTranscript interrupt backend budget before)).Nodup := by
  rw [driverTranscript, transcript_append] at hd
  simp only [accepted, List.filterMap_append] at hd
  exact hd.of_append_left

/-- A transcript contains the reply of each of its calls. -/
theorem mem_driverTranscript (interrupt : E → B → B) (backend : B) (budget : WorkBudget)
    (before after : List (DriverCall E)) (call : DriverCall E) :
    (call, (driverMachine interrupt).output (driverRun interrupt backend budget before) call) ∈
      driverTranscript interrupt backend budget (before ++ call :: after) := by
  rw [driverTranscript, transcript_append]
  exact List.mem_append_right _ List.mem_cons_self

/-- Each accepted sequence is always in exactly one place, terminates by the one
call that takes it out of its slot, and no other sequence is ever named. Starts
are in submission order, and only the active sequence is started and unfinished. -/
theorem accepted_ownership (interrupt : E → B → B) (backend : B) (budget : WorkBudget)
    (calls : List (DriverCall E))
    (hd : (accepted (driverTranscript interrupt backend budget calls)).Nodup) :
    (∀ before after, calls = before ++ after →
      (∀ x ∈ accepted (driverTranscript interrupt backend budget before),
        ∃! place, Occupies (terminals (driverTranscript interrupt backend budget before))
          (slots (driverRun interrupt backend budget before)) x place) ∧
      (starts (driverTranscript interrupt backend budget before)).Sublist
        (accepted (driverTranscript interrupt backend budget before)) ∧
      (starts (driverTranscript interrupt backend budget before)).filter
          (fun x => x ∉ terminals (driverTranscript interrupt backend budget before)) =
        (slots (driverRun interrupt backend budget before)).active.toList) ∧
    (terminals (driverTranscript interrupt backend budget calls)).Nodup ∧
    ∀ before call after, calls = before ++ call :: after → ∀ x,
      (((driverMachine interrupt).output (driverRun interrupt backend budget before)
          call).terminal = some x ↔
        Leaves x (slots (driverRun interrupt backend budget before))
          (slots (driverRun interrupt backend budget (before ++ [call])))) ∧
      (((driverMachine interrupt).output (driverRun interrupt backend budget before)
          call).event.bind IncrementalDriverEvent.names = some x →
        x ∈ accepted (driverTranscript interrupt backend budget before)) := by
  refine ⟨?_, ?_, ?_⟩
  · rintro before after rfl
    have hn := nodup_of_split hd
    have ho := run_owned interrupt backend budget before hn
    exact ⟨fun x hx => ho.place hn hx, (List.sublist_append_left _ _).trans ho.ordered, ho.live⟩
  · have ho := run_owned interrupt backend budget calls hd
    exact (ho.nodup hd).of_append_left
  · rintro before call after rfl x
    have hn := nodup_of_split hd
    have ho := run_owned interrupt backend budget before hn
    obtain ⟨-, hm⟩ := call_move interrupt (run_coherent interrupt backend budget before) call
    have hnext : driverRun interrupt backend budget (before ++ [call]) =
        (driverMachine interrupt).next (driverRun interrupt backend budget before) call :=
      run_concat _ _ _ _
    rw [hnext]
    exact ⟨leaves_iff hm x, fun hx => ho.accepted_of_slot (move_names hm hx)⟩

/-- The ownership result on the run that removes a pending command. -/
theorem accepted_ownership_removal :
    (terminals (driverTranscript (fun (_ : Unit) (b : ReplayBackend) => b) completingBackend
      smallestBudget removalCalls)).Nodup :=
  (accepted_ownership (fun (_ : Unit) (b : ReplayBackend) => b) completingBackend
    smallestBudget removalCalls (by decide +kernel)).2.1

end HisiRfCore.DriverOwnership
