import HisiRfCore.InputOutputMachine
import Mathlib.Data.Vector.Basic

/-!
# A write-once record behind a flag

One publisher checks a flag, stores the cells of a value one by one and sets the flag
last; any number of readers check the flag and load the cells one by one. Every access
is a step of its own. However the steps interleave, a reader returns nothing or the
first published value, and once one has returned it every later reader does.
-/

namespace HisiRfCore.WriteOnceRecord

open InputOutputMachine

/-- Values kept in a fixed number of cells. -/
structure CellCodec (ν α : Type) (n : ℕ) where
  /-- Cells of a value. -/
  encode : ν → Vector α n
  /-- Value of some cells, if they hold one. -/
  decode : Vector α n → Option ν
  /-- The cells of a value hold it. -/
  decode_encode : ∀ value, decode (encode value) = some value
  /-- Cells that nothing was stored in. -/
  blank : Vector α n

/-- Where the publisher stands. -/
inductive Publisher (ν : Type)
  | idle
  | checking (value : ν)
  | storing (value : ν) (next : ℕ)

/-- Where a reader stands. -/
inductive Reader (ν α : Type) (n : ℕ)
  | checking
  | loading (buffer : Vector α n) (next : ℕ)
  | returned (result : Option ν)

/-- The record with its publisher and the readers started so far. -/
structure RecordSystem (ν α : Type) (n : ℕ) where
  /-- The flag. -/
  valid : Bool
  /-- The cells. -/
  cells : Vector α n
  /-- The one publisher. -/
  publisher : Publisher ν
  /-- Readers in the order of their start. -/
  readers : List (Reader ν α n)

/-- One call, or one step of a call. -/
inductive RecordInput (ν : Type)
  | publish (value : ν)
  | publishStep
  | snapshot
  | snapshotStep (slot : ℕ)

variable {ν α : Type} {n : ℕ} (codec : CellCodec ν α n)

/-- Nothing published and nobody reading. -/
def RecordSystem.new : RecordSystem ν α n := ⟨false, codec.blank, .idle, []⟩

/-- One access of the publisher: the flag, a cell, or the flag again. -/
def publishStep (s : RecordSystem ν α n) : RecordSystem ν α n :=
  match s.publisher with
  | .idle => s
  | .checking value => {s with publisher := if s.valid then .idle else .storing value 0}
  | .storing value next =>
    if h : next < n then
      {s with
        cells := s.cells.set next ((codec.encode value).get ⟨next, h⟩) h
        publisher := .storing value (next + 1)}
    else {s with valid := true, publisher := .idle}

/-- One access of a reader: the flag, or a cell; the loaded cells are decoded at the end. -/
def readStep (s : RecordSystem ν α n) : Reader ν α n → Reader ν α n
  | .checking => if s.valid then .loading codec.blank 0 else .returned none
  | .loading buffer next =>
    if h : next < n then .loading (buffer.set next (s.cells.get ⟨next, h⟩) h) (next + 1)
    else .returned (codec.decode buffer)
  | .returned result => .returned result

/-- Effect of one input; one that is not enabled changes nothing. -/
def recordStep (s : RecordSystem ν α n) : RecordInput ν → RecordSystem ν α n
  | .publish value =>
    match s.publisher with
    | .idle => {s with publisher := .checking value}
    | _ => s
  | .publishStep => publishStep codec s
  | .snapshot => {s with readers := s.readers ++ [.checking]}
  | .snapshotStep slot => {s with readers := s.readers.modify slot (readStep codec s)}

/-- The record under any interleaving. -/
def recordMachine : Machine (RecordSystem ν α n) (RecordInput ν) Unit :=
  ⟨fun s input => (recordStep codec s input, ())⟩

/-- State after an interleaving. -/
def recordRun (inputs : List (RecordInput ν)) : RecordSystem ν α n :=
  (recordMachine codec).run (.new codec) inputs

/-- Value of a publication. -/
def RecordInput.value : RecordInput ν → Option ν
  | .publish value => some value
  | _ => none

/-- The input is an access of the reader in the slot. -/
def RecordInput.accesses (slot : ℕ) : RecordInput ν → Bool
  | .snapshotStep other => other = slot
  | _ => false

/-- First value whose publication was called. -/
def firstPublished (inputs : List (RecordInput ν)) : Option ν :=
  inputs.findSome? RecordInput.value

/-- Value that a flagged record holds. -/
def contents (s : RecordSystem ν α n) : Option ν :=
  if s.valid then codec.decode s.cells else none

/-- The first cells of a buffer are those of the value. -/
def Agrees (value : ν) (next : ℕ) (buffer : Vector α n) : Prop :=
  ∀ i (h : i < n), i < next → buffer.get ⟨i, h⟩ = (codec.encode value).get ⟨i, h⟩

/-- What a publisher has done, before the flag is set. -/
def PublisherAgrees (first : Option ν) (cells : Vector α n) : Publisher ν → Prop
  | .idle => first = none
  | .checking value => first = some value
  | .storing value next => first = some value ∧ Agrees codec value next cells

/-- What a reader has loaded. -/
def ReaderAgrees (first : Option ν) (valid : Bool) : Reader ν α n → Prop
  | .checking => True
  | .loading buffer next => valid = true ∧ ∃ value, first = some value ∧ Agrees codec value next buffer
  | .returned result => result = none ∨ valid = true ∧ result = first

/-- The flag guards the cells of the first value. -/
structure Guarded (first : Option ν) (s : RecordSystem ν α n) : Prop where
  /-- Before the flag is set only the publisher has touched the cells. -/
  unset : s.valid = false → PublisherAgrees codec first s.cells s.publisher
  /-- A set flag guards the cells of the first value, and nobody stores. -/
  set : s.valid = true → (∃ value, first = some value ∧ s.cells = codec.encode value) ∧
    ∀ value next, s.publisher ≠ .storing value next
  /-- Every reader has loaded cells of the first value. -/
  readers : ∀ reader ∈ s.readers, ReaderAgrees codec first s.valid reader

section Steps

variable {codec} {first : Option ν} {value : ν} {buffer : Vector α n} {next : ℕ}
  {s : RecordSystem ν α n}

/-- No cell is claimed at the start. -/
theorem agrees_zero : Agrees codec value 0 buffer := by
  intro i h hlt
  omega

/-- Storing the next cell extends the agreement by it. -/
theorem Agrees.extend (h : Agrees codec value next buffer) (hn : next < n) {cell : α}
    (hc : cell = (codec.encode value).get ⟨next, hn⟩) :
    Agrees codec value (next + 1) (buffer.set next cell hn) := by
  intro i hi hlt
  show (buffer.set next cell hn)[i] = (codec.encode value)[i]
  rw [Vector.getElem_set]
  split
  · next he =>
    subst he
    exact hc
  · exact h i hi (by omega)

/-- Agreement on every cell is the value. -/
theorem Agrees.eq (h : Agrees codec value next buffer) (hn : n ≤ next) :
    buffer = codec.encode value := by
  apply Vector.ext
  intro i hi
  exact h i hi (by omega)

/-- A set flag was set for the first value. -/
theorem Guarded.or (h : Guarded codec first s) (hv : s.valid = true) (later : Option ν) :
    first.or later = first := by
  obtain ⟨value, hf, -⟩ := (h.set hv).1
  rw [hf]
  rfl

/-- Readers keep what they loaded when the first value stays. -/
theorem ReaderAgrees.congr {reader : Reader ν α n} {other : Option ν}
    (h : ReaderAgrees codec first s.valid reader) (ho : s.valid = true → other = first) :
    ReaderAgrees codec other s.valid reader := by
  cases reader with
  | checking => trivial
  | loading buffer next =>
    obtain ⟨hv, hloaded⟩ := h
    rw [ho hv]
    exact ⟨hv, hloaded⟩
  | returned result =>
    rcases h with hnone | ⟨hv, hr⟩
    · exact Or.inl hnone
    · exact Or.inr ⟨hv, hr.trans (ho hv).symm⟩

/-- Setting the flag does not disturb the readers that found it clear. -/
theorem ReaderAgrees.flagged {reader : Reader ν α n}
    (h : ReaderAgrees codec first false reader) : ReaderAgrees codec first true reader := by
  cases reader with
  | checking => trivial
  | loading buffer next => exact absurd h.1 (by decide)
  | returned result =>
    rcases h with hnone | ⟨hv, -⟩
    · exact Or.inl hnone
    · cases hv

/-- Before the flag is set the publisher decides. -/
theorem Guarded.of_unset (hv : s.valid = false)
    (hp : PublisherAgrees codec first s.cells s.publisher)
    (hr : ∀ reader ∈ s.readers, ReaderAgrees codec first s.valid reader) :
    Guarded codec first s :=
  ⟨fun _ => hp, fun hc => Bool.noConfusion (hv.symm.trans hc), hr⟩

/-- Once the flag is set the cells decide. -/
theorem Guarded.of_set (hv : s.valid = true) (hf : first = some value)
    (hc : s.cells = codec.encode value) (hp : ∀ value next, s.publisher ≠ .storing value next)
    (hr : ∀ reader ∈ s.readers, ReaderAgrees codec first s.valid reader) :
    Guarded codec first s :=
  ⟨fun hn => Bool.noConfusion (hv.symm.trans hn), fun _ => ⟨⟨value, hf, hc⟩, hp⟩, hr⟩

/-- One access of the publisher keeps the record guarded. -/
theorem guarded_publishStep (h : Guarded codec first s) :
    Guarded codec first (publishStep codec s) := by
  unfold publishStep
  rcases hp : s.publisher with _ | value | ⟨value, next⟩
  · exact h
  · by_cases hv : s.valid = true
    · obtain ⟨⟨held, hfirst, hcells⟩, -⟩ := h.set hv
      exact .of_set hv hfirst hcells (by simp [hv]) h.readers
    · have hclear := Bool.eq_false_iff.mpr hv
      have hfirst := h.unset hclear
      rw [hp] at hfirst
      refine .of_unset hclear ?_ h.readers
      simp only [if_neg hv]
      exact ⟨hfirst, agrees_zero⟩
  · have hv : s.valid = false := by
      rw [← Bool.not_eq_true]
      exact fun hv => (h.set hv).2 value next hp
    have hstored := h.unset hv
    rw [hp] at hstored
    obtain ⟨hfirst, hagrees⟩ := hstored
    by_cases hn : next < n
    · simp only [dif_pos hn]
      exact .of_unset hv ⟨hfirst, hagrees.extend hn rfl⟩ h.readers
    · simp only [dif_neg hn]
      refine .of_set rfl hfirst (hagrees.eq (by omega)) (by simp) fun reader hm => ?_
      have hreader := h.readers reader hm
      rw [hv] at hreader
      exact hreader.flagged

/-- One access of a reader agrees with the first value. -/
theorem agrees_readStep (h : Guarded codec first s) {reader : Reader ν α n}
    (hr : ReaderAgrees codec first s.valid reader) :
    ReaderAgrees codec first s.valid (readStep codec s reader) := by
  unfold readStep
  cases reader with
  | checking =>
    dsimp only
    split
    · next hv =>
      obtain ⟨value, hfirst, -⟩ := (h.set hv).1
      exact ⟨hv, value, hfirst, agrees_zero⟩
    · exact Or.inl rfl
  | loading buffer next =>
    obtain ⟨hv, value, hfirst, hagrees⟩ := hr
    obtain ⟨other, hother, hcells⟩ := (h.set hv).1
    cases hfirst.symm.trans hother
    by_cases hn : next < n
    · simp only [dif_pos hn]
      exact ⟨hv, value, hfirst, hagrees.extend hn (by rw [hcells])⟩
    · simp only [dif_neg hn]
      refine Or.inr ⟨hv, ?_⟩
      rw [hagrees.eq (by omega), codec.decode_encode, hfirst]
  | returned result => exact hr

/-- A call of a publication keeps the record guarded by the first value. -/
theorem guarded_publish (h : Guarded codec first s) (value : ν) :
    Guarded codec (first.or (some value)) (recordStep codec s (.publish value)) := by
  have hsame : s.publisher ≠ .idle ∨ s.valid = true → first.or (some value) = first := by
    intro hbusy
    by_cases hv : s.valid = true
    · exact h.or hv _
    · have hunset := h.unset (Bool.eq_false_iff.mpr hv)
      rcases hp : s.publisher with _ | held | ⟨held, next⟩
      · exact absurd hp (hbusy.resolve_right hv)
      · rw [hp] at hunset
        rw [show first = some held from hunset]
        rfl
      · rw [hp] at hunset
        rw [hunset.1]
        rfl
  rcases hp : s.publisher with _ | held | ⟨held, next⟩
  · simp only [recordStep, hp]
    refine ⟨fun hv => ?_, fun hv => ⟨?_, by simp⟩, fun reader hm => ?_⟩
    · have hnone := h.unset hv
      rw [hp] at hnone
      rw [show first = none from hnone]
      rfl
    · rw [hsame (Or.inr hv)]
      exact (h.set hv).1
    · exact (h.readers reader hm).congr fun hv => hsame (Or.inr hv)
  · rw [hsame (Or.inl (by simp [hp]))]
    simp only [recordStep, hp]
    exact h
  · rw [hsame (Or.inl (by simp [hp]))]
    simp only [recordStep, hp]
    exact h

/-- Every input keeps the record guarded by the first value called so far. -/
theorem guarded_step (h : Guarded codec first s) (input : RecordInput ν) :
    Guarded codec (first.or input.value) (recordStep codec s input) := by
  cases input with
  | publish value => exact guarded_publish h value
  | publishStep =>
    simp only [RecordInput.value, Option.or_none]
    exact guarded_publishStep h
  | snapshot =>
    simp only [RecordInput.value, Option.or_none]
    refine ⟨h.unset, h.set, fun reader hm => ?_⟩
    rcases List.mem_append.mp hm with hm | hm
    · exact h.readers reader hm
    · rw [List.mem_singleton.mp hm]
      trivial
  | snapshotStep slot =>
    simp only [RecordInput.value, Option.or_none]
    refine ⟨h.unset, h.set, fun reader hm => ?_⟩
    obtain ⟨i, hi⟩ := List.mem_iff_getElem?.mp hm
    simp only [recordStep, List.getElem?_modify] at hi
    obtain ⟨old, hold, hnew⟩ := Option.map_eq_some_iff.mp hi
    have hagrees := h.readers old (List.mem_iff_getElem?.mpr ⟨i, hold⟩)
    rw [← hnew]
    split
    · exact agrees_readStep h hagrees
    · exact hagrees

/-- An access fills the contents with the first value, once, or leaves them. -/
theorem contents_step (h : Guarded codec first s) (input : RecordInput ν) :
    contents codec (recordStep codec s input) = contents codec s ∨
      s.valid = false ∧ ∃ value, first = some value ∧
        contents codec (recordStep codec s input) = some value := by
  cases input with
  | publish value =>
    refine Or.inl ?_
    unfold recordStep
    dsimp only
    split <;> rfl
  | publishStep =>
    simp only [recordStep, publishStep]
    rcases hp : s.publisher with _ | value | ⟨value, next⟩
    · exact Or.inl rfl
    · exact Or.inl rfl
    · have hv : s.valid = false := by
        rw [← Bool.not_eq_true]
        exact fun hv => (h.set hv).2 value next hp
      by_cases hn : next < n
      · simp only [dif_pos hn]
        refine Or.inl ?_
        simp only [contents, hv, Bool.false_eq_true, if_false]
      · have hstored := h.unset hv
        rw [hp] at hstored
        simp only [dif_neg hn]
        refine Or.inr ⟨hv, value, hstored.1, ?_⟩
        rw [contents, if_pos rfl, hstored.2.eq (by omega), codec.decode_encode]
  | snapshot => exact Or.inl rfl
  | snapshotStep slot => exact Or.inl rfl

end Steps

section Runs

/-- The first value of an interleaving stays the first when it goes on. -/
theorem firstPublished_append (before after : List (RecordInput ν)) :
    firstPublished (before ++ after) = (firstPublished before).or (firstPublished after) :=
  List.findSome?_append

/-- One more input of an interleaving. -/
theorem firstPublished_concat (inputs : List (RecordInput ν)) (input : RecordInput ν) :
    firstPublished (inputs ++ [input]) = (firstPublished inputs).or input.value := by
  have hsingle : firstPublished [input] = input.value := by
    rw [firstPublished, List.findSome?_cons]
    cases input.value <;> rfl
  rw [firstPublished_append, hsingle]

/-- After every interleaving the record is guarded by the first value. -/
theorem run_guarded (inputs : List (RecordInput ν)) :
    Guarded codec (firstPublished inputs) (recordRun codec inputs) := by
  induction inputs using List.reverseRecOn with
  | nil => exact .of_unset rfl rfl (by simp [recordRun, RecordSystem.new])
  | append_singleton before input ih =>
    rw [firstPublished_concat]
    unfold recordRun
    rw [run_concat]
    exact guarded_step ih input

/-- A reader returns nothing or the first value. -/
theorem returned_first {inputs : List (RecordInput ν)} {slot : ℕ} {result : Option ν}
    (h : (recordRun codec inputs).readers[slot]? = some (.returned result)) :
    result = none ∨ (recordRun codec inputs).valid = true ∧ result = firstPublished inputs :=
  (run_guarded codec inputs).readers _ (List.mem_iff_getElem?.mpr ⟨slot, h⟩)

/-- A set flag stays set. -/
theorem valid_step {s : RecordSystem ν α n} (h : s.valid = true) (input : RecordInput ν) :
    (recordStep codec s input).valid = true := by
  cases input with
  | publish value =>
    unfold recordStep
    dsimp only
    split <;> exact h
  | publishStep =>
    simp only [recordStep, publishStep]
    split
    · exact h
    · exact h
    · split
      · exact h
      · rfl
  | snapshot => exact h
  | snapshotStep slot => exact h

/-- Accesses a reader still has to make. -/
def Reader.steps : Reader ν α n → ℕ
  | .checking => n + 2
  | .loading _ next => n - next + 1
  | .returned _ => 0

/-- A reader that has found the flag set, or will. -/
def Reader.succeeds : Reader ν α n → Prop
  | .returned result => result ≠ none
  | _ => True

/-- The flag is set, and the reader in the slot started after that. -/
def StartedLate (slot steps : ℕ) (s : RecordSystem ν α n) : Prop :=
  s.valid = true ∧ (∃ first, Guarded codec first s) ∧
    ∃ reader, s.readers[slot]? = some reader ∧ reader.succeeds ∧ reader.steps ≤ steps

variable {codec} {s : RecordSystem ν α n} {slot steps : ℕ}

/-- With the flag set an access brings a reader closer to a value. -/
theorem readStep_succeeds {first : Option ν} (hv : s.valid = true)
    {reader : Reader ν α n} (ha : ReaderAgrees codec first s.valid reader)
    (hr : reader.succeeds) :
    (readStep codec s reader).succeeds ∧ (readStep codec s reader).steps ≤ reader.steps - 1 := by
  unfold readStep
  cases reader with
  | checking =>
    simp only [if_pos hv]
    exact ⟨trivial, by simp only [Reader.steps]; omega⟩
  | loading buffer next =>
    obtain ⟨-, value, hfirst, hagrees⟩ := ha
    by_cases hn : next < n
    · simp only [dif_pos hn]
      exact ⟨trivial, by simp only [Reader.steps]; omega⟩
    · simp only [dif_neg hn]
      refine ⟨?_, Nat.zero_le _⟩
      rw [hagrees.eq (by omega), codec.decode_encode]
      exact Option.some_ne_none _
  | returned result => exact ⟨hr, Nat.zero_le _⟩

/-- The accesses of a late reader, and no others, bring it closer to a value. -/
theorem startedLate_step (h : StartedLate codec slot steps s) (input : RecordInput ν) :
    StartedLate codec slot (if input.accesses slot then steps - 1 else steps)
      (recordStep codec s input) := by
  obtain ⟨hv, ⟨first, hg⟩, reader, hreader, hr, hsteps⟩ := h
  refine ⟨valid_step codec hv input, ⟨_, guarded_step hg input⟩, ?_⟩
  cases input with
  | publish value =>
    refine ⟨reader, ?_, hr, hsteps⟩
    unfold recordStep
    dsimp only
    split <;> exact hreader
  | publishStep =>
    refine ⟨reader, ?_, hr, hsteps⟩
    simp only [recordStep, publishStep]
    split
    · exact hreader
    · exact hreader
    · split <;> exact hreader
  | snapshot =>
    refine ⟨reader, ?_, hr, hsteps⟩
    obtain ⟨hlt, -⟩ := List.getElem?_eq_some_iff.mp hreader
    exact (List.getElem?_append_left hlt).trans hreader
  | snapshotStep other =>
    simp only [recordStep, RecordInput.accesses, List.getElem?_modify, hreader,
      Option.map_eq_map, Option.map_some, decide_eq_true_eq]
    by_cases ho : other = slot
    · have hagrees := hg.readers reader (List.mem_iff_getElem?.mpr ⟨slot, hreader⟩)
      obtain ⟨hnext, hless⟩ := readStep_succeeds hv hagrees hr
      rw [if_pos ho, if_pos ho]
      exact ⟨_, rfl, hnext, by omega⟩
    · rw [if_neg ho, if_neg ho]
      exact ⟨_, rfl, hr, hsteps⟩

/-- Over a whole interleaving a late reader makes its accesses. -/
theorem startedLate_run (h : StartedLate codec slot steps s) (inputs : List (RecordInput ν)) :
    StartedLate codec slot (steps - inputs.countP (RecordInput.accesses slot))
      ((recordMachine codec).run s inputs) := by
  refine run_progress (recordMachine codec) (P := StartedLate codec slot) ?_ ?_ h inputs
  · intro k s input hi hp
    have hnext := startedLate_step hp input
    rw [if_pos hi] at hnext
    exact hnext
  · intro k s input hi hp
    have hnext := startedLate_step hp input
    rw [if_neg (Bool.eq_false_iff.mp hi)] at hnext
    exact hnext

variable (codec)

/-- A reader that starts after another one returned a value returns that value, as soon as it
has made its accesses. -/
theorem late_reader_returns {before : List (RecordInput ν)} {earlier : ℕ} {value : ν}
    (h : (recordRun codec before).readers[earlier]? = some (.returned (some value)))
    (after : List (RecordInput ν)) :
    (∀ result, (recordRun codec (before ++ .snapshot :: after)).readers[
        (recordRun codec before).readers.length]? = some (.returned result) →
      result = some value) ∧
    (n + 2 ≤ after.countP (RecordInput.accesses (recordRun codec before).readers.length) →
      (recordRun codec (before ++ .snapshot :: after)).readers[
        (recordRun codec before).readers.length]? = some (.returned (some value))) := by
  obtain ⟨hv, hfirst⟩ := (returned_first codec h).resolve_left (Option.some_ne_none _)
  have hlate : StartedLate codec (recordRun codec before).readers.length (n + 2)
      (recordStep codec (recordRun codec before) .snapshot) := by
    refine ⟨hv, ⟨_, guarded_step (run_guarded codec before) .snapshot⟩, .checking, ?_, trivial, le_refl _⟩
    exact List.getElem?_concat_length
  have hrun := startedLate_run hlate after
  have hsame : (recordMachine codec).run (recordStep codec (recordRun codec before) .snapshot)
      after = recordRun codec (before ++ .snapshot :: after) := by
    unfold recordRun
    rw [run_append, run_cons]
    rfl
  rw [hsame] at hrun
  obtain ⟨-, -, reader, hreader, hr, hsteps⟩ := hrun
  have hresult : ∀ result, (recordRun codec (before ++ .snapshot :: after)).readers[
      (recordRun codec before).readers.length]? = some (.returned result) →
      result = some value := by
    intro result hx
    rw [hreader, Option.some.injEq] at hx
    rw [hx] at hr hreader
    obtain ⟨-, hvalue⟩ := (returned_first codec hreader).resolve_left hr
    rw [hvalue, firstPublished_append, ← hfirst]
    rfl
  refine ⟨hresult, fun hcount => ?_⟩
  cases reader with
  | checking => exact absurd hsteps (by simp only [Reader.steps]; omega)
  | loading buffer next => exact absurd hsteps (by simp only [Reader.steps]; omega)
  | returned result =>
    rw [hresult result hreader] at hreader
    exact hreader

end Runs

end HisiRfCore.WriteOnceRecord
