import Mathlib.Algebra.Order.Ring.Nat
import Mathlib.Data.List.Induction

/-!
# Deterministic machines driven by an input schedule

Every run is a list of inputs chosen by an adversary: calls, scheduler choices
and outside events are all inputs. The transcript pairs each input with the
output it produced. Invariants and simulations are proved from one step and
extended to whole runs here, once.
-/

namespace HisiRfCore.InputOutputMachine

/-- A total step function; an input that is not enabled leaves the state alone. -/
structure Machine (σ ι ο : Type*) where
  /-- Next state and observable output of one input. -/
  step : σ → ι → σ × ο

variable {σ ι ο α : Type*}

/-- Inputs of a schedule in order, each with the output it produced. -/
def Machine.transcript (m : Machine σ ι ο) : σ → List ι → List (ι × ο)
  | _, [] => []
  | s, i :: rest => (i, (m.step s i).2) :: m.transcript (m.step s i).1 rest

/-- Every input of the schedule meets a condition on the state that it finds. -/
def Machine.Along (m : Machine σ ι ο) (P : σ → ι → Prop) : σ → List ι → Prop
  | _, [] => True
  | s, i :: rest => P s i ∧ m.Along P (m.step s i).1 rest

/-- A property holds from the present state until an input releases it, or to the end. -/
def Machine.Until (m : Machine σ ι ο) (P : σ → Prop) (R : σ → ι → Prop) : σ → List ι → Prop
  | s, [] => P s
  | s, i :: rest => P s ∧ (R s i ∨ m.Until P R (m.step s i).1 rest)

/-- The condition is checked by running the schedule. -/
instance Machine.decidableAlong (m : Machine σ ι ο) (P : σ → ι → Prop)
    [∀ s i, Decidable (P s i)] : ∀ s inputs, Decidable (m.Along P s inputs)
  | _, [] => inferInstanceAs (Decidable True)
  | s, i :: rest =>
    have := m.decidableAlong P (m.step s i).1 rest
    inferInstanceAs (Decidable (P s i ∧ m.Along P (m.step s i).1 rest))

/-- What a schedule lets an observer see, one observation at most for each input. -/
def Machine.observed (m : Machine σ ι ο) (see : σ → ι → Option α) : σ → List ι → List α
  | _, [] => []
  | s, i :: rest => (see s i).toList ++ m.observed see (m.step s i).1 rest

variable (m : Machine σ ι ο)

/-- State after one input. -/
def Machine.next (s : σ) (i : ι) : σ := (m.step s i).1

/-- Output of one input. -/
def Machine.output (s : σ) (i : ι) : ο := (m.step s i).2

/-- State after a whole schedule. -/
def Machine.run (s : σ) (inputs : List ι) : σ := inputs.foldl m.next s

@[simp] theorem run_nil (s : σ) : m.run s [] = s := rfl

@[simp] theorem run_cons (s : σ) (i : ι) (rest : List ι) :
    m.run s (i :: rest) = m.run (m.next s i) rest := rfl

/-- A schedule may be cut anywhere and resumed. -/
theorem run_append (s : σ) (before after : List ι) :
    m.run s (before ++ after) = m.run (m.run s before) after :=
  List.foldl_append

@[simp] theorem run_concat (s : σ) (before : List ι) (i : ι) :
    m.run s (before ++ [i]) = m.next (m.run s before) i := by
  rw [run_append, run_cons, run_nil]

/-- The transcript of a cut schedule is cut at the same place. -/
theorem transcript_append (s : σ) (before after : List ι) :
    m.transcript s (before ++ after) =
      m.transcript s before ++ m.transcript (m.run s before) after := by
  induction before generalizing s with
  | nil => rfl
  | cons i rest ih => simp only [List.cons_append, Machine.transcript, run_cons, Machine.next, ih]

@[simp] theorem transcript_concat (s : σ) (before : List ι) (i : ι) :
    m.transcript s (before ++ [i]) =
      m.transcript s before ++ [(i, m.output (m.run s before) i)] := by
  rw [transcript_append]
  rfl

/-- The observations of a cut schedule are cut at the same place. -/
theorem observed_append (see : σ → ι → Option α) (s : σ) (before after : List ι) :
    m.observed see s (before ++ after) =
      m.observed see s before ++ m.observed see (m.run s before) after := by
  induction before generalizing s with
  | nil => rfl
  | cons i rest ih =>
    simp only [List.cons_append, Machine.observed, run_cons, Machine.next, ih, List.append_assoc]

@[simp] theorem observed_concat (see : σ → ι → Option α) (s : σ) (before : List ι) (i : ι) :
    m.observed see s (before ++ [i]) =
      m.observed see s before ++ (see (m.run s before) i).toList := by
  rw [observed_append]
  exact congrArg (m.observed see s before ++ ·) (List.append_nil _)

/-- The transcript has one entry for each input. -/
theorem transcript_length (s : σ) (inputs : List ι) :
    (m.transcript s inputs).length = inputs.length := by
  induction inputs generalizing s with
  | nil => rfl
  | cons i rest ih => simp only [Machine.transcript, List.length_cons, ih]

/-- An entry of the transcript is an input of the schedule with its output. -/
theorem mem_transcript {s : σ} {inputs : List ι} {i : ι} {o : ο} :
    (i, o) ∈ m.transcript s inputs ↔
      ∃ before after, inputs = before ++ i :: after ∧ m.output (m.run s before) i = o := by
  constructor
  · induction inputs generalizing s with
    | nil => exact fun h => by cases h
    | cons first rest ih =>
      intro h
      rcases List.mem_cons.mp h with h | h
      · cases h
        exact ⟨[], rest, rfl, rfl⟩
      · obtain ⟨before, after, he, ho⟩ := ih h
        exact ⟨first :: before, after, by rw [he, List.cons_append], ho⟩
  · rintro ⟨before, after, rfl, rfl⟩
    rw [transcript_append]
    exact List.mem_append_right _ List.mem_cons_self

/-- An invariant kept by every input holds after every schedule. -/
theorem run_invariant {I : σ → Prop} {s : σ} (h0 : I s)
    (hstep : ∀ s i, I s → I (m.next s i)) (inputs : List ι) : I (m.run s inputs) := by
  induction inputs using List.reverseRecOn with
  | nil => exact h0
  | append_singleton before i ih =>
    rw [run_concat]
    exact hstep _ _ ih

/-- The same rule for a relation between the transcript so far and the state.
The guard is a property of the whole transcript that every prefix inherits. -/
theorem transcript_invariant {I : List (ι × ο) → σ → Prop} {G : List (ι × ο) → Prop} {s : σ}
    (h0 : I [] s) (hguard : ∀ h x, G (h ++ [x]) → G h)
    (hstep : ∀ h s i, G (h ++ [(i, m.output s i)]) → I h s →
      I (h ++ [(i, m.output s i)]) (m.next s i))
    (inputs : List ι) (hg : G (m.transcript s inputs)) :
    I (m.transcript s inputs) (m.run s inputs) := by
  induction inputs using List.reverseRecOn with
  | nil => exact h0
  | append_singleton before i ih =>
    rw [transcript_concat] at hg ⊢
    rw [run_concat]
    exact hstep _ _ _ hg (ih (hguard _ _ hg))

/-- The same rule under a bound on the final state that every earlier state inherits. -/
theorem run_invariant_below {I B : σ → Prop} {s : σ} (h0 : I s)
    (hbound : ∀ before i, B (m.next (m.run s before) i) → B (m.run s before))
    (hstep : ∀ s i, B (m.next s i) → I s → I (m.next s i))
    (inputs : List ι) (hb : B (m.run s inputs)) : I (m.run s inputs) := by
  induction inputs using List.reverseRecOn with
  | nil => exact h0
  | append_singleton before i ih =>
    rw [run_concat] at hb ⊢
    exact hstep _ _ hb (ih (hbound _ _ hb))

/-- The last input meets the condition after all the earlier ones. -/
@[simp] theorem along_concat {P : σ → ι → Prop} {s : σ} {inputs : List ι} {i : ι} :
    m.Along P s (inputs ++ [i]) ↔ m.Along P s inputs ∧ P (m.run s inputs) i := by
  induction inputs generalizing s with
  | nil => simp [Machine.Along]
  | cons first rest ih => simp only [List.cons_append, Machine.Along, run_cons, Machine.next, ih, and_assoc]

/-- A relation between transcript and state kept by every input that meets the condition
holds after every such schedule. -/
theorem along_invariant {P : σ → ι → Prop} {I : List (ι × ο) → σ → Prop} {s : σ} (h0 : I [] s)
    (hstep : ∀ h s i, P s i → I h s → I (h ++ [(i, m.output s i)]) (m.next s i))
    {inputs : List ι} (h : m.Along P s inputs) : I (m.transcript s inputs) (m.run s inputs) := by
  induction inputs using List.reverseRecOn with
  | nil => exact h0
  | append_singleton before i ih =>
    rw [along_concat] at h
    rw [transcript_concat, run_concat]
    exact hstep _ _ _ h.2 (ih h.1)

/-- What every input keeps unless it produces a certain output holds after the schedule,
or the output was produced on the way. -/
theorem run_until {I P : σ → Prop} {Q : ο → Prop} (hinv : ∀ s i, I s → I (m.next s i))
    (hstep : ∀ s i, I s → P s → P (m.next s i) ∨ Q (m.output s i)) {s : σ} (hi : I s) (hp : P s)
    (inputs : List ι) : P (m.run s inputs) ∨ ∃ x ∈ m.transcript s inputs, Q x.2 := by
  induction inputs generalizing s with
  | nil => exact Or.inl hp
  | cons i rest ih =>
    rcases hstep s i hi hp with hnext | hq
    · rcases ih (hinv s i hi) hnext with hrun | ⟨x, hx, hq⟩
      · exact Or.inl hrun
      · exact Or.inr ⟨x, List.mem_cons_of_mem _ hx, hq⟩
    · exact Or.inr ⟨(i, m.output s i), List.mem_cons_self, hq⟩

/-- What every input keeps or releases is kept until it is released. -/
theorem until_of_step {P : σ → Prop} {R : σ → ι → Prop}
    (hstep : ∀ s i, P s → R s i ∨ P (m.next s i)) {s : σ} (hp : P s) (inputs : List ι) :
    m.Until P R s inputs := by
  induction inputs generalizing s with
  | nil => exact hp
  | cons i rest ih =>
    refine ⟨hp, ?_⟩
    rcases hstep s i hp with hr | hnext
    · exact Or.inl hr
    · exact Or.inr (ih hnext)

/-- A bound inherited backwards by one input is inherited by every earlier state. -/
theorem bound_of_append {B : σ → Prop} {s : σ}
    (hbound : ∀ before i, B (m.next (m.run s before) i) → B (m.run s before))
    {before after : List ι} (hb : B (m.run s (before ++ after))) : B (m.run s before) := by
  induction after using List.reverseRecOn with
  | nil => simpa only [List.append_nil] using hb
  | append_singleton after i ih =>
    rw [← List.append_assoc, run_concat] at hb
    exact ih (hbound _ _ hb)

/-- A rank that the counted inputs lower and the others keep is lowered by a run
as often as the run has counted inputs. -/
theorem run_progress {P : ℕ → σ → Prop} {counted : ι → Bool}
    (hcounted : ∀ n s i, counted i = true → P n s → P (n - 1) (m.next s i))
    (hother : ∀ n s i, counted i = false → P n s → P n (m.next s i))
    {n : ℕ} {s : σ} (h : P n s) (inputs : List ι) :
    P (n - inputs.countP counted) (m.run s inputs) := by
  induction inputs generalizing n s with
  | nil => exact h
  | cons i rest ih =>
    rw [run_cons]
    by_cases hi : counted i = true
    · have hc := ih (hcounted n s i hi h)
      rw [List.countP_cons_of_pos hi]
      rwa [Nat.sub_sub, Nat.add_comm 1] at hc
    · have hc := ih (hother n s i (Bool.eq_false_iff.mpr hi) h)
      rwa [List.countP_cons_of_neg hi]

/-- A rank that no input raises by more than it issues, and that a run raises by all
that was issued, is raised by all that was issued up to each moment of the run. -/
theorem run_tight {rank : σ → ℕ} {issue : ι → Option α}
    (hstep : ∀ s i, rank (m.next s i) ≤ rank s + (issue i).toList.length) {s : σ}
    {before after : List ι}
    (h : rank s + ((before ++ after).filterMap issue).length ≤ rank (m.run s (before ++ after))) :
    rank (m.run s before) = rank s + (before.filterMap issue).length := by
  have hle : ∀ (inputs : List ι) (s : σ),
      rank (m.run s inputs) ≤ rank s + (inputs.filterMap issue).length := by
    intro inputs
    induction inputs with
    | nil => exact fun _ => Nat.le_refl _
    | cons i rest ih =>
      intro s
      have hfirst := hstep s i
      have hrest := ih (m.next s i)
      have hlen : ((i :: rest).filterMap issue).length =
          (issue i).toList.length + (rest.filterMap issue).length := by
        cases hi : issue i with
        | none => rw [List.filterMap_cons_none hi, Option.toList_none, List.length_nil, Nat.zero_add]
        | some a =>
          rw [List.filterMap_cons_some hi, List.length_cons, Option.toList_some,
            List.length_singleton, Nat.add_comm]
      rw [run_cons, hlen]
      omega
  have hbefore := hle before s
  have hafter := hle after (m.run s before)
  rw [run_append, List.filterMap_append, List.length_append] at h
  omega

/-- A ranking argument against adverse inputs. While a goal is not reached the rank is positive,
every counted input lowers it, and a step may raise it by what it adds to an account; then a run
with as many counted inputs as the rank, and what the run adds to the account, reaches the goal. -/
theorem run_ranked {I D : σ → Prop} {A : ι → Prop} {R K : σ → ℕ} {C : ι → Bool}
    (hinv : ∀ s i, A i → I s → I (m.next s i)) (hdone : ∀ s i, I s → D s → D (m.next s i))
    (hstep : ∀ s i, A i → I s → ¬ D s →
      D (m.next s i) ∨ R (m.next s i) + (C i).toNat + K s ≤ R s + K (m.next s i))
    (hpos : ∀ s, I s → ¬ D s → 0 < R s) {s : σ} (hi : I s) (inputs : List ι)
    (ha : ∀ i ∈ inputs, A i) (hle : R s + K (m.run s inputs) ≤ inputs.countP C + K s) :
    D (m.run s inputs) := by
  have hbound : ∀ inputs : List ι, (∀ i ∈ inputs, A i) → I (m.run s inputs) ∧
      (D (m.run s inputs) ∨
        R (m.run s inputs) + inputs.countP C + K s ≤ R s + K (m.run s inputs)) := by
    intro inputs ha
    induction inputs using List.reverseRecOn with
    | nil => exact ⟨hi, Or.inr (Nat.le_refl _)⟩
    | append_singleton before i ih =>
      obtain ⟨hinv', hrank⟩ := ih fun j hj => ha j (List.mem_append_left _ hj)
      have hai : A i := ha i (List.mem_append_right _ (List.mem_singleton_self i))
      rw [run_concat]
      refine ⟨hinv _ _ hai hinv', ?_⟩
      by_cases hd : D (m.run s before)
      · exact Or.inl (hdone _ _ hinv' hd)
      · rcases hstep _ i hai hinv' hd with hgoal | hlower
        · exact Or.inl hgoal
        · have hle := hrank.resolve_left hd
          have hcount : [i].countP C = (C i).toNat := by
            cases hc : C i <;> simp [hc]
          rw [List.countP_append, hcount]
          exact Or.inr (by omega)
  obtain ⟨hend, hrank⟩ := hbound inputs ha
  by_contra hd
  have hlower := hrank.resolve_left hd
  have hpositive := hpos _ hend hd
  omega

end HisiRfCore.InputOutputMachine
