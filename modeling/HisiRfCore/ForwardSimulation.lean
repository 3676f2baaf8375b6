import HisiRfCore.InputOutputMachine

/-!
# Forward simulation of what a machine shows

A labelled transition system says in which order labels may follow one another. A
machine shows a label with some of its inputs and none with the others. If a relation
between the states of both is kept, one step of the machine at a time, then whatever a
run of the machine shows is a trace of the labelled system, and ends in a related state.
-/

namespace HisiRfCore.ForwardSimulation

open InputOutputMachine

variable {α ε σ ι ο : Type*}

/-- Labels of a path from one state to another, in order. -/
inductive Trace (turn : α → ε → α → Prop) (a : α) : List ε → α → Prop
  | nil : Trace turn a [] a
  | snoc {b c : α} {labels : List ε} {label : ε} (before : Trace turn a labels b)
      (last : turn b label c) : Trace turn a (labels ++ [label]) c

/-- A label is one turn; without a label the state stays. -/
def Said (turn : α → ε → α → Prop) (a : α) : Option ε → α → Prop
  | none, b => b = a
  | some label, b => turn a label b

variable {turn : α → ε → α → Prop} {a b c : α} {labels : List ε}

/-- What every turn keeps holds at the end of every trace. -/
theorem Trace.invariant {P : α → Prop} (hturn : ∀ a label b, P a → turn a label b → P b)
    (h : Trace turn a labels b) (ha : P a) : P b := by
  induction h with
  | nil => exact ha
  | snoc _ hlast ih => exact hturn _ _ _ ih hlast

/-- What is said after a trace extends it. -/
theorem Trace.say {said : Option ε} (h : Trace turn a labels b) (hs : Said turn b said c) :
    Trace turn a (labels ++ said.toList) c := by
  cases said with
  | none =>
    have hc : c = b := hs
    rw [hc, Option.toList_none, List.append_nil]
    exact h
  | some label => exact Trace.snoc h hs

/-- A relation kept by every input, with the turn that the input shows, is kept along the
run, and what the run shows is a trace. -/
theorem run_traced (m : Machine σ ι ο) {R : σ → α → Prop} {see : σ → ι → Option ε}
    (hstep : ∀ s i a, R s a → ∃ b, R (m.next s i) b ∧ Said turn a (see s i) b) {s : σ}
    (h : R s a) (inputs : List ι) :
    ∃ b, R (m.run s inputs) b ∧ Trace turn a (m.observed see s inputs) b := by
  induction inputs using List.reverseRecOn with
  | nil => exact ⟨a, h, Trace.nil⟩
  | append_singleton before i ih =>
    obtain ⟨b, hr, htrace⟩ := ih
    obtain ⟨c, hnext, hsaid⟩ := hstep _ i b hr
    rw [run_concat, observed_concat]
    exact ⟨c, hnext, htrace.say hsaid⟩

end HisiRfCore.ForwardSimulation
