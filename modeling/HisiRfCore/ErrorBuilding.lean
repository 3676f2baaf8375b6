import HisiRfCore.Diagnostics
import Mathlib.Data.List.Induction

/-!
# Errors built by chained calls

A backend error starts from a class and a code and is passed through any number of
calls that set its stage, set its revision or add a trace value. What the built
error holds is told by the calls: the last stage and revision, the first values up
to the capacity, and whether there were more.
-/

namespace HisiRfCore.ErrorBuilding

open WifiTypes Diagnostics

/-- One chained call. -/
inductive BuilderStep
  | withStage (stage : DiagnosticStage)
  | withProfileRevision (revision : String)
  | withTrace (kind : DiagnosticTraceKind) (value : UInt32)

/-- Error after one chained call. -/
def BuilderStep.apply (error : BackendError) : BuilderStep → BackendError
  | .withStage stage => error.withStage stage
  | .withProfileRevision revision => error.withProfileRevision revision
  | .withTrace kind value => error.withTrace kind value

/-- Error after a chain of calls. -/
def built (cls : BackendErrorClass) (code : UInt32) (steps : List BuilderStep) : BackendError :=
  steps.foldl BuilderStep.apply (.new cls code)

/-- Stage a call sets. -/
def BuilderStep.stage : BuilderStep → Option DiagnosticStage
  | .withStage stage => some stage
  | _ => none

/-- Revision a call sets. -/
def BuilderStep.revision : BuilderStep → Option String
  | .withProfileRevision revision => some revision
  | _ => none

/-- Entry a call adds. -/
def BuilderStep.entry : BuilderStep → Option DiagnosticTraceEntry
  | .withTrace kind value => some ⟨kind, value⟩
  | _ => none

/-- A trace holds the first of the added entries and knows whether there were more. -/
structure Retains (trace : DiagnosticTrace) (added : List DiagnosticTraceEntry) : Prop where
  length : trace.length = min diagnosticTraceCapacity added.length
  entries : ∀ index (h : index < diagnosticTraceCapacity), trace.entries[index] = added[index]?
  truncated : trace.truncated = decide (diagnosticTraceCapacity < added.length)

section Traces

variable {trace : DiagnosticTrace} {added : List DiagnosticTraceEntry}

theorem new_retains : Retains .new [] where
  length := rfl
  entries index h := by
    rw [DiagnosticTrace.new, Vector.getElem_replicate, List.getElem?_nil]
  truncated := rfl

/-- One more entry is kept in the next slot while there is one. -/
theorem push_retains (h : Retains trace added) (kind : DiagnosticTraceKind) (value : UInt32) :
    Retains (trace.push kind value) (added ++ [⟨kind, value⟩]) := by
  have hlength : trace.len.toNat = _ := h.length
  have hcapacity : diagnosticTraceCapacity = 4 := rfl
  by_cases hfree : trace.len.toNat < diagnosticTraceCapacity
  · -- a free slot means that every entry so far is in its own
    have hadded : trace.len.toNat = added.length := by omega
    have hnext : (trace.len + 1).toNat = trace.len.toNat + 1 := by
      rw [UInt8.toNat_add, Nat.mod_eq_of_lt (by simp only [UInt8.toNat_one]; omega)]
      rfl
    rw [DiagnosticTrace.push, dif_pos hfree]
    refine ⟨?_, ?_, ?_⟩
    · rw [DiagnosticTrace.length, hnext, List.length_append, List.length_singleton]
      omega
    · intro index hindex
      rw [Vector.getElem_set]
      split
      · rename_i heq
        rw [← heq, hadded, List.getElem?_concat_length]
      · rename_i hne
        rw [h.entries index hindex]
        by_cases hbefore : index < added.length
        · rw [List.getElem?_append_left hbefore]
        · rw [List.getElem?_eq_none (by omega), List.getElem?_eq_none (by
            rw [List.length_append, List.length_singleton]
            omega)]
    · rw [h.truncated, List.length_append, List.length_singleton]
      exact decide_eq_decide.mpr (by omega)
  · have hfull : diagnosticTraceCapacity ≤ added.length := by omega
    rw [DiagnosticTrace.push, dif_neg hfree]
    refine ⟨?_, ?_, ?_⟩
    · change trace.len.toNat = _
      rw [List.length_append, List.length_singleton]
      omega
    · intro index hindex
      rw [h.entries index hindex, List.getElem?_append_left (by omega)]
    · rw [List.length_append, List.length_singleton]
      exact (decide_eq_true (by omega)).symm

/-- The entry of every index below the length is there, so no access panics. -/
theorem Retains.get (h : Retains trace added) {index : ℕ} (hindex : index < trace.length) :
    trace.get index = some added[index]? := by
  have hlength := h.length
  have hslot : index < diagnosticTraceCapacity := by omega
  rw [DiagnosticTrace.get, if_pos hindex, Vector.getElem?_eq_getElem hslot, h.entries index hslot]

end Traces

/-- What an error holds after a chain of calls. -/
structure Holds (cls : BackendErrorClass) (code : UInt32) (steps : List BuilderStep)
    (error : BackendError) : Prop where
  errorClass : error.errorClass = cls
  backendCode : error.code = code
  stage : error.stage =
    (steps.filterMap BuilderStep.stage).getLast?.getD (BackendError.new cls code).stage
  revision : error.profileRevision = (steps.filterMap BuilderStep.revision).getLast?
  trace : Retains error.trace (steps.filterMap BuilderStep.entry)

section Chains

variable {cls : BackendErrorClass} {code : UInt32} {steps : List BuilderStep}
  {error : BackendError}

/-- A call of another kind adds nothing to what the calls of one kind gave. -/
theorem others_last {α : Type} {f : BuilderStep → Option α} {step : BuilderStep}
    (h : f step = none) : (steps ++ [step]).filterMap f = steps.filterMap f := by
  rw [List.filterMap_append, List.filterMap_cons_none h, List.filterMap_nil, List.append_nil]

/-- A call of that kind adds its value behind them. -/
theorem own_last {α : Type} {f : BuilderStep → Option α} {step : BuilderStep} {value : α}
    (h : f step = some value) : (steps ++ [step]).filterMap f = steps.filterMap f ++ [value] := by
  rw [List.filterMap_append, List.filterMap_cons_some h, List.filterMap_nil]

/-- One more call changes what it sets and keeps the rest. -/
theorem apply_holds (h : Holds cls code steps error) (step : BuilderStep) :
    Holds cls code (steps ++ [step]) (step.apply error) := by
  obtain ⟨hclass, hcode, hstage, hrevision, htrace⟩ := h
  cases step with
  | withStage stage =>
    have hown : (BuilderStep.withStage stage).stage = some stage := rfl
    refine ⟨hclass, hcode, ?_, ?_, ?_⟩
    · rw [own_last hown, List.getLast?_concat]
      rfl
    · rw [others_last rfl]
      exact hrevision
    · rw [others_last rfl]
      exact htrace
  | withProfileRevision revision =>
    have hown : (BuilderStep.withProfileRevision revision).revision = some revision := rfl
    refine ⟨hclass, hcode, ?_, ?_, ?_⟩
    · rw [others_last rfl]
      exact hstage
    · rw [own_last hown, List.getLast?_concat]
      rfl
    · rw [others_last rfl]
      exact htrace
  | withTrace kind value =>
    have hown : (BuilderStep.withTrace kind value).entry = some ⟨kind, value⟩ := rfl
    refine ⟨hclass, hcode, ?_, ?_, ?_⟩
    · rw [others_last rfl]
      exact hstage
    · rw [others_last rfl]
      exact hrevision
    · rw [own_last hown]
      exact push_retains htrace kind value

/-- A chain of any length leaves the error its calls tell. -/
theorem built_holds (cls : BackendErrorClass) (code : UInt32) (steps : List BuilderStep) :
    Holds cls code steps (built cls code steps) := by
  induction steps using List.reverseRecOn with
  | nil => exact ⟨rfl, rfl, rfl, rfl, new_retains⟩
  | append_singleton steps step ih =>
    rw [built, List.foldl_append]
    exact apply_holds ih step

end Chains

end HisiRfCore.ErrorBuilding
