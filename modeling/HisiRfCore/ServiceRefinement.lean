import HisiRfCore.BlockingAbandonment
import HisiRfCore.BlockingService
import HisiRfCore.IncrementalService
import HisiRfCore.ForwardSimulation

/-!
# Both runners refine the command service

After each step of either system its controller and the state that both parties share
are those of one run of the abstract service, which takes one step at a time with them.
What every service step keeps therefore holds in every state of either system.
-/

namespace HisiRfCore.ServiceRefinement

open InputOutputMachine ForwardSimulation WifiTypes IncrementalContract RadioStorage AsyncControl
open DriverCalls BlockingRunner BlockingAbandonment IncrementalInterleaving IncrementalService ServiceProtocol

variable {eventCapacity : ℕ}

/-- The controller and the state that it shares with its runner. -/
abbrev Shown (eventCapacity : ℕ) := ControlPlane × SharedState eventCapacity

/-- A service step and what it leaves to be seen. -/
def Shows (t : Service eventCapacity) (shown : Shown eventCapacity) (u : Service eventCapacity) :
    Prop :=
  ServiceStep t u ∧ shown = (u.plane, u.shared)

section Refinement

variable {σ ι ο : Type} (m : Machine σ ι ο) (view : σ → Shown eventCapacity)

/-- What a run leaves to be seen after each of its steps. -/
def shownAlong (start : σ) (inputs : List ι) : List (Shown eventCapacity) :=
  m.observed (fun s i => some (view (m.next s i))) start inputs

/-- Whatever a system shows along a run, a run of the service shows. -/
def RefinesService (start : σ) (hpos : 0 < eventCapacity) : Prop :=
  ∀ inputs, ∃ t, Trace Shows (Service.new hpos) (shownAlong m view start inputs) t ∧
    view (m.run start inputs) = (t.plane, t.shared)

variable {m view} {start : σ} {hpos : 0 < eventCapacity}

/-- A simulation step by step is a refinement. -/
theorem refines_of_step {R : σ → Service eventCapacity → Prop}
    (hread : ∀ s t, R s t → view s = (t.plane, t.shared))
    (hstep : ∀ s t i, R s t → Bounded t → ∃ u, ServiceStep t u ∧ R (m.next s i) u)
    (h0 : R start (Service.new hpos)) : RefinesService m view start hpos := by
  intro inputs
  have hturn : ∀ s i t, R s t ∧ Bounded t → ∃ u, (R (m.next s i) u ∧ Bounded u) ∧
      Said Shows t (some (view (m.next s i))) u := by
    rintro s i t ⟨hr, hb⟩
    obtain ⟨u, hs, hu⟩ := hstep s t i hr hb
    exact ⟨u, ⟨hu, service_bounded hb hs⟩, hs, hread _ _ hu⟩
  obtain ⟨t, ⟨hr, -⟩, htrace⟩ := run_traced m hturn ⟨h0, bounded_new hpos⟩ inputs
  exact ⟨t, htrace, hread _ _ hr⟩

/-- A refinement inherits what every service step keeps. -/
theorem RefinesService.safe (h : RefinesService m view start hpos)
    {P : Service eventCapacity → Prop} (h0 : P (Service.new hpos))
    (hkeep : ∀ t u, P t → ServiceStep t u → P u) (inputs : List ι) :
    ∃ t, P t ∧ view (m.run start inputs) = (t.plane, t.shared) := by
  obtain ⟨t, htrace, hshown⟩ := h inputs
  exact ⟨t, htrace.invariant (fun t _ u hp hs => hkeep t u hp hs.1) h0, hshown⟩

end Refinement

variable {B I E F : Type} [WifiBackend B] [IncrementalWifiBackend I]

/-- Every run of either runner, with whatever its controller, its backend and the outside
do in between, shows step by step what a run of the service shows. -/
theorem runners_refine (hpos : 0 < eventCapacity) (config : WifiConfig) :
    (∀ (interrupt : E → B → B) (backend : B),
      RefinesService (blockingMachine interrupt)
        (fun s => (s.plane, s.frame.shared)) (blockingStart backend config hpos) hpos) ∧
    ∀ (interrupt : F → I → I) (backend : I) (budget : WorkBudget),
      RefinesService (incrementalMachine interrupt)
        (fun s => (s.plane, s.frame.shared)) (incrementalStart backend budget config hpos) hpos := by
  constructor
  · intro interrupt backend
    refine refines_of_step (R := BlockingService.Simulates) ?_ ?_
      (BlockingService.simulates_start backend config hpos)
    · intro s t hs
      rw [hs.plane, hs.shared]
    · intro s t i hs _
      exact BlockingService.simulates_step interrupt hs i
  · intro interrupt backend budget
    refine refines_of_step (R := IncrementalService.Simulates) ?_ ?_
      (IncrementalService.simulates_start backend budget config hpos)
    · intro s t hs
      rw [hs.plane, hs.shared]
    · intro s t i hs hb
      exact IncrementalService.simulates_step interrupt hs hb i

/-- Both runners over backends that answer from a script, with one event slot. -/
theorem runners_refine_scripted :
    RefinesService (blockingMachine fun (_ : Unit) backend => backend)
      (fun s => (s.plane, s.frame.shared))
      (blockingStart (⟨[]⟩ : ScriptedBackend) .default Nat.one_pos) Nat.one_pos ∧
    RefinesService (incrementalMachine fun (_ : Unit) backend => backend)
      (fun s => (s.plane, s.frame.shared))
      (incrementalStart completingBackend smallestBudget .default Nat.one_pos) Nat.one_pos := by
  have h := @runners_refine 1 ScriptedBackend ReplayBackend Unit Unit _ _ Nat.one_pos .default
  exact ⟨h.1 (fun _ backend => backend) ⟨[]⟩, h.2 (fun _ backend => backend) completingBackend
    smallestBudget⟩

end HisiRfCore.ServiceRefinement
