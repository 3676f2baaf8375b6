import HisiRfCore.IncrementalFacade

/-!
# Interleaving of the controller and the incremental runner

A call of the incremental runner is cut at each operation on the command,
cancellation and completion channels, and at the backend call; controller steps
and backend events may fall between any two cuts. Run without interruption the
pieces are a whole call. The machine of whole calls is the same system where
nothing falls inside a call.
-/

namespace HisiRfCore.IncrementalInterleaving

open StateBorrow BoundedChannel WifiTypes RadioStorage AsyncControl IncrementalContract
open CommandArbitration BackendDriver IncrementalFacade InputOutputMachine

/-- Where the runner stands between two atomic steps of a call. -/
inductive IncrementalPhase
  | idle
  | submitting (command : Command) (ready : WaitSet)
  | sampling (ready : WaitSet)
  | requesting (taken : UInt32) (ready : WaitSet)
  | driving (ready : WaitSet)
  | publishing (event : IncrementalDriverEvent)
  deriving DecidableEq

/-- The controller and the incremental runner. -/
structure IncrementalSystem (B : Type) (eventCapacity : ℕ) where
  /-- The controller's side. -/
  plane : ControlPlane
  /-- Runner and shared state. -/
  frame : FacadeFrame B eventCapacity
  /-- Position of the runner. -/
  phase : IncrementalPhase

/-- Result of a whole call. -/
abbrev CallResult := Except IncrementalRadioRunnerError IncrementalDriverEvent

/-- One atomic step of the system. -/
inductive IncrementalInput (E : Type)
  | control (step : ControlStep)
  | runner (ready : WaitSet)
  | backendEvent (event : E)

variable {B E : Type} {eventCapacity : ℕ}

/-- A claimed radio with its incremental runner, before the first call. -/
def incrementalStart (backend : B) (budget : WorkBudget) (config : WifiConfig)
    (h : 0 < eventCapacity) : IncrementalSystem B eventCapacity :=
  ⟨.new, ⟨.new backend budget config, .new h⟩, .idle⟩

/-- A backend event changes the backend of the runner alone. -/
def FacadeFrame.interrupt (interrupt : E → B → B) (event : E)
    (frame : FacadeFrame B eventCapacity) : FacadeFrame B eventCapacity :=
  {frame with
    runner := {frame.runner with
      driver := {frame.runner.driver with
        backend := interrupt event frame.runner.driver.backend}}}

variable [IncrementalWifiBackend B]

/-- One atomic step of the runner; it returns a value when the call returns. The
ready set is read when a call begins. -/
def runnerStep (ready : WaitSet) (s : IncrementalSystem B eventCapacity) :
    IncrementalSystem B eventCapacity × Option CallResult :=
  match s.phase with
  | .idle =>
    match receiveCommand (beginCall ready s.frame) with
    | (some command, frame) =>
      ({s with frame := frame, phase := .submitting command ready}, none)
    | (none, frame) => ({s with frame := frame, phase := .sampling ready}, none)
  | .submitting command ready =>
    match acceptCommand command s.frame with
    | .ok () frame => ({s with frame := frame, phase := .sampling ready}, none)
    | .error error frame => ({s with frame := frame, phase := .idle}, some (.error error))
  | .sampling ready =>
    match receiveCancellation s.frame with
    | (some taken, frame) => ({s with frame := frame, phase := .requesting taken ready}, none)
    | (none, frame) => ({s with frame := frame, phase := .driving ready}, none)
  | .requesting taken ready =>
    match requestCancellation taken s.frame with
    | .ok none frame => ({s with frame := frame, phase := .driving ready}, none)
    | .ok (some event) frame => ({s with frame := frame, phase := .idle}, some (.ok event))
    | .error error frame => ({s with frame := frame, phase := .idle}, some (.error error))
  | .driving ready =>
    match driveBackend ready s.frame with
    | .ok event frame => ({s with frame := frame, phase := .publishing event}, none)
    | .error error frame => ({s with frame := frame, phase := .idle}, some (.error error))
  | .publishing event =>
    match publishDriven event s.frame with
    | .ok () frame => ({s with frame := frame, phase := .idle}, some (.ok event))
    | .error error frame => ({s with frame := frame, phase := .idle}, some (.error error))

/-- The controller and the incremental runner as a machine over atomic steps. -/
def incrementalMachine (interrupt : E → B → B) :
    Machine (IncrementalSystem B eventCapacity) (IncrementalInput E) (Option CallResult) where
  step s
    | .control step =>
      let (plane, shared) := s.plane.step s.frame.shared step
      ({s with plane := plane, frame := {s.frame with shared := shared}}, none)
    | .runner ready => runnerStep ready s
    | .backendEvent event =>
      ({s with frame := FacadeFrame.interrupt interrupt event s.frame}, none)

/-- One whole step of the system. -/
inductive FacadeInput (E : Type)
  | control (step : ControlStep)
  | runOnce (ready : WaitSet)
  | backendEvent (event : E)

/-- The controller and the runner between two calls. -/
structure FacadeSystem (B : Type) (eventCapacity : ℕ) where
  /-- The controller's side. -/
  plane : ControlPlane
  /-- Runner and shared state. -/
  frame : FacadeFrame B eventCapacity

/-- The system between two calls, as a state of the interleaving. -/
def FacadeSystem.between (s : FacadeSystem B eventCapacity) : IncrementalSystem B eventCapacity :=
  ⟨s.plane, s.frame, .idle⟩

/-- The controller and the incremental runner as a machine over whole calls. -/
def facadeMachine (interrupt : E → B → B) :
    Machine (FacadeSystem B eventCapacity) (FacadeInput E) (Option CallResult) where
  step s
    | .control step =>
      let (plane, shared) := s.plane.step s.frame.shared step
      (⟨plane, {s.frame with shared := shared}⟩, none)
    | .runOnce ready =>
      let result := runOnce ready s.frame
      (⟨s.plane, after result⟩, some (reply result))
    | .backendEvent event => (⟨s.plane, FacadeFrame.interrupt interrupt event s.frame⟩, none)

section WholeCalls

/-- The runner's own steps from a state to the return of its call. -/
inductive Returns (ready : WaitSet) :
    IncrementalSystem B eventCapacity → CallResult → IncrementalSystem B eventCapacity → Prop
  | last {s next : IncrementalSystem B eventCapacity} {result : CallResult}
      (h : runnerStep ready s = (next, some result)) : Returns ready s result next
  | step {s m next : IncrementalSystem B eventCapacity} {result : CallResult}
      (h : runnerStep ready s = (m, none)) (rest : Returns ready m result next) :
      Returns ready s result next

/-- What the runner's own steps keep holds when its call returns. -/
theorem returns_invariant {I : IncrementalSystem B eventCapacity → Prop} {ready : WaitSet}
    (hstep : ∀ s, I s → I (runnerStep ready s).1) {s next : IncrementalSystem B eventCapacity}
    {result : CallResult} (hr : Returns ready s result next) (h : I s) : I next := by
  induction hr with
  | last hlast =>
    have hi := hstep _ h
    rw [hlast] at hi
    exact hi
  | step hfirst rest ih =>
    have hi := hstep _ h
    rw [hfirst] at hi
    exact ih hi

/-- What holds at each inner step of a call gives what holds when the call returns. -/
theorem returns_result (ready : WaitSet) {J : IncrementalSystem B eventCapacity → Prop}
    {F : CallResult → IncrementalSystem B eventCapacity → Prop}
    (hstep : ∀ s m, J s → runnerStep ready s = (m, none) → J m)
    (hlast : ∀ s m result, J s → runnerStep ready s = (m, some result) → F result m)
    {s next : IncrementalSystem B eventCapacity} {result : CallResult}
    (hr : Returns ready s result next) (h : J s) : F result next := by
  induction hr with
  | last hl => exact hlast _ _ _ h hl
  | step hfirst rest ih => exact ih (hstep _ _ h hfirst)

variable {plane : ControlPlane}

/-- From the backend call on, the steps are the end of the call. -/
theorem driving_returns (ready : WaitSet) (frame : FacadeFrame B eventCapacity) :
    Returns ready ⟨plane, frame, .driving ready⟩ (reply (driveAndPublish ready frame))
      ⟨plane, after (driveAndPublish ready frame), .idle⟩ := by
  unfold driveAndPublish
  cases hd : driveBackend ready frame with
  | error error frame' =>
    rw [bind_error hd]
    refine .last ?_
    simp only [runnerStep, hd, after_error, reply_error]
  | ok event frame' =>
    rw [bind_ok hd]
    refine .step (m := ⟨plane, frame', .publishing event⟩) ?_ ?_
    · simp only [runnerStep, hd]
    · cases hp : publishDriven event frame' with
      | error error frame'' =>
        rw [bind_error hp]
        refine .last ?_
        simp only [runnerStep, hp, after_error, reply_error]
      | ok value frame'' =>
        rw [bind_ok hp]
        refine .last ?_
        simp only [runnerStep, hp, pure_apply, after_ok, reply_ok]

/-- From the sampling of the cancellations on, the steps are the rest of the call. -/
theorem sampling_returns (ready : WaitSet) (frame : FacadeFrame B eventCapacity) :
    Returns ready ⟨plane, frame, .sampling ready⟩
      (reply ((sampleCancellation >>= finishCall ready) frame))
      ⟨plane, after ((sampleCancellation >>= finishCall ready) frame), .idle⟩ := by
  rcases hr : receiveCancellation frame with ⟨taken, frame'⟩
  unfold sampleCancellation
  rw [bind_assoc, bind_ok (modifyGet_of hr)]
  cases taken with
  | none =>
    refine .step (m := ⟨plane, frame', .driving ready⟩) ?_ (driving_returns ready frame')
    simp only [runnerStep, hr]
  | some taken =>
    refine .step (m := ⟨plane, frame', .requesting taken ready⟩) ?_ ?_
    · simp only [runnerStep, hr]
    dsimp only
    cases hq : requestCancellation taken frame' with
    | error error frame'' =>
      rw [bind_error hq]
      refine .last ?_
      simp only [runnerStep, hq, after_error, reply_error]
    | ok removed frame'' =>
      rw [bind_ok hq]
      cases removed with
      | some event =>
        refine .last ?_
        simp only [runnerStep, hq]
        rfl
      | none =>
        refine .step (m := ⟨plane, frame'', .driving ready⟩) ?_
          (driving_returns ready frame'')
        simp only [runnerStep, hq]

/-- A whole call is the run of its atomic steps with nothing in between. -/
theorem runOnce_returns (plane : ControlPlane) (ready : WaitSet)
    (frame : FacadeFrame B eventCapacity) :
    Returns ready ⟨plane, frame, .idle⟩ (reply (runOnce ready frame))
      ⟨plane, after (runOnce ready frame), .idle⟩ := by
  rcases hr : receiveCommand (beginCall ready frame) with ⟨received, frame'⟩
  unfold runOnce acceptRequests
  simp only [bind_assoc]
  rw [bind_ok (modify_apply _ _), bind_ok (modifyGet_of hr)]
  cases received with
  | none =>
    refine .step (m := ⟨plane, frame', .sampling ready⟩) ?_ (sampling_returns ready frame')
    simp only [runnerStep, hr]
  | some command =>
    refine .step (m := ⟨plane, frame', .submitting command ready⟩) ?_ ?_
    · simp only [runnerStep, hr]
    dsimp only
    cases ha : acceptCommand command frame' with
    | error error frame'' =>
      rw [bind_assoc, bind_error ha]
      refine .last ?_
      simp only [runnerStep, ha, after_error, reply_error]
    | ok value frame'' =>
      rw [bind_assoc, bind_ok ha]
      refine .step (m := ⟨plane, frame'', .sampling ready⟩) ?_ (sampling_returns ready frame'')
      simp only [runnerStep, ha]

end WholeCalls

end HisiRfCore.IncrementalInterleaving
