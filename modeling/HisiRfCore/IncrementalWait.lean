import HisiRfCore.IncrementalInterleaving

/-!
# Waiting of the incremental runner

Between two calls the runner waits for the sources that its wait intent lists.
The intent is read from the driver, the occupancy of the command channel while
the driver has room, and the cancellation channel. One poll of a wait looks at
both channels and asks the platform for the remaining sources; it takes nothing
from the channels and does not touch the backend.
-/

namespace HisiRfCore.IncrementalWait

open StateBorrow BoundedChannel WifiTypes RadioStorage AsyncControl IncrementalContract
open CommandArbitration BackendDriver IncrementalFacade IncrementalInterleaving InputOutputMachine
open FacadeFrame

/-- Result of polling a future once. -/
inductive Poll (α : Type)
  | pending
  | ready (value : α)
  deriving DecidableEq

/-- Failure while composing command and platform wake sources. -/
inductive IncrementalWaitError (ε : Type)
  | platform (error : ε)
  | unexpectedSources (subscribed ready : WaitSet)
  deriving DecidableEq

/-- Platform side of a wait: backend, link-layer and timer sources. A poll passes the
platform's own state on. -/
class IncrementalWaitPlatform (P : Type) (ε : outParam Type) where
  /-- Poll the subscribed sources other than commands and cancellations. -/
  pollReady : P → WaitSet → Option UInt64 → Poll (Except ε WaitSet) × P

/-- A platform that replays scripted answers. An exhausted script stays pending. -/
structure ReplayPlatform where
  /-- Answers of the next polls. -/
  answers : List (Poll (Except Unit WaitSet))

instance : IncrementalWaitPlatform ReplayPlatform Unit where
  pollReady platform _ _ := (platform.answers.headD .pending, ⟨platform.answers.tail⟩)

/-- Add the command source; a queued command makes the intent immediately runnable. -/
def withCommand (ready : Bool) (intent : IncrementalWaitIntent) : IncrementalWaitIntent :=
  {intent with
    sources := intent.sources.union .command
    runImmediately := intent.runImmediately || ready}

/-- Add the cancellation source; a queued cancellation makes the intent immediately runnable. -/
def withCancellation (ready : Bool) (intent : IncrementalWaitIntent) : IncrementalWaitIntent :=
  {intent with
    sources := intent.sources.union .cancel
    runImmediately := intent.runImmediately || ready}

variable {B E F P ε : Type} {eventCapacity : ℕ}

section Intent

variable [IncrementalWifiBackend B]

/-- Snapshot immediate work, wake subscriptions and the next deadline. The command source
is included only while the driver can retain another request. -/
def waitIntent (frame : FacadeFrame B eventCapacity) : IncrementalWaitIntent :=
  let intent := frame.runner.driver.waitIntent
  let intent := if frame.runner.driver.canSubmit then
    withCommand (!frame.shared.commands.queued.isEmpty) intent else intent
  withCancellation (!frame.shared.cancellations.queued.isEmpty) intent

/-- Subscribed channels that hold a message. -/
def channelsReady (subscribed : WaitSet) (frame : FacadeFrame B eventCapacity) : WaitSet :=
  let ready := if subscribed.contains .command && !frame.shared.commands.queued.isEmpty then
    WaitSet.empty.union .command else .empty
  if subscribed.contains .cancel && !frame.shared.cancellations.queued.isEmpty then
    ready.union .cancel else ready

/-- A poll is ready with a set of sources unless the set is empty. -/
def readyUnlessEmpty (ready : WaitSet) : Poll (Except (IncrementalWaitError ε) WaitSet) :=
  if ready.isEmpty then .pending else .ready (.ok ready)

/-- Poll the platform for its sources and add what the channels have ready. Sources that
were not asked for are rejected. -/
def pollPlatform [IncrementalWaitPlatform P ε] (intent : IncrementalWaitIntent)
    (ready : WaitSet) (platform : P) :
    Poll (Except (IncrementalWaitError ε) WaitSet) × P :=
  let platformSources := (intent.sources.without .command).without .cancel
  if platformSources.isEmpty then (readyUnlessEmpty ready, platform)
  else
    match IncrementalWaitPlatform.pollReady platform platformSources intent.deadlineUs with
    | (.pending, platform) => (readyUnlessEmpty ready, platform)
    | (.ready (.error error), platform) => (.ready (.error (.platform error)), platform)
    | (.ready (.ok platformReady), platform) =>
      if !(platformReady.without platformSources).isEmpty then
        (.ready (.error (.unexpectedSources platformSources platformReady)), platform)
      else (readyUnlessEmpty (ready.union platformReady), platform)

/-- One poll of a wait, without its counters. -/
def pollIntent [IncrementalWaitPlatform P ε] (frame : FacadeFrame B eventCapacity)
    (platform : P) : Poll (Except (IncrementalWaitError ε) WaitSet) × P :=
  let intent := waitIntent frame
  if intent.runImmediately then
    if !frame.shared.cancellations.queued.isEmpty then (.ready (.ok .cancel), platform)
    else (.ready (.ok .empty), platform)
  else pollPlatform intent (channelsReady intent.sources frame) platform

end Intent

/-- Count a wait that is polled for the first time. -/
def countWait : FacadeFrame B eventCapacity → FacadeFrame B eventCapacity :=
  setDiagnostics fun d => {d with waitReadyCalls := saturatingIncrement d.waitReadyCalls}

/-- Count the result of a wait and its wake sources. -/
def countResult (result : Except (IncrementalWaitError ε) WaitSet) :
    FacadeFrame B eventCapacity → FacadeFrame B eventCapacity :=
  setDiagnostics fun d =>
    match result with
    | .ok ready =>
      let d := {d with waitReadyCompletions := saturatingIncrement d.waitReadyCompletions}
      let d := if ready.isEmpty then
        {d with immediateReadyCompletions := saturatingIncrement d.immediateReadyCompletions}
        else d
      recordReady ready d
    | .error _ => {d with waitReadyErrors := saturatingIncrement d.waitReadyErrors}

/-- The runner between two calls, the controller and the platform of the waits. -/
structure WaitSystem (B P : Type) (eventCapacity : ℕ) where
  /-- The controller's side. -/
  plane : ControlPlane
  /-- Runner and shared state. -/
  frame : FacadeFrame B eventCapacity
  /-- State of the platform. -/
  platform : P
  /-- A wait was polled and is still pending. -/
  waiting : Bool

/-- Begin a new wait when none is pending. -/
def beginWait (s : WaitSystem B P eventCapacity) : FacadeFrame B eventCapacity :=
  if s.waiting then s.frame else countWait s.frame

/-- Poll the one wait of the runner. -/
def pollWaitReady [IncrementalWifiBackend B] [IncrementalWaitPlatform P ε]
    (s : WaitSystem B P eventCapacity) :
    WaitSystem B P eventCapacity × Poll (Except (IncrementalWaitError ε) WaitSet) :=
  match pollIntent (beginWait s) s.platform with
  | (.pending, platform) => (⟨s.plane, beginWait s, platform, true⟩, .pending)
  | (.ready result, platform) =>
    (⟨s.plane, countResult result (beginWait s), platform, false⟩, .ready result)

/-- One step of a runner that is called, or waits, as its user likes. -/
inductive WaitInput (E F : Type)
  | control (step : ControlStep)
  | runOnce (ready : WaitSet)
  | pollWait
  | dropWait
  | backendEvent (event : E)
  | platformEvent (event : F)

/-- Value that a step returns. -/
inductive WaitReply (ε : Type)
  | called (result : CallResult)
  | polled (answer : Poll (Except (IncrementalWaitError ε) WaitSet))
  | quiet

variable [IncrementalWifiBackend B] [IncrementalWaitPlatform P ε]

/-- The controller, the runner and its waits. A call borrows the runner for itself, so none
starts while a wait is pending. -/
def waitMachine (interrupt : E → B → B) (signal : F → P → P) :
    Machine (WaitSystem B P eventCapacity) (WaitInput E F) (WaitReply ε) where
  step s
    | .control step =>
      let (plane, shared) := s.plane.step s.frame.shared step
      ({s with plane := plane, frame := {s.frame with shared := shared}}, .quiet)
    | .runOnce ready =>
      if s.waiting then (s, .quiet)
      else
        let result := runOnce ready s.frame
        ({s with frame := after result}, .called (reply result))
    | .pollWait =>
      let (next, answer) := pollWaitReady s
      (next, .polled answer)
    | .dropWait => ({s with waiting := false}, .quiet)
    | .backendEvent event =>
      ({s with frame := FacadeFrame.interrupt interrupt event s.frame}, .quiet)
    | .platformEvent event => ({s with platform := signal event s.platform}, .quiet)

/-- A poll of the wait returns its answer. -/
theorem output_pollWait (interrupt : E → B → B) (signal : F → P → P)
    (s : WaitSystem B P eventCapacity) :
    (waitMachine interrupt signal).output s .pollWait = .polled (pollWaitReady s).2 := rfl

end HisiRfCore.IncrementalWait
