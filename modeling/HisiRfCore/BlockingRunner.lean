import HisiRfCore.InputOutputMachine
import HisiRfCore.AsyncControl

/-!
# Blocking radio runner

The blocking runner receives a command, drains the cancellations in front of
it, calls the backend and signals the completion. Its whole calls are functions
on the runner and the shared state; its interleaving with the controller cuts
the same functions at each operation on the command, cancellation and
completion channels. A whole call is one of the interleavings.
-/

namespace HisiRfCore.BlockingRunner

open BoundedChannel WifiTypes RadioStorage AsyncControl InputOutputMachine

/-- Chip backend driven by the blocking runner; every method passes the
backend's own state on, and `scan` also writes the buffer it borrows. -/
class WifiBackend (B : Type) where
  /-- Start the radio runtime. -/
  initialise : B → WifiConfig → Except BackendError Unit × B
  /-- Scan into the fixed runner-owned buffer. -/
  scan : {n : ℕ} → B → ScanConfig → Vector ScanResult n →
    Except BackendError ScanOutcome × B × Vector ScanResult n
  /-- Associate and authorize one station connection. -/
  connect : B → StationConfig → Except BackendError ConnectionInfo × B
  /-- Disconnect the station interface. -/
  disconnect : B → WifiConfig → Except BackendError Unit × B
  /-- Snapshot immutable L2 identity after successful initialization. -/
  l2Capabilities : B → Option WifiL2Capabilities := fun _ => none
  /-- Advance bounded background work. -/
  poll : B → Except BackendError Bool × B := fun backend => (.ok false, backend)

/-- Long-lived owner of a chip backend. -/
structure RadioRunner (B : Type) where
  /-- The chip backend. -/
  backend : B
  /-- Control-plane defaults. -/
  config : WifiConfig
  /-- Error of the last background poll, published once. -/
  lastPollError : Option BackendError

/-- A runner together with the shared state it refers to. -/
structure BlockingFrame (B : Type) (eventCapacity : ℕ) where
  /-- The runner. -/
  runner : RadioRunner B
  /-- The shared state. -/
  shared : SharedState eventCapacity

variable {B E : Type} {eventCapacity : ℕ}

/-- Error of a command that was cancelled before the backend saw it. -/
def cancelledError : BackendError := BackendError.new .cancelled 0

/-- Completion of a cancelled command, of the command's own kind. -/
def cancelledKind (command : Command) : CompletionKind :=
  (CommandKindTag.fromCommand command.kind).failed cancelledError

/-- Event of a backend call without a value. -/
def resultEvent (result : Except BackendError Unit) (success : WifiEvent) : WifiEvent :=
  match result with
  | .ok () => success
  | .error error => .failed error

/-- Publish the cancellation of a command and signal it. -/
def cancelCommand (command : Command) (shared : SharedState eventCapacity) :
    SharedState eventCapacity :=
  (shared.publishEvent (.failed cancelledError)).signalCompletion command.sequence
    (cancelledKind command)

/-- The cancellation drain: it stops at the command's own sequence or at an empty
queue. Each round takes one message, so the queue bounds the rounds. -/
def drainCancellations (sequence : UInt32) :
    ℕ → SharedState eventCapacity → Bool × SharedState eventCapacity
  | 0, shared => (false, shared)
  | rounds + 1, shared =>
    match shared.cancellations.tryReceive with
    | (none, _) => (false, shared)
    | (some taken, cancellations) =>
      if taken = sequence then (true, {shared with cancellations := cancellations})
      else drainCancellations sequence rounds {shared with cancellations := cancellations}

section Backend

variable [WifiBackend B]

/-- The backend call of a command, with the identity and the event it publishes,
up to the completion signal. -/
def callBackend (command : Command) (frame : BlockingFrame B eventCapacity) :
    CompletionKind × BlockingFrame B eventCapacity :=
  let runner := frame.runner
  let shared := {frame.shared with
    commandsProcessed := saturatingIncrement frame.shared.commandsProcessed}
  match command.kind with
  | .initialise =>
    let (result, backend) := WifiBackend.initialise runner.backend runner.config
    let capabilities := match result with
      | .ok () => WifiBackend.l2Capabilities backend
      | .error _ => none
    (.initialise result, ⟨{runner with backend := backend},
      (shared.publishCapabilities capabilities).publishEvent (resultEvent result .initialized)⟩)
  | .scan config =>
    let (result, backend, scanResults) :=
      WifiBackend.scan runner.backend config shared.scanResults
    let event := match result with
      | .ok outcome => WifiEvent.scanCompleted outcome.count outcome.truncated
      | .error error => .failed error
    (.scan result, ⟨{runner with backend := backend},
      {shared with scanResults := scanResults}.publishEvent event⟩)
  | .connect config =>
    let (result, backend) := WifiBackend.connect runner.backend config
    let event := match result with
      | .ok info => WifiEvent.connected info
      | .error error => .failed error
    (.connect result, ⟨{runner with backend := backend}, shared.publishEvent event⟩)
  | .disconnect =>
    let (result, backend) := WifiBackend.disconnect runner.backend runner.config
    (.disconnect result, ⟨{runner with backend := backend},
      shared.publishEvent (resultEvent result (.disconnected 0))⟩)

/-- Call the backend for a command and signal its completion. -/
def processCommand (command : Command) (frame : BlockingFrame B eventCapacity) :
    BlockingFrame B eventCapacity :=
  let (kind, frame) := callBackend command frame
  {frame with shared := frame.shared.signalCompletion command.sequence kind}

/-- Drain the cancellations in front of a command, then cancel or process it. -/
def processOrCancelCommand (command : Command) (frame : BlockingFrame B eventCapacity) :
    BlockingFrame B eventCapacity :=
  match drainCancellations command.sequence frame.shared.cancellations.queued.length
      frame.shared with
  | (true, shared) => {frame with shared := cancelCommand command shared}
  | (false, shared) => processCommand command {frame with shared := shared}

/-- One bounded background poll, and whether another call may be useful at once. -/
def pollBackend (didWork : Bool) (frame : BlockingFrame B eventCapacity) :
    Bool × BlockingFrame B eventCapacity :=
  let runner := frame.runner
  let shared := {frame.shared with
    backendPollCalls := saturatingIncrement frame.shared.backendPollCalls}
  let (result, backend) := WifiBackend.poll runner.backend
  let (immediateRepoll, runner, shared) := match result with
    | .ok backgroundWork =>
      (didWork || backgroundWork,
        {runner with backend := backend, lastPollError := none},
        if backgroundWork then
          {shared with
            backendPollWorkBatches := saturatingIncrement shared.backendPollWorkBatches}
        else shared)
    | .error error =>
      let shared := {shared with
        backendPollErrors := saturatingIncrement shared.backendPollErrors}
      if runner.lastPollError ≠ some error then
        (true, {runner with backend := backend, lastPollError := some error},
          shared.publishEvent (.failed error))
      else (didWork, {runner with backend := backend}, shared)
  (immediateRepoll, ⟨runner,
    if immediateRepoll then
      {shared with immediateRepollHints := saturatingIncrement shared.immediateRepollHints}
    else shared⟩)

/-- Count one call of `runOnce`. -/
def countCall (frame : BlockingFrame B eventCapacity) : BlockingFrame B eventCapacity :=
  {frame with shared := {frame.shared with
    runOnceCalls := saturatingIncrement frame.shared.runOnceCalls}}

/-- Receive a command, if one is queued. -/
def receiveCommand (frame : BlockingFrame B eventCapacity) :
    Option Command × BlockingFrame B eventCapacity :=
  match frame.shared.commands.tryReceive with
  | (some command, commands) =>
    (some command, {frame with shared := {frame.shared with commands := commands}})
  | (none, _) => (none, frame)

/-- Process at most one command and one bounded background batch. -/
def runOnce (frame : BlockingFrame B eventCapacity) : Bool × BlockingFrame B eventCapacity :=
  match receiveCommand (countCall frame) with
  | (some command, frame) => pollBackend true (processOrCancelCommand command frame)
  | (none, frame) => pollBackend false frame

end Backend

/-- Where the runner stands between two atomic steps. A command taken by `runOnce`
is followed by a background poll, one taken by `run` is not. -/
inductive BlockingPhase
  | idle
  | draining (command : Command) (polls : Bool)
  | cancelling (command : Command) (polls : Bool)
  | processing (command : Command) (polls : Bool)
  | signalling (command : Command) (kind : CompletionKind) (polls : Bool)
  | polling (didWork : Bool)
  deriving DecidableEq

/-- Entry point that the runner is in. -/
inductive BlockingMode
  | runOnce | run
  deriving DecidableEq

/-- The controller and the blocking runner, with the commands the backend saw. -/
structure BlockingSystem (B : Type) (eventCapacity : ℕ) where
  /-- The controller's side. -/
  plane : ControlPlane
  /-- Runner and shared state. -/
  frame : BlockingFrame B eventCapacity
  /-- Position of the runner. -/
  phase : BlockingPhase
  /-- Commands a backend operation was called for, oldest first. -/
  called : List Command

/-- One atomic step of the system. -/
inductive BlockingInput (E : Type)
  | control (step : ControlStep)
  | runner (mode : BlockingMode)
  | backendEvent (event : E)

/-- The input is a step of the runner. -/
def BlockingInput.isRunner : BlockingInput E → Bool
  | .runner _ => true
  | _ => false

/-- Phase after a signalled completion. -/
def afterSignal (polls : Bool) : BlockingPhase := if polls then .polling true else .idle

/-- A backend that answers from a script; an exhausted script succeeds, and a
scan reports the whole buffer as it finds it. -/
structure ScriptedBackend where
  /-- Answers of the next operations. -/
  answers : List (Except BackendError Unit)

instance : WifiBackend ScriptedBackend where
  initialise backend _ := (backend.answers.headD (.ok ()), ⟨backend.answers.tail⟩)
  scan {n} backend _ scanResults :=
    ((backend.answers.headD (.ok ())).map fun _ => ⟨n, false⟩, ⟨backend.answers.tail⟩, scanResults)
  connect backend config :=
    ((backend.answers.headD (.ok ())).map fun _ => ⟨config.bssid, 0⟩, ⟨backend.answers.tail⟩)
  disconnect backend _ := (backend.answers.headD (.ok ()), ⟨backend.answers.tail⟩)

variable [WifiBackend B]

/-- One atomic step of the runner; it returns a value when `runOnce` returns. -/
def runnerStep (mode : BlockingMode) (s : BlockingSystem B eventCapacity) :
    BlockingSystem B eventCapacity × Option Bool :=
  match s.phase with
  | .idle =>
    match mode with
    | .runOnce =>
      match receiveCommand (countCall s.frame) with
      | (some command, frame) => ({s with frame := frame, phase := .draining command true}, none)
      | (none, frame) => ({s with frame := frame, phase := .polling false}, none)
    | .run =>
      match receiveCommand s.frame with
      | (some command, frame) => ({s with frame := frame, phase := .draining command false}, none)
      | (none, frame) => ({s with frame := frame}, none)
  | .draining command polls =>
    match s.frame.shared.cancellations.tryReceive with
    | (none, _) => ({s with phase := .processing command polls}, none)
    | (some taken, cancellations) =>
      ({s with
        frame := {s.frame with shared := {s.frame.shared with cancellations := cancellations}}
        phase := if taken = command.sequence then .cancelling command polls
          else .draining command polls}, none)
  | .cancelling command polls =>
    ({s with
      frame := {s.frame with shared := cancelCommand command s.frame.shared}
      phase := afterSignal polls}, none)
  | .processing command polls =>
    ({s with
      frame := (callBackend command s.frame).2
      phase := .signalling command (callBackend command s.frame).1 polls
      called := s.called ++ [command]}, none)
  | .signalling command kind polls =>
    ({s with
      frame := {s.frame with shared := s.frame.shared.signalCompletion command.sequence kind}
      phase := afterSignal polls}, none)
  | .polling didWork =>
    ({s with frame := (pollBackend didWork s.frame).2, phase := .idle},
      some (pollBackend didWork s.frame).1)

/-- The controller and the blocking runner as a machine over atomic steps. -/
def blockingMachine (interrupt : E → B → B) :
    Machine (BlockingSystem B eventCapacity) (BlockingInput E) (Option Bool) where
  step s
    | .control step =>
      let (plane, shared) := s.plane.step s.frame.shared step
      ({s with plane := plane, frame := {s.frame with shared := shared}}, none)
    | .runner mode => runnerStep mode s
    | .backendEvent event =>
      ({s with frame := {s.frame with
        runner := {s.frame.runner with backend := interrupt event s.frame.runner.backend}}}, none)

/-- A claimed radio with its blocking runner, before the first call. -/
def blockingStart (backend : B) (config : WifiConfig) (h : 0 < eventCapacity) :
    BlockingSystem B eventCapacity :=
  ⟨.new, ⟨⟨backend, config, none⟩, .new h⟩, .idle, []⟩

section WholeCalls

variable {s : BlockingSystem B eventCapacity}

/-- Atomic steps of a runner that nothing interrupts. -/
def uninterrupted (s : BlockingSystem B eventCapacity) : ℕ → BlockingSystem B eventCapacity
  | 0 => s
  | steps + 1 => uninterrupted (runnerStep .runOnce s).1 steps

/-- Uninterrupted steps compose. -/
theorem uninterrupted_add (s : BlockingSystem B eventCapacity) (a b : ℕ) :
    uninterrupted s (a + b) = uninterrupted (uninterrupted s a) b := by
  induction a generalizing s with
  | zero => rw [Nat.zero_add]; rfl
  | succ a ih =>
    rw [Nat.succ_add]
    exact ih _

/-- The drain of a whole call is the drain of the atomic steps. -/
theorem drain_steps (command : Command) (rounds : ℕ)
    (hp : s.phase = .draining command true)
    (hl : s.frame.shared.cancellations.queued.length = rounds) :
    ∃ steps, uninterrupted s steps =
      {s with
        frame := {s.frame with
          shared := (drainCancellations command.sequence rounds s.frame.shared).2}
        phase := if (drainCancellations command.sequence rounds s.frame.shared).1 then
            .cancelling command true
          else .processing command true} := by
  induction rounds generalizing s with
  | zero =>
    have hq := List.eq_nil_of_length_eq_zero hl
    refine ⟨1, ?_⟩
    simp only [uninterrupted, runnerStep, hp, tryReceive_of_nil hq, drainCancellations,
      Bool.false_eq_true, if_false]
  | succ rounds ih =>
    obtain ⟨taken, rest, hq⟩ : ∃ taken rest, s.frame.shared.cancellations.queued = taken :: rest :=
      List.exists_cons_of_length_eq_add_one hl
    obtain ⟨cancellations, hx, -, -, hr⟩ := tryReceive_taken hq
    by_cases ht : taken = command.sequence
    · refine ⟨1, ?_⟩
      simp only [uninterrupted, runnerStep, hp, hx, ht, drainCancellations, if_true]
    · have hlen : cancellations.queued.length = rounds := by
        rw [hq, List.length_cons] at hl
        rw [hr]
        omega
      obtain ⟨steps, hs⟩ := @ih
        {s with
          frame := {s.frame with shared := {s.frame.shared with cancellations := cancellations}}
          phase := .draining command true} rfl hlen
      refine ⟨steps + 1, ?_⟩
      simp only [uninterrupted, runnerStep, hp, hx, ht, if_false, drainCancellations]
      exact hs

/-- A whole call is the run of its atomic steps with nothing in between. -/
theorem runOnce_steps (hp : s.phase = .idle) :
    ∃ steps, (uninterrupted s steps).frame = (runOnce s.frame).2 ∧
      (uninterrupted s steps).plane = s.plane ∧ (uninterrupted s steps).phase = .idle := by
  rcases hx : receiveCommand (countCall s.frame) with ⟨received, frame⟩
  cases received with
  | none =>
    refine ⟨2, ?_⟩
    simp only [uninterrupted, runnerStep, hp, hx, runOnce, and_self]
  | some command =>
    obtain ⟨steps, hs⟩ := @drain_steps _ _ _ {s with frame := frame, phase := .draining command true}
      command _ rfl rfl
    rcases hd : drainCancellations command.sequence frame.shared.cancellations.queued.length
      frame.shared with ⟨found, shared⟩
    rw [hd] at hs
    have hfirst : uninterrupted s 1 = {s with frame := frame, phase := .draining command true} := by
      simp only [uninterrupted, runnerStep, hp, hx]
    cases found with
    | true =>
      refine ⟨1 + (steps + 2), ?_⟩
      rw [uninterrupted_add, hfirst, uninterrupted_add, hs]
      simp only [uninterrupted, runnerStep, if_true, afterSignal, runOnce, hx,
        processOrCancelCommand, hd, and_self]
    | false =>
      refine ⟨1 + (steps + 3), ?_⟩
      rw [uninterrupted_add, hfirst, uninterrupted_add, hs]
      simp only [uninterrupted, runnerStep, Bool.false_eq_true, if_false, if_true, afterSignal,
        runOnce, hx, processOrCancelCommand, processCommand, hd, and_self]

end WholeCalls

end HisiRfCore.BlockingRunner
