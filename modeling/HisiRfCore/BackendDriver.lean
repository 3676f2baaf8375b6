import HisiRfCore.CommandArbitration
import HisiRfCore.RunnerState

/-!
# Incremental backend driver

The driver composes the command arbiter, the runner state and a backend. Each
drive makes at most one backend call. The slots of the arbiter and the tracked
operation are written by different methods in several fallible steps; the
coherence invariant relates them between two driver calls, and every outcome of
a coherent drive is listed once, with its backend call and its next state.
-/

namespace HisiRfCore.BackendDriver

open StateBorrow WifiTypes IncrementalContract CommandArbitration RunnerState

/-- Internal protocol failure while composing the runner pieces. -/
inductive IncrementalDriverError
  | runner (error : RunnerStateError)
  | arbiter (error : CommandArbiterError)
  deriving DecidableEq

/-- One bounded, externally observable driver transition. -/
inductive IncrementalDriverEvent
  | idle
  | started (sequence : CommandSequence) (operation : OperationId)
  | cancelRequested (sequence : CommandSequence) (operation : OperationId)
  | waiting (sequence : CommandSequence) (operation : OperationId) (waitFor : WaitSet)
  | pending (sequence : CommandSequence) (operation : OperationId) (madeProgress : Bool)
      (waitFor : WaitSet)
  | budgetExhausted (sequence : CommandSequence) (operation : OperationId) (madeProgress : Bool)
      (waitFor : WaitSet)
  | completed (sequence : CommandSequence) (completion : IncrementalCompletion)
  | cancelled (sequence : CommandSequence) (suppressedCompletion : Bool)
  | failed (sequence : CommandSequence) (error : BackendError) (cancellationPending : Bool)
  deriving DecidableEq

/-- Sequence of a terminal event. -/
def IncrementalDriverEvent.terminal : IncrementalDriverEvent → Option CommandSequence
  | .completed sequence _ | .cancelled sequence _ | .failed sequence _ _ => some sequence
  | _ => none

/-- Sequence named by any event. -/
def IncrementalDriverEvent.names : IncrementalDriverEvent → Option CommandSequence
  | .idle => none
  | .started sequence _ | .cancelRequested sequence _ | .waiting sequence _ _
  | .pending sequence _ _ _ | .budgetExhausted sequence _ _ _ | .completed sequence _
  | .cancelled sequence _ | .failed sequence _ _ => some sequence

/-- Sequence of a started event. -/
def IncrementalDriverEvent.starts : IncrementalDriverEvent → Option CommandSequence
  | .started sequence _ => some sequence
  | _ => none

/-- Snapshot of the next platform wait required by the driver. -/
structure IncrementalWaitIntent where
  /-- Wake sources to compose into the next platform wait. -/
  sources : WaitSet
  /-- Monotonic backend deadline to arm. -/
  deadlineUs : Option UInt64
  /-- Whether another drive can make progress without an external source. -/
  runImmediately : Bool
  deriving DecidableEq

/-- Composition of a backend with the incremental contracts. -/
structure IncrementalBackendDriver (B : Type) where
  /-- The chip backend. -/
  backend : B
  /-- Active and pending command ownership. -/
  arbiter : CommandArbiter IncrementalRequest
  /-- Lifecycle, selector and wait set of the active operation. -/
  runner : IncrementalRunnerState
  /-- Fixed per-poll work grant. -/
  budget : WorkBudget

/-- A driver together with the scan buffer a drive borrows. -/
structure DriverFrame (B : Type) (n : ℕ) where
  /-- The borrowing driver. -/
  driver : IncrementalBackendDriver B
  /-- The borrowed scan output. -/
  scanOutput : Vector ScanResult n

namespace IncrementalBackendDriver

variable {B : Type} {n : ℕ}

/-- Construct an idle driver with a fixed per-poll work grant. -/
def new (backend : B) (budget : WorkBudget) : IncrementalBackendDriver B :=
  ⟨backend, .new, .new, budget⟩

/-- The arbiter field of the driver. -/
def arbiterField : Field (IncrementalBackendDriver B) (CommandArbiter IncrementalRequest) :=
  ⟨arbiter, fun arbiter driver => {driver with arbiter := arbiter}⟩

/-- The runner field of the driver. -/
def runnerField : Field (IncrementalBackendDriver B) IncrementalRunnerState :=
  ⟨runner, fun runner driver => {driver with runner := runner}⟩

/-- The backend field of the driver. -/
def backendField : Field (IncrementalBackendDriver B) B :=
  ⟨backend, fun backend driver => {driver with backend := backend}⟩

/-- The driver inside a drive. -/
def driverField : Field (DriverFrame B n) (IncrementalBackendDriver B) :=
  ⟨DriverFrame.driver, fun driver frame => {frame with driver := driver}⟩

/-- Queue one request without overwriting an existing replacement request. -/
def submit (sequence : CommandSequence) (request : IncrementalRequest) :
    EStateM (SubmitError IncrementalRequest) (IncrementalBackendDriver B) Unit :=
  arbiterField.call id (CommandArbiter.submit ⟨sequence, request⟩)

/-- Whether the bounded command arbiter can retain one more request. -/
def canSubmit (driver : IncrementalBackendDriver B) : Bool := driver.arbiter.canSubmit

/-- Request cancellation by controller sequence. -/
def requestCancel (sequence : CommandSequence) :
    EStateM IncrementalDriverError (IncrementalBackendDriver B)
      (Option IncrementalDriverEvent) := do
  match ← arbiterField.update (CommandArbiter.requestCancel sequence) with
  | .requestActive => pure none
  | .removePending => pure (some (.cancelled sequence false))
  | .alreadyRequested | .notFound => pure none

/-- Current active command and operation, required to exist. -/
def requireActive :
    EStateM IncrementalDriverError (IncrementalBackendDriver B)
      (CommandSequence × OperationId) := fun driver =>
  match driver.arbiter.activeOperation with
  | some active => .ok active driver
  | none => .error (.arbiter .invalidTransition) driver

/-- Event of a failed transition. -/
def failedEvent (sequence : CommandSequence) :
    RunnerTransition → EStateM IncrementalDriverError (IncrementalBackendDriver B)
      IncrementalDriverEvent
  | .failed error cancellationPending => pure (.failed sequence error cancellationPending)
  | _ => throw (.arbiter .invalidTransition)

/-- Release the active command and its operation, and report the transition. -/
def finishTerminal (operation : OperationId) (sequence : CommandSequence)
    (transition : RunnerTransition) :
    EStateM IncrementalDriverError (IncrementalBackendDriver B) IncrementalDriverEvent := do
  let finishedSequence ← arbiterField.call .arbiter (CommandArbiter.finishActive operation)
  if finishedSequence ≠ sequence then throw (.arbiter .staleOperation)
  runnerField.call .runner (IncrementalRunnerState.reap operation)
  match transition with
  | .completed completion => pure (.completed sequence completion)
  | .cancelled suppressedCompletion => pure (.cancelled sequence suppressedCompletion)
  | .failed _ _ => failedEvent sequence transition
  | .pending _ _ | .budgetExhausted _ _ => throw (.arbiter .invalidTransition)

/-- Select the next fair step of the active operation. -/
def selectStep (ready : WaitSet) :
    EStateM IncrementalDriverError (IncrementalBackendDriver B) RunnerStep :=
  runnerField.update (IncrementalRunnerState.selectStep ready)

/-- Feed the result of one poll back into the runner. -/
def applyPoll (sequence : CommandSequence) (operation : OperationId) :
    Except BackendError WorkReport →
      EStateM IncrementalDriverError (IncrementalBackendDriver B) IncrementalDriverEvent
  | .ok report => do
    let transition ← runnerField.call .runner (IncrementalRunnerState.applyReport operation report)
    match transition with
    | .pending madeProgress waitFor => pure (.pending sequence operation madeProgress waitFor)
    | .budgetExhausted madeProgress waitFor =>
      pure (.budgetExhausted sequence operation madeProgress waitFor)
    | transition => finishTerminal operation sequence transition
  | .error error => do
    let transition ← runnerField.call .runner (IncrementalRunnerState.applyError operation error)
    finishTerminal operation sequence transition

variable [IncrementalWifiBackend B]

/-- Monotonic backend deadline for the active operation. -/
def nextDeadlineUs (driver : IncrementalBackendDriver B) : Option UInt64 :=
  driver.arbiter.activeOperation.bind fun active =>
    IncrementalWifiBackend.nextDeadlineUs driver.backend active.2

/-- Snapshot the backend-side wait contract after the latest transition. -/
def waitIntent (driver : IncrementalBackendDriver B) : IncrementalWaitIntent :=
  let deadlineUs := driver.nextDeadlineUs
  let backendSources := driver.runner.waitFor
  let sources := if deadlineUs.isSome then backendSources.union .timer else backendSources
  let runImmediately := match driver.arbiter.action with
    | .idle => false
    | .waitActive _ => backendSources.isEmpty
    | .startPending _ | .starting _ | .cancelActive _ => true
  ⟨sources, deadlineUs, runImmediately⟩

/-- Take the pending command and hand it to the backend. -/
def startPending :
    EStateM IncrementalDriverError (IncrementalBackendDriver B) IncrementalDriverEvent := do
  let pending ← arbiterField.call .arbiter CommandArbiter.takeStartable
  let sequence := pending.sequence
  let operation ← runnerField.call .runner (IncrementalRunnerState.queue 0)
  match ← backendField.update fun backend =>
      IncrementalWifiBackend.start backend operation pending.command with
  | .ok () => do
    runnerField.call .runner (IncrementalRunnerState.markStarted operation)
    arbiterField.call .arbiter (CommandArbiter.markStarted sequence operation)
    pure (.started sequence operation)
  | .error error => do
    let transition ← runnerField.call .runner (IncrementalRunnerState.rejectStart operation error)
    runnerField.call .runner (IncrementalRunnerState.reap operation)
    arbiterField.call .arbiter (CommandArbiter.rejectStart sequence)
    failedEvent sequence transition

/-- Deliver the one cancellation call for the active operation. -/
def cancelActive (operation : OperationId) :
    EStateM IncrementalDriverError (IncrementalBackendDriver B) IncrementalDriverEvent := do
  let (sequence, active) ← requireActive
  if active ≠ operation then throw (.arbiter .staleOperation)
  match ← runnerField.call .runner (IncrementalRunnerState.requestCancel operation) with
  | .completeLocally => throw (.arbiter .invalidTransition)
  | .alreadyRequested => throw (.arbiter .invalidTransition)
  | .notifyBackend =>
    match ← backendField.update fun backend =>
        IncrementalWifiBackend.cancel backend operation with
    | .ok () => do
      runnerField.call .runner (IncrementalRunnerState.markCancelNotified operation)
      arbiterField.call .arbiter (CommandArbiter.markCancelRequested operation)
      pure (.cancelRequested sequence operation)
    | .error error => do
      let transition ← runnerField.call .runner (IncrementalRunnerState.applyError operation error)
      finishTerminal operation sequence transition

/-- One backend poll that writes the borrowed scan buffer. -/
def pollBackend (operation : OperationId) (reason : WakeReason) :
    EStateM IncrementalDriverError (DriverFrame B n) (Except BackendError WorkReport) :=
  fun frame =>
    let (result, backend, scanOutput) :=
      IncrementalWifiBackend.poll frame.driver.backend operation reason frame.driver.budget
        frame.scanOutput
    .ok result ⟨{frame.driver with backend := backend}, scanOutput⟩

/-- A ready timer is subscribed while the backend reports a deadline. -/
def subscribeDeadline (operation : OperationId) (ready : WaitSet) :
    EStateM IncrementalDriverError (IncrementalBackendDriver B) Unit := do
  let driver ← get
  if ready.contains .timer &&
      (IncrementalWifiBackend.nextDeadlineUs driver.backend operation).isSome then
    runnerField.call .runner (IncrementalRunnerState.subscribe operation .timer)

/-- Poll the active operation when one of its wake sources is selected. -/
def pollActive (operation : OperationId) (ready : WaitSet) :
    EStateM IncrementalDriverError (DriverFrame B n) IncrementalDriverEvent := do
  let (sequence, active) ← driverField.call id requireActive
  if active ≠ operation then throw (.arbiter .staleOperation)
  driverField.call id (subscribeDeadline operation ready)
  match ← driverField.call id (selectStep ready) with
  | .idle | .commandReady _ => throw (.arbiter .invalidTransition)
  | .waiting waitFor => pure (.waiting sequence operation waitFor)
  | .pollBackend operation reason => do
    let result ← pollBackend operation reason
    driverField.call id (applyPoll sequence operation result)

/-- Execute at most one start, cancellation, or bounded backend poll. -/
def driveOnce (ready : WaitSet) :
    EStateM IncrementalDriverError (DriverFrame B n) IncrementalDriverEvent := do
  let frame ← get
  match frame.driver.arbiter.action with
  | .idle => pure .idle
  | .startPending _ => driverField.call id startPending
  | .starting _ => throw (.arbiter .invalidTransition)
  | .cancelActive operation => driverField.call id (cancelActive operation)
  | .waitActive operation => pollActive operation ready

end IncrementalBackendDriver

end HisiRfCore.BackendDriver
