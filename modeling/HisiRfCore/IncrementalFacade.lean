import HisiRfCore.AsyncControl
import HisiRfCore.DriverCalls

/-!
# Incremental runner facade

The facade feeds one command and one cancellation per call to the backend
driver, drives it once, and publishes the terminal event of the call. A
two-entry ledger keeps the kind of each command the driver owns. The command
and cancellation channels are read once each, one after the other.
-/

namespace HisiRfCore.IncrementalFacade

open StateBorrow BoundedChannel WifiTypes RadioStorage IncrementalContract CommandArbitration
open BackendDriver

/-- Count the wake sources of a ready set. -/
def recordReady (ready : WaitSet) (d : IncrementalRunnerDiagnostics) :
    IncrementalRunnerDiagnostics :=
  let count (source : WaitSet) (counter : UInt32) : UInt32 :=
    if ready.contains source then saturatingIncrement counter else counter
  {d with
    commandReadyBatches := count .command d.commandReadyBatches
    backendReadyBatches := count .backend d.backendReadyBatches
    l2RxReadyBatches := count .l2Rx d.l2RxReadyBatches
    timerReadyBatches := count .timer d.timerReadyBatches}

/-- Count a driver event. -/
def recordEvent (event : IncrementalDriverEvent) (d : IncrementalRunnerDiagnostics) :
    IncrementalRunnerDiagnostics :=
  match event with
  | .started _ _ => {d with operationsStarted := saturatingIncrement d.operationsStarted}
  | .cancelRequested _ _ =>
    {d with cancellationsRequested := saturatingIncrement d.cancellationsRequested}
  | .pending _ _ _ _ => {d with pendingPolls := saturatingIncrement d.pendingPolls}
  | .budgetExhausted _ _ _ _ => {d with budgetExhaustions := saturatingIncrement d.budgetExhaustions}
  | .completed _ _ => {d with operationsCompleted := saturatingIncrement d.operationsCompleted}
  | .cancelled _ _ => {d with operationsCancelled := saturatingIncrement d.operationsCancelled}
  | .failed _ _ _ => {d with operationsFailed := saturatingIncrement d.operationsFailed}
  | .idle | .waiting _ _ _ => d

/-- Kinds of the commands the driver owns, in two slots. -/
structure CommandLedger where
  /-- First slot. -/
  first : Option (CommandSequence × CommandKindTag)
  /-- Second slot. -/
  second : Option (CommandSequence × CommandKindTag)
  deriving DecidableEq

namespace CommandLedger

/-- An empty ledger. -/
def new : CommandLedger := ⟨none, none⟩

/-- Fill the first free slot; a full ledger is unchanged. -/
def insert (sequence : CommandSequence) (kind : CommandKindTag) (ledger : CommandLedger) :
    Bool × CommandLedger :=
  match ledger with
  | ⟨none, second⟩ => (true, ⟨some (sequence, kind), second⟩)
  | ⟨some first, none⟩ => (true, ⟨some first, some (sequence, kind)⟩)
  | ⟨some _, some _⟩ => (false, ledger)

/-- The slot holds the sequence. -/
def holds (sequence : CommandSequence) (entry : Option (CommandSequence × CommandKindTag)) : Bool :=
  entry.map Prod.fst == some sequence

/-- Empty the first slot that holds the sequence, and return its kind. -/
def remove (sequence : CommandSequence) (ledger : CommandLedger) :
    Option CommandKindTag × CommandLedger :=
  if holds sequence ledger.first then
    (ledger.first.map Prod.snd, {ledger with first := none})
  else if holds sequence ledger.second then
    (ledger.second.map Prod.snd, {ledger with second := none})
  else (none, ledger)

/-- Entries of the ledger. -/
def entries (ledger : CommandLedger) : List (CommandSequence × CommandKindTag) :=
  ledger.first.toList ++ ledger.second.toList

/-- A ledger with a free slot takes the entry. -/
theorem insert_of_length {ledger : CommandLedger} (h : ledger.entries.length < 2)
    (sequence : CommandSequence) (kind : CommandKindTag) :
    (ledger.insert sequence kind).1 = true ∧
      (ledger.insert sequence kind).2.entries.Perm (ledger.entries ++ [(sequence, kind)]) := by
  rcases ledger with ⟨first, second⟩
  cases first with
  | none =>
    refine ⟨rfl, ?_⟩
    exact List.perm_append_comm
  | some first =>
    cases second with
    | none => exact ⟨rfl, .refl _⟩
    | some second => simp [entries] at h

/-- A slot that holds a sequence holds one entry of it. -/
theorem holds_iff {sequence : CommandSequence}
    {entry : Option (CommandSequence × CommandKindTag)} :
    holds sequence entry = true ↔ ∃ kind, entry = some (sequence, kind) := by
  unfold holds
  cases entry with
  | none => simp
  | some pair =>
    rcases pair with ⟨x, kind⟩
    simp

/-- Removing a listed sequence returns the kind of one of its entries and takes it out. -/
theorem remove_of_mem {ledger : CommandLedger} {sequence : CommandSequence}
    (h : sequence ∈ ledger.entries.map Prod.fst) :
    ∃ kind, (ledger.remove sequence).1 = some kind ∧
      ledger.entries.Perm ((sequence, kind) :: (ledger.remove sequence).2.entries) := by
  rcases ledger with ⟨first, second⟩
  by_cases hf : holds sequence first = true
  · obtain ⟨kind, rfl⟩ := holds_iff.mp hf
    refine ⟨kind, ?_⟩
    simp only [remove, hf, if_true]
    exact ⟨rfl, .refl _⟩
  · by_cases hs : holds sequence second = true
    · obtain ⟨kind, rfl⟩ := holds_iff.mp hs
      refine ⟨kind, ?_⟩
      simp only [remove, hf, hs, if_true, if_false, Bool.false_eq_true]
      refine ⟨rfl, ?_⟩
      show (first.toList ++ [(sequence, kind)]).Perm ([(sequence, kind)] ++ (first.toList ++ []))
      rw [List.append_nil]
      exact List.perm_append_comm
    · exfalso
      obtain ⟨⟨x, kind⟩, hm, he⟩ := List.mem_map.mp h
      dsimp only at he
      subst he
      rcases List.mem_append.mp hm with hm | hm
      · exact hf (holds_iff.mpr ⟨kind, Option.mem_toList.mp hm⟩)
      · exact hs (holds_iff.mpr ⟨kind, Option.mem_toList.mp hm⟩)

end CommandLedger

/-- Failure of a call of the incremental runner. -/
inductive IncrementalRadioRunnerError
  | driver (error : IncrementalDriverError)
  | invalidCommandSequence
  | commandCapacity
  | commandArbiter (error : CommandArbiterError)
  | missingCommand
  | completionMismatch
  deriving DecidableEq

/-- Facade over one bounded incremental backend. -/
structure IncrementalRadioRunner (B : Type) where
  /-- The executable driver. -/
  driver : IncrementalBackendDriver B
  /-- Control-plane defaults. -/
  config : WifiConfig
  /-- Kinds of the commands the driver owns. -/
  ledger : CommandLedger
  /-- Counters of this runner. -/
  diagnostics : IncrementalRunnerDiagnostics

/-- A runner together with the shared state it refers to. -/
structure FacadeFrame (B : Type) (eventCapacity : ℕ) where
  /-- The runner. -/
  runner : IncrementalRadioRunner B
  /-- The shared state. -/
  shared : SharedState eventCapacity

variable {B : Type} {eventCapacity : ℕ}

/-- A runner that has not been called. -/
def IncrementalRadioRunner.new (backend : B) (budget : WorkBudget) (config : WifiConfig) :
    IncrementalRadioRunner B :=
  ⟨.new backend budget, config, .new, .empty⟩

namespace FacadeFrame

/-- The driver of the runner. -/
def driverField : Field (FacadeFrame B eventCapacity) (IncrementalBackendDriver B) :=
  ⟨fun frame => frame.runner.driver,
    fun driver frame => {frame with runner := {frame.runner with driver := driver}}⟩

/-- The driver and the scan buffer it borrows for one drive. -/
def driveField : Field (FacadeFrame B eventCapacity) (DriverFrame B maxScanResults) :=
  ⟨fun frame => ⟨frame.runner.driver, frame.shared.scanResults⟩,
    fun drive frame =>
      ⟨{frame.runner with driver := drive.driver},
        {frame.shared with scanResults := drive.scanOutput}⟩⟩

/-- The ledger of the runner. -/
def ledgerField : Field (FacadeFrame B eventCapacity) CommandLedger :=
  ⟨fun frame => frame.runner.ledger,
    fun ledger frame => {frame with runner := {frame.runner with ledger := ledger}}⟩

/-- Update the counters and publish them. -/
def setDiagnostics (f : IncrementalRunnerDiagnostics → IncrementalRunnerDiagnostics)
    (frame : FacadeFrame B eventCapacity) : FacadeFrame B eventCapacity :=
  ⟨{frame.runner with diagnostics := f frame.runner.diagnostics},
    {frame.shared with incrementalDiagnostics := f frame.runner.diagnostics}⟩

/-- Count a publication or ledger failure. -/
def countProtocolError : FacadeFrame B eventCapacity → FacadeFrame B eventCapacity :=
  setDiagnostics fun d => {d with protocolErrors := saturatingIncrement d.protocolErrors}

/-- Count a driver failure. -/
def countDriverError : FacadeFrame B eventCapacity → FacadeFrame B eventCapacity :=
  setDiagnostics fun d => {d with driverErrors := saturatingIncrement d.driverErrors}

/-- Signal a protocol failure for a sequence. -/
def signalProtocol (sequence : UInt32) (frame : FacadeFrame B eventCapacity) :
    FacadeFrame B eventCapacity :=
  {frame with shared := frame.shared.signalCompletion sequence .protocol}

/-- Publish the failure of a command of the given kind. -/
def publishFailed (sequence : CommandSequence) (kind : CommandKindTag) (error : BackendError)
    (frame : FacadeFrame B eventCapacity) : FacadeFrame B eventCapacity :=
  {frame with
    shared := (frame.shared.publishEvent (.failed error)).signalCompletion sequence.get
      (kind.failed error)}

end FacadeFrame

open FacadeFrame

/-- Count the call and its wake sources. -/
def beginCall (ready : WaitSet) (frame : FacadeFrame B eventCapacity) :
    FacadeFrame B eventCapacity :=
  setDiagnostics (fun d =>
    recordReady ready {d with runOnceCalls := saturatingIncrement d.runOnceCalls}) frame

/-- Receive a command while the driver can retain one more. -/
def receiveCommand (frame : FacadeFrame B eventCapacity) :
    Option Command × FacadeFrame B eventCapacity :=
  if frame.runner.driver.canSubmit then
    match frame.shared.commands.tryReceive with
    | (some command, commands) =>
      (some command, {frame with shared := {frame.shared with commands := commands}})
    | (none, _) => (none, frame)
  else (none, frame)

/-- Request that a command stands for, with the runner's defaults. -/
def requestOf (config : WifiConfig) : CommandKind → IncrementalRequest
  | .initialise => .initialise config
  | .scan scan => .scan scan
  | .connect station => .connect station
  | .disconnect => .disconnect config

/-- Enter a command in the ledger and submit it to the driver. -/
def submitCommand (command : Command) :
    EStateM IncrementalRadioRunnerError (FacadeFrame B eventCapacity) Unit := do
  match CommandSequence.tryFromRaw command.sequence with
  | none => do
    modify (signalProtocol command.sequence)
    throw .invalidCommandSequence
  | some sequence => do
    if !(← ledgerField.update
        (CommandLedger.insert sequence (.fromCommand command.kind))) then
      modify (signalProtocol command.sequence)
      throw .commandCapacity
    let frame ← get
    withCleanup
      (fun frame => signalProtocol command.sequence
        (ledgerField.set (frame.runner.ledger.remove sequence).2 frame))
      (driverField.call (fun error => .commandArbiter error.reason)
        (IncrementalBackendDriver.submit sequence (requestOf frame.runner.config command.kind)))

/-- Submit a received command; a failure is counted. -/
def acceptCommand (command : Command) :
    EStateM IncrementalRadioRunnerError (FacadeFrame B eventCapacity) Unit :=
  withCleanup countProtocolError (submitCommand command)

/-- Take the oldest cancellation. -/
def receiveCancellation (frame : FacadeFrame B eventCapacity) :
    Option UInt32 × FacadeFrame B eventCapacity :=
  match frame.shared.cancellations.tryReceive with
  | (some taken, cancellations) =>
    (some taken, {frame with shared := {frame.shared with cancellations := cancellations}})
  | (none, _) => (none, frame)

/-- Completion and event of a success of the command's own kind. -/
def successfulCompletion (kind : CommandKindTag) (completion : IncrementalCompletion) :
    Option (CompletionKind × WifiEvent) :=
  match kind, completion with
  | .initialise, .initialized => some (.initialise (.ok ()), .initialized)
  | .scan, .scan outcome =>
    some (.scan (.ok outcome), .scanCompleted outcome.count outcome.truncated)
  | .connect, .connected info => some (.connect (.ok info), .connected info)
  | .disconnect, .disconnected => some (.disconnect (.ok ()), .disconnected 0)
  | _, _ => none

/-- Take the kind of a terminated command out of the ledger. -/
def releaseCommand (sequence : CommandSequence) :
    EStateM IncrementalRadioRunnerError (FacadeFrame B eventCapacity) CommandKindTag := do
  match ← ledgerField.update (CommandLedger.remove sequence) with
  | some kind => pure kind
  | none => do
    modify (signalProtocol sequence.get)
    throw .missingCommand

variable [IncrementalWifiBackend B]

/-- Publish the identity of an initialized backend, an event and a completion. -/
def publishSuccess (sequence : CommandSequence) (kind : CommandKindTag)
    (completion : CompletionKind) (event : WifiEvent) (frame : FacadeFrame B eventCapacity) :
    FacadeFrame B eventCapacity :=
  let capabilities := if kind = .initialise then
    IncrementalWifiBackend.l2Capabilities frame.runner.driver.backend else none
  {frame with
    shared := ((frame.shared.publishCapabilities capabilities).publishEvent event).signalCompletion
      sequence.get completion}

/-- Publish a terminal event; any other event publishes nothing. -/
def publishTerminal :
    IncrementalDriverEvent →
      EStateM IncrementalRadioRunnerError (FacadeFrame B eventCapacity) Unit
  | .completed sequence completion => do
    let kind ← releaseCommand sequence
    match successfulCompletion kind completion with
    | none => do
      modify (signalProtocol sequence.get)
      throw .completionMismatch
    | some (completion, event) => modify (publishSuccess sequence kind completion event)
  | .cancelled sequence _ => do
    let kind ← releaseCommand sequence
    modify (publishFailed sequence kind (.new .cancelled 0))
  | .failed sequence error _ => do
    let kind ← releaseCommand sequence
    modify (publishFailed sequence kind error)
  | .idle | .started _ _ | .cancelRequested _ _ | .waiting _ _ _ | .pending _ _ _ _
  | .budgetExhausted _ _ _ _ => pure ()

/-- Forward a taken cancellation to the driver; a removed command is published. -/
def requestCancellation (taken : UInt32) :
    EStateM IncrementalRadioRunnerError (FacadeFrame B eventCapacity)
      (Option IncrementalDriverEvent) := do
  match CommandSequence.tryFromRaw taken with
  | none => do
    modify countProtocolError
    throw .invalidCommandSequence
  | some sequence => do
    match ← driverField.call .driver (IncrementalBackendDriver.requestCancel sequence) with
    | none => pure none
    | some event => do
      modify (setDiagnostics (recordEvent event))
      publishTerminal event
      pure (some event)

/-- Drive the backend once, with the scan buffer borrowed, and count the event. -/
def driveBackend (ready : WaitSet) :
    EStateM IncrementalRadioRunnerError (FacadeFrame B eventCapacity) IncrementalDriverEvent := do
  let event ← withCleanup countDriverError
    (driveField.call .driver (IncrementalBackendDriver.driveOnce (ready.without .cancel)))
  modify (setDiagnostics (recordEvent event))
  pure event

/-- Publish the event of a drive; a failure is counted. -/
def publishDriven (event : IncrementalDriverEvent) :
    EStateM IncrementalRadioRunnerError (FacadeFrame B eventCapacity) Unit :=
  withCleanup countProtocolError (publishTerminal event)

/-- Take at most one cancellation and forward it. -/
def sampleCancellation :
    EStateM IncrementalRadioRunnerError (FacadeFrame B eventCapacity)
      (Option IncrementalDriverEvent) := do
  match ← modifyGet receiveCancellation with
  | some taken => requestCancellation taken
  | none => pure none

/-- Accept at most one command and forward at most one cancellation; the event of a
removed command ends the call. -/
def acceptRequests (ready : WaitSet) :
    EStateM IncrementalRadioRunnerError (FacadeFrame B eventCapacity)
      (Option IncrementalDriverEvent) := do
  modify (beginCall ready)
  match ← modifyGet receiveCommand with
  | some command => acceptCommand command
  | none => pure ()
  sampleCancellation

/-- Drive the backend once and publish its event. -/
def driveAndPublish (ready : WaitSet) :
    EStateM IncrementalRadioRunnerError (FacadeFrame B eventCapacity) IncrementalDriverEvent := do
  let event ← driveBackend ready
  publishDriven event
  pure event

/-- Drive the backend, unless a removed command already ended the call. -/
def finishCall (ready : WaitSet) :
    Option IncrementalDriverEvent →
      EStateM IncrementalRadioRunnerError (FacadeFrame B eventCapacity) IncrementalDriverEvent
  | some event => pure event
  | none => driveAndPublish ready

/-- Accept at most one command and execute at most one bounded driver action. -/
def runOnce (ready : WaitSet) :
    EStateM IncrementalRadioRunnerError (FacadeFrame B eventCapacity) IncrementalDriverEvent := do
  let removed ← acceptRequests ready
  finishCall ready removed

/-- Driver and ledger of a runner: the commands it owns, and their kinds. -/
structure Owner (B : Type) where
  /-- The executable driver. -/
  driver : IncrementalBackendDriver B
  /-- Kinds of the commands the driver owns. -/
  ledger : CommandLedger

/-- Driver and ledger of a frame. -/
def FacadeFrame.owner (frame : FacadeFrame B eventCapacity) : Owner B :=
  ⟨frame.runner.driver, frame.runner.ledger⟩

/-- Driver after a command was submitted. -/
def submittedDriver (sequence : CommandSequence) (request : IncrementalRequest)
    (driver : IncrementalBackendDriver B) : IncrementalBackendDriver B :=
  {driver with arbiter := {driver.arbiter with pending := some ⟨sequence, request⟩}}

/-- Driver after its pending command was removed. -/
def removedDriver (driver : IncrementalBackendDriver B) : IncrementalBackendDriver B :=
  {driver with arbiter := {driver.arbiter with pending := none}}

/-- Completion that a terminal event publishes for a command of the given kind. -/
def publishedKind (kind : CommandKindTag) : IncrementalDriverEvent → CompletionKind
  | .completed _ completion =>
    match successfulCompletion kind completion with
    | some (completion, _) => completion
    | none => .protocol
  | .cancelled _ _ => kind.failed (.new .cancelled 0)
  | .failed _ error _ => kind.failed error
  | _ => .protocol

/-- The event reports a success of another kind than the command's. -/
def mismatched (kind : CommandKindTag) : IncrementalDriverEvent → Bool
  | .completed _ completion => (successfulCompletion kind completion).isNone
  | _ => false

/-- Frame after a terminal event of a command of the given kind was published. -/
def published (sequence : CommandSequence) (kind : CommandKindTag)
    (event : IncrementalDriverEvent) (frame : FacadeFrame B eventCapacity) :
    FacadeFrame B eventCapacity :=
  match event with
  | .completed _ completion =>
    match successfulCompletion kind completion with
    | some (completion, event) => publishSuccess sequence kind completion event frame
    | none => signalProtocol sequence.get frame
  | .cancelled _ _ => publishFailed sequence kind (.new .cancelled 0) frame
  | .failed _ error _ => publishFailed sequence kind error frame
  | _ => frame

/-- A success is of the command's own kind exactly when it is published as such. -/
theorem successfulCompletion_eq_none (kind : CommandKindTag) (completion : IncrementalCompletion) :
    successfulCompletion kind completion = none ↔ completion.tag ≠ kind := by
  cases kind <;> cases completion <;> simp [successfulCompletion, IncrementalCompletion.tag]

/-- A published completion is of the command's own kind unless the success mismatched. -/
theorem publishedKind_tag {kind : CommandKindTag} {event : IncrementalDriverEvent}
    {x : CommandSequence} (ht : event.terminal = some x) :
    if mismatched kind event then publishedKind kind event = .protocol
    else (publishedKind kind event).tag = some kind := by
  cases event with
  | completed y completion => cases kind <;> cases completion <;> rfl
  | cancelled y suppressed => exact failed_tag _ kind
  | failed y error pending => exact failed_tag _ kind
  | _ => cases ht

section Outcomes

variable {frame : FacadeFrame B eventCapacity}

omit [IncrementalWifiBackend B] in
/-- With room in the driver and the ledger a command with a valid sequence is submitted. -/
theorem acceptCommand_submitted {command : Command} {sequence : CommandSequence}
    (hs : CommandSequence.tryFromRaw command.sequence = some sequence)
    (hl : frame.runner.ledger.entries.length < 2) (hc : frame.runner.driver.canSubmit = true) :
    acceptCommand command frame = .ok () {frame with
      runner := {frame.runner with
        driver := submittedDriver sequence (requestOf frame.runner.config command.kind)
          frame.runner.driver
        ledger := (frame.runner.ledger.insert sequence (.fromCommand command.kind)).2}} := by
  have hpending : frame.runner.driver.arbiter.pending = none := Option.isNone_iff_eq_none.mp hc
  obtain ⟨hinsert, -⟩ := CommandLedger.insert_of_length hl sequence (.fromCommand command.kind)
  rcases hx : frame.runner.ledger.insert sequence (.fromCommand command.kind) with ⟨inserted, ledger⟩
  rw [hx] at hinsert
  dsimp only at hinsert
  subst hinsert
  have hsubmit : IncrementalBackendDriver.submit sequence
      (requestOf frame.runner.config command.kind) frame.runner.driver =
      .ok () (submittedDriver sequence (requestOf frame.runner.config command.kind)
        frame.runner.driver) := DriverCalls.submit_of_free hpending _ _
  refine withCleanup_ok ?_
  unfold submitCommand
  rw [hs]
  dsimp only
  rw [bind_ok (update_of (f := ledgerField) hx)]
  simp only [Bool.not_true, Bool.false_eq_true, if_false]
  rw [bind_ok (get_apply _)]
  exact withCleanup_ok (call_ok (f := driverField) hsubmit)

omit [IncrementalWifiBackend B] in
/-- A command in the ledger is released with the kind of its entry. -/
theorem releaseCommand_of_some {sequence : CommandSequence} {kind : CommandKindTag}
    (hk : (frame.runner.ledger.remove sequence).1 = some kind) :
    releaseCommand sequence frame =
      .ok kind (ledgerField.set (frame.runner.ledger.remove sequence).2 frame) := by
  rcases hl : frame.runner.ledger.remove sequence with ⟨removed, ledger⟩
  rw [hl] at hk
  dsimp only at hk
  subst hk
  unfold releaseCommand
  rw [bind_ok (update_of (f := ledgerField) hl)]
  rfl

/-- A terminal event of a command in the ledger is published, and rejected after its
publication when it is a success of another kind. -/
theorem publishTerminal_of_some {event : IncrementalDriverEvent} {sequence : CommandSequence}
    {kind : CommandKindTag} (ht : event.terminal = some sequence)
    (hk : (frame.runner.ledger.remove sequence).1 = some kind) :
    publishTerminal event frame =
      if mismatched kind event then
        .error .completionMismatch (published sequence kind event
          (ledgerField.set (frame.runner.ledger.remove sequence).2 frame))
      else .ok () (published sequence kind event
        (ledgerField.set (frame.runner.ledger.remove sequence).2 frame)) := by
  have hr := releaseCommand_of_some hk
  cases event with
  | completed x completion =>
    cases ht
    rw [publishTerminal, bind_ok hr]
    cases hs : successfulCompletion kind completion with
    | none =>
      simp only [mismatched, published, hs, Option.isNone_none, if_true]
      rfl
    | some pair =>
      rcases pair with ⟨completion, event⟩
      simp only [mismatched, published, hs, Option.isNone_some, Bool.false_eq_true, if_false]
      rfl
  | cancelled x suppressed =>
    cases ht
    rw [publishTerminal, bind_ok hr]
    rfl
  | failed x error pending =>
    cases ht
    rw [publishTerminal, bind_ok hr]
    rfl
  | _ => cases ht

/-- Any other event publishes nothing. -/
theorem publishTerminal_of_none {event : IncrementalDriverEvent} (ht : event.terminal = none) :
    publishTerminal event frame = .ok () frame := by
  cases event <;> first | rfl | cases ht

/-- A publication leaves the owner alone. -/
theorem published_owner (sequence : CommandSequence) (kind : CommandKindTag)
    (event : IncrementalDriverEvent) : (published sequence kind event frame).owner = frame.owner := by
  unfold published
  split
  · split <;> rfl
  · rfl
  · rfl
  · rfl

/-- A publication signals one completion and leaves the rest of the mailbox alone. -/
theorem published_mailbox {event : IncrementalDriverEvent} {sequence : CommandSequence}
    (kind : CommandKindTag) (ht : event.terminal = some sequence) :
    (published sequence kind event frame).shared.mailbox = {frame.shared.mailbox with
      completion := frame.shared.mailbox.completion.signal
        ⟨sequence.get, publishedKind kind event⟩} := by
  have hsignal : ∀ (shared : SharedState eventCapacity) (completion : CompletionKind),
      shared.mailbox = frame.shared.mailbox →
      (shared.signalCompletion sequence.get completion).mailbox = {frame.shared.mailbox with
        completion := frame.shared.mailbox.completion.signal ⟨sequence.get, completion⟩} := by
    intro shared completion hm
    rw [← hm]
    rfl
  cases event with
  | completed x completion =>
    simp only [published, publishedKind]
    cases hs : successfulCompletion kind completion with
    | none => rfl
    | some pair =>
      refine hsignal _ _ ?_
      rw [SharedState.publishEvent_mailbox, SharedState.publishCapabilities_mailbox]
  | cancelled x suppressed => exact hsignal _ _ (SharedState.publishEvent_mailbox _ _)
  | failed x error pending => exact hsignal _ _ (SharedState.publishEvent_mailbox _ _)
  | _ => cases ht

/-- A cancellation of the pending command removes it, and publishes the cancellation. -/
theorem requestCancellation_removed {sequence : CommandSequence} {kind : CommandKindTag}
    (ha : frame.runner.driver.arbiter.activeSequence ≠ some sequence)
    (hp : frame.runner.driver.arbiter.pendingSequence = some sequence)
    (hk : (frame.runner.ledger.remove sequence).1 = some kind) :
    requestCancellation sequence.get frame = .ok (some (.cancelled sequence false))
      (published sequence kind (.cancelled sequence false)
        (ledgerField.set (frame.runner.ledger.remove sequence).2
          (setDiagnostics (recordEvent (.cancelled sequence false))
            (driverField.set (removedDriver frame.runner.driver) frame)))) := by
  have heffect := CommandArbiter.requestCancel_effect sequence frame.runner.driver.arbiter
  have hcall : IncrementalBackendDriver.requestCancel sequence frame.runner.driver =
      .ok (some (.cancelled sequence false)) (removedDriver frame.runner.driver) := by
    rw [DriverCalls.requestCancel_apply]
    generalize CommandArbiter.requestCancel sequence frame.runner.driver.arbiter = effect at heffect
    cases heffect with
    | requestActive active hact hs hr hi =>
      exact (ha (by simp [CommandArbiter.activeSequence, hact, hs])).elim
    | alreadyRequested active hact hs hr =>
      exact (ha (by simp [CommandArbiter.activeSequence, hact, hs])).elim
    | removePending hs hp' => rfl
    | notFound hs hp' => exact (hp' hp).elim
  unfold requestCancellation
  rw [CommandSequence.tryFromRaw_get]
  dsimp only
  rw [bind_ok (call_ok (f := driverField) hcall)]
  dsimp only
  rw [bind_ok (modify_apply _ _)]
  have hpublish := @publishTerminal_of_some _ _ _
    (setDiagnostics (recordEvent (.cancelled sequence false))
      (driverField.set (removedDriver frame.runner.driver) frame)) (.cancelled sequence false) sequence kind rfl hk
  rw [if_neg (by simp [mismatched])] at hpublish
  rw [bind_ok hpublish]
  rfl

/-- Any other cancellation only reaches the flags of the active command. -/
theorem requestCancellation_kept {sequence : CommandSequence}
    (h : frame.runner.driver.arbiter.activeSequence = some sequence ∨
      frame.runner.driver.arbiter.pendingSequence ≠ some sequence) :
    requestCancellation sequence.get frame = .ok none
      (driverField.set
        (after (IncrementalBackendDriver.requestCancel sequence frame.runner.driver)) frame) := by
  have heffect := CommandArbiter.requestCancel_effect sequence frame.runner.driver.arbiter
  have hcall : IncrementalBackendDriver.requestCancel sequence frame.runner.driver =
      .ok none (after (IncrementalBackendDriver.requestCancel sequence frame.runner.driver)) := by
    rw [DriverCalls.requestCancel_apply]
    generalize CommandArbiter.requestCancel sequence frame.runner.driver.arbiter = effect at heffect
    cases heffect with
    | requestActive active hact hs hr hi => rfl
    | alreadyRequested active hact hs hr => rfl
    | removePending hs hp =>
      rcases h with h | h
      · exact (hs h).elim
      · exact (h hp).elim
    | notFound hs hp => rfl
  unfold requestCancellation
  rw [CommandSequence.tryFromRaw_get]
  dsimp only
  rw [bind_ok (call_ok (f := driverField) hcall)]
  rfl

/-- An accepted drive is counted under its event. -/
theorem driveBackend_ok {ready : WaitSet} {event : IncrementalDriverEvent}
    {drive : DriverFrame B maxScanResults}
    (h : IncrementalBackendDriver.driveOnce (ready.without .cancel)
      ⟨frame.runner.driver, frame.shared.scanResults⟩ = .ok event drive) :
    driveBackend ready frame =
      .ok event (setDiagnostics (recordEvent event) (driveField.set drive frame)) := by
  unfold driveBackend
  rw [bind_ok (withCleanup_ok (call_ok (f := driveField) h))]
  rfl

/-- A failed drive is counted as a driver failure. -/
theorem driveBackend_error {ready : WaitSet} {error : IncrementalDriverError}
    {drive : DriverFrame B maxScanResults}
    (h : IncrementalBackendDriver.driveOnce (ready.without .cancel)
      ⟨frame.runner.driver, frame.shared.scanResults⟩ = .error error drive) :
    driveBackend ready frame =
      .error (.driver error) (countDriverError (driveField.set drive frame)) := by
  unfold driveBackend
  rw [bind_error (withCleanup_error (call_error (f := driveField) h))]

end Outcomes

end HisiRfCore.IncrementalFacade
