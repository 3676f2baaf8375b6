import HisiRfCore.DriverErrors
import HisiRfCore.FacadeCancellation
import HisiRfCore.IncrementalWait

/-!
# No wake is lost and no wake is idle

A wait decides from the wait intent whether to sleep, and a call decides from
the channels, the driver and the ready set what to do. The two agree: when a
wait stays pending, a call with an empty ready set would do nothing, and when a
wait is ready, a call with its sources takes a message or calls the backend.
-/

namespace HisiRfCore.WaitReadiness

open NonZeroCounter StateBorrow BoundedChannel WifiTypes RadioStorage AsyncControl ServiceProtocol
open ServiceDelivery IncrementalContract CommandArbitration RunnerState BackendDriver
open DriverCoherence DriverCalls IncrementalFacade IncrementalInterleaving IncrementalService
open CancellationForwarding BackendTrace BackendContract InputOutputMachine IncrementalRunnerState
open WakeSelection DriverErrors FacadeCancellation IncrementalWait FacadeFrame

variable {B E F P ε : Type} {eventCapacity : ℕ}

/-- The two channels a call takes from. -/
def queues (frame : FacadeFrame B eventCapacity) : Channel Command 1 × Channel UInt32 3 :=
  (frame.shared.commands, frame.shared.cancellations)

/-- The driver and the channels, which a publication does not write. -/
def unpublished (frame : FacadeFrame B eventCapacity) :
    IncrementalBackendDriver B × Channel Command 1 × Channel UInt32 3 :=
  (frame.runner.driver, queues frame)

section Frames

/-- An event leaves the channels alone. -/
theorem publishEvent_queues (event : WifiEvent) (shared : SharedState eventCapacity) :
    (shared.publishEvent event).commands = shared.commands ∧
      (shared.publishEvent event).cancellations = shared.cancellations := by
  have hm := SharedState.publishEvent_mailbox event shared
  exact ⟨congrArg Mailbox.commands hm, congrArg Mailbox.cancellations hm⟩

/-- A failure publication leaves the driver and the channels alone. -/
theorem publishFailed_unpublished (sequence : CommandSequence) (kind : CommandKindTag)
    (error : BackendError) (frame : FacadeFrame B eventCapacity) :
    unpublished (publishFailed sequence kind error frame) = unpublished frame := by
  obtain ⟨hc, hx⟩ := publishEvent_queues (.failed error) frame.shared
  simp only [unpublished, queues, publishFailed, SharedState.signalCompletion, hc, hx]

variable [IncrementalWifiBackend B]

/-- A success publication leaves the driver and the channels alone. -/
theorem publishSuccess_unpublished (sequence : CommandSequence) (kind : CommandKindTag)
    (completion : CompletionKind) (event : WifiEvent) (frame : FacadeFrame B eventCapacity) :
    unpublished (publishSuccess sequence kind completion event frame) = unpublished frame := by
  have hm : (SharedState.publishEvent event (SharedState.publishCapabilities
      (if kind = .initialise then
        IncrementalWifiBackend.l2Capabilities frame.runner.driver.backend else none)
      frame.shared)).mailbox = frame.shared.mailbox := by
    rw [SharedState.publishEvent_mailbox, SharedState.publishCapabilities_mailbox]
  have hc := congrArg Mailbox.commands hm
  have hx := congrArg Mailbox.cancellations hm
  simp only [SharedState.mailbox] at hc hx
  simp only [unpublished, queues, publishSuccess, SharedState.signalCompletion, hc, hx]

omit [IncrementalWifiBackend B] in
/-- Releasing a command writes the ledger and the signal. -/
theorem releaseCommand_unpublished (sequence : CommandSequence) :
    Keeps (@unpublished B eventCapacity) (releaseCommand sequence) := by
  refine (keeps_update (fun _ _ => rfl) _).bind fun removed => ?_
  cases removed with
  | some kind => exact keeps_pure kind
  | none =>
    refine Keeps.bind (keeps_modify ?_) fun _ => keeps_throw _
    exact fun _ => rfl

/-- A publication leaves the driver and the channels alone. -/
theorem publishTerminal_unpublished (event : IncrementalDriverEvent) :
    Keeps (@unpublished B eventCapacity) (publishTerminal event) := by
  cases event with
  | completed sequence completion =>
    refine (releaseCommand_unpublished sequence).bind fun kind => ?_
    cases successfulCompletion kind completion with
    | none =>
      refine Keeps.bind (keeps_modify ?_) fun _ => keeps_throw _
      exact fun _ => rfl
    | some pair => exact keeps_modify (publishSuccess_unpublished sequence kind pair.1 pair.2)
  | cancelled sequence suppressed =>
    exact (releaseCommand_unpublished sequence).bind fun kind =>
      keeps_modify (publishFailed_unpublished sequence kind _)
  | failed sequence error pending =>
    exact (releaseCommand_unpublished sequence).bind fun kind =>
      keeps_modify (publishFailed_unpublished sequence kind error)
  | _ => exact keeps_pure ()

omit [IncrementalWifiBackend B] in
/-- What a publication keeps, its channels alone keep. -/
theorem keeps_queues {α : Type}
    {method : EStateM IncrementalRadioRunnerError (FacadeFrame B eventCapacity) α}
    (h : Keeps unpublished method) : Keeps queues method :=
  fun frame => congrArg Prod.snd (h frame)

omit [IncrementalWifiBackend B] in
/-- Entering a command leaves the channels alone. -/
theorem acceptCommand_queues (command : Command) :
    Keeps (@queues B eventCapacity) (acceptCommand command) := by
  refine Keeps.withCleanup ?_ fun _ => rfl
  unfold submitCommand
  cases CommandSequence.tryFromRaw command.sequence with
  | none =>
    refine Keeps.bind (keeps_modify ?_) fun _ => keeps_throw _
    exact fun _ => rfl
  | some sequence =>
    refine (keeps_update (fun _ _ => rfl) _).bind fun inserted => ?_
    have hsubmit : Keeps (@queues B eventCapacity) (do
        let frame ← get
        withCleanup
          (fun frame => signalProtocol command.sequence
            (ledgerField.set (frame.runner.ledger.remove sequence).2 frame))
          (driverField.call (fun error => IncrementalRadioRunnerError.commandArbiter error.reason)
            (IncrementalBackendDriver.submit sequence
              (requestOf frame.runner.config command.kind)))) :=
      keeps_get.bind fun frame =>
        Keeps.withCleanup (keeps_call (fun _ _ => rfl) _ _) fun _ => rfl
    cases inserted with
    | true => exact hsubmit
    | false =>
      refine Keeps.bind (keeps_modify ?_) fun _ => (keeps_throw _).bind fun _ => hsubmit
      exact fun _ => rfl

/-- Forwarding a taken cancellation leaves the channels alone. -/
theorem requestCancellation_queues (taken : UInt32) :
    Keeps (@queues B eventCapacity) (requestCancellation taken) := by
  unfold requestCancellation
  cases CommandSequence.tryFromRaw taken with
  | none =>
    refine Keeps.bind (keeps_modify ?_) fun _ => keeps_throw _
    exact fun _ => rfl
  | some sequence =>
    refine (keeps_call (fun _ _ => rfl) _ _).bind fun removed => ?_
    cases removed with
    | none => exact keeps_pure none
    | some event =>
      refine Keeps.bind (keeps_modify ?_) fun _ => ?_
      · exact fun _ => rfl
      · exact (keeps_queues (publishTerminal_unpublished event)).bind fun _ => keeps_pure _

/-- The drive and its publication leave the channels alone. -/
theorem driveAndPublish_queues (ready : WaitSet) :
    Keeps (@queues B eventCapacity) (driveAndPublish ready) := by
  refine Keeps.bind ?_ fun event => ?_
  · refine Keeps.bind (Keeps.withCleanup (keeps_call (fun _ _ => rfl) _ _) fun _ => rfl) fun _ => ?_
    refine Keeps.bind (keeps_modify ?_) fun _ => keeps_pure _
    exact fun _ => rfl
  · refine Keeps.bind ?_ fun _ => keeps_pure _
    exact Keeps.withCleanup (keeps_queues (publishTerminal_unpublished event)) fun _ => rfl

/-- The end of a call leaves the channels alone. -/
theorem finishCall_queues (ready : WaitSet) (removed : Option IncrementalDriverEvent) :
    Keeps (@queues B eventCapacity) (finishCall ready removed) := by
  cases removed with
  | none => exact driveAndPublish_queues ready
  | some event => exact keeps_pure event

/-- Looking for a cancellation leaves the command channel alone. -/
theorem sampleCancellation_commands :
    Keeps (fun frame : FacadeFrame B eventCapacity => frame.shared.commands)
      sampleCancellation := by
  refine Keeps.bind (fun frame => ?_) fun taken => ?_
  · show (receiveCancellation frame).2.shared.commands = frame.shared.commands
    unfold receiveCancellation
    split <;> rfl
  · cases taken with
    | none => exact keeps_pure none
    | some taken => exact fun frame => congrArg Prod.fst (requestCancellation_queues taken frame)

end Frames

section Calls

variable [IncrementalWifiBackend B] {frame : FacadeFrame B eventCapacity}

/-- With room in the driver a call takes the queued command. -/
theorem runOnce_takes_command {command : Command} {rest : List Command}
    (hc : frame.runner.driver.canSubmit = true)
    (hq : frame.shared.commands.queued = command :: rest) (ready : WaitSet) :
    (after (runOnce ready frame)).shared.commands.received =
      frame.shared.commands.received ++ [command] := by
  have hr := @receiveCommand_some _ _ (beginCall ready frame) command rest hc hq
  have hkeep : Keeps (fun frame : FacadeFrame B eventCapacity => frame.shared.commands)
      ((acceptCommand command >>= fun _ => sampleCancellation) >>= finishCall ready) := by
    refine Keeps.bind (Keeps.bind ?_ fun _ => sampleCancellation_commands) ?_
    · exact fun frame => congrArg Prod.fst (acceptCommand_queues command frame)
    · exact fun removed frame => congrArg Prod.fst (finishCall_queues ready removed frame)
  unfold runOnce acceptRequests
  simp only [bind_assoc]
  rw [bind_ok (modify_apply _ _), bind_ok (modifyGet_of hr)]
  refine (congrArg Channel.received (hkeep _)).trans ?_
  exact (tryReceive_of_cons hq).2.1

/-- A call that receives no command begins with the cancellations. -/
theorem runOnce_unreceived
    (hn : frame.shared.commands.queued = [] ∨ frame.runner.driver.canSubmit = false)
    (ready : WaitSet) :
    runOnce ready frame = (sampleCancellation >>= finishCall ready) (beginCall ready frame) := by
  have hr : receiveCommand (beginCall ready frame) = (none, beginCall ready frame) :=
    receiveCommand_none hn
  unfold runOnce acceptRequests
  simp only [bind_assoc]
  rw [bind_ok (modify_apply _ _), bind_ok (modifyGet_of hr)]

/-- A call that receives no command takes the oldest cancellation. -/
theorem runOnce_takes_cancellation {x : UInt32} {rest : List UInt32}
    (hn : frame.shared.commands.queued = [] ∨ frame.runner.driver.canSubmit = false)
    (hq : frame.shared.cancellations.queued = x :: rest) (ready : WaitSet) :
    (after (runOnce ready frame)).shared.cancellations.received =
      frame.shared.cancellations.received ++ [x] := by
  have hr := @receiveCancellation_some _ _ (beginCall ready frame) x rest hq
  have hkeep : Keeps (@queues B eventCapacity)
      (requestCancellation x >>= finishCall ready) :=
    (requestCancellation_queues x).bind (finishCall_queues ready)
  rw [runOnce_unreceived hn]
  unfold sampleCancellation
  rw [bind_assoc, bind_ok (modifyGet_of hr)]
  refine (congrArg (fun queues => Channel.received queues.2) (hkeep _)).trans ?_
  exact (tryReceive_of_cons hq).2.1

/-- A call that finds neither message drives the backend once. -/
theorem runOnce_drives
    (hn : frame.shared.commands.queued = [] ∨ frame.runner.driver.canSubmit = false)
    (hq : frame.shared.cancellations.queued = []) (ready : WaitSet) :
    runOnce ready frame = driveAndPublish ready (beginCall ready frame) := by
  have hr : receiveCancellation (beginCall ready frame) = (none, beginCall ready frame) :=
    receiveCancellation_none hq
  rw [runOnce_unreceived hn]
  unfold sampleCancellation
  rw [bind_assoc, bind_ok (modifyGet_of hr)]
  rfl

/-- The driver after a drive and its publication is that of the drive. -/
theorem driveAndPublish_driver (ready : WaitSet) (frame : FacadeFrame B eventCapacity) :
    (after (driveAndPublish ready frame)).runner.driver =
      (after (IncrementalBackendDriver.driveOnce (ready.without .cancel)
        ⟨frame.runner.driver, frame.shared.scanResults⟩)).driver := by
  have hpublish : ∀ event, Keeps (fun frame : FacadeFrame B eventCapacity => frame.runner.driver)
      (publishDriven event >>= fun _ => pure event) := by
    refine fun event => Keeps.bind ?_ fun _ => keeps_pure _
    refine Keeps.withCleanup (fun frame => ?_) fun _ => rfl
    exact congrArg Prod.fst (publishTerminal_unpublished event frame)
  unfold driveAndPublish
  cases hd : IncrementalBackendDriver.driveOnce (ready.without .cancel)
      ⟨frame.runner.driver, frame.shared.scanResults⟩ with
  | ok event drive =>
    rw [bind_ok (driveBackend_ok hd)]
    exact hpublish event _
  | error error drive =>
    rw [bind_error (driveBackend_error hd)]
    rfl

end Calls

section Drives

variable [IncrementalWifiBackend B] {n : ℕ}
  {driver : IncrementalBackendDriver (BackendRecorder B)} {scan : Vector ScanResult n}
  {ready : WaitSet}
  {result : EStateM.Result IncrementalDriverError (DriverFrame (BackendRecorder B) n)
    IncrementalDriverEvent}

/-- Only a waiting operation, and an idle driver, may sleep. -/
theorem runImmediately_of_active {active : ActiveCommand}
    (ha : driver.arbiter.active = some active) :
    driver.waitIntent.runImmediately =
      (cancelDue driver active || driver.runner.waitFor.isEmpty) := by
  simp only [IncrementalBackendDriver.waitIntent, action_of_active ha]
  cases cancelDue driver active <;> simp

/-- A pending command without an active one is started at once. -/
theorem runImmediately_of_inactive (hc : Coherent driver) (ha : driver.arbiter.active = none) :
    driver.waitIntent.runImmediately = driver.arbiter.pending.isSome := by
  simp only [IncrementalBackendDriver.waitIntent, CommandArbiter.action, ha, hc.notStarting]
  cases driver.arbiter.pending <;> rfl

/-- A source that is ready and in the intent is in the set that a poll selects from. -/
theorem timed_subscribes {active : ActiveCommand} (ha : driver.arbiter.active = some active)
    {reason : WakeReason} (hr : ready.contains (source reason) = true)
    (hs : driver.waitIntent.sources.contains (source reason) = true) :
    (timed driver active.operation ready).waitFor.contains (source reason) = true := by
  have hdeadline : driver.nextDeadlineUs =
      IncrementalWifiBackend.nextDeadlineUs driver.backend active.operation := by
    rw [IncrementalBackendDriver.nextDeadlineUs, CommandArbiter.activeOperation_of_active ha]
    rfl
  simp only [IncrementalBackendDriver.waitIntent, hdeadline] at hs
  unfold timed
  cases hd : (IncrementalWifiBackend.nextDeadlineUs driver.backend active.operation).isSome with
  | false =>
    rw [hd, if_neg (by decide)] at hs
    rw [if_neg (by simp)]
    exact hs
  | true =>
    rw [hd, if_pos rfl, contains_union] at hs
    by_cases ht : ready.contains .timer = true
    · rw [if_pos (by simp [ht])]
      show (driver.runner.waitFor.union .timer).contains (source reason) = true
      rw [contains_union]
      exact hs
    · rw [if_neg (by simp [ht])]
      rcases Bool.or_eq_true_iff.mp hs with hw | hw
      · exact hw
      · -- a source in the timer's set is the timer, which is not ready
        cases reason <;> first | exact (ht hr).elim | cases hw

/-- A drive that is immediately runnable calls the backend, whatever is ready. -/
theorem drive_immediate (hc : Coherent driver) (hi : driver.waitIntent.runImmediately = true)
    (h : DriveOutcome driver scan ready result) :
    ∃ call, trace (after result).driver = trace driver ++ [call] := by
  have hempty : ∀ active, driver.arbiter.active = some active → cancelDue driver active = false →
      driver.runner.waitFor = .empty := by
    intro active ha hd
    rw [runImmediately_of_active ha, hd, Bool.false_or] at hi
    exact isEmpty_iff.mp hi
  cases h with
  | idle ha hp =>
    rw [runImmediately_of_inactive hc ha, hp] at hi
    cases hi
  | started held backend ha hp hb => exact ⟨_, start_calls hb⟩
  | startFailed held backend error ha hp hb => exact ⟨_, start_calls hb⟩
  | cancelDelivered active backend ha hd hb => exact ⟨_, cancel_calls hb⟩
  | cancelFailed active backend error ha hd hb => exact ⟨_, cancel_calls hb⟩
  | waiting active waitFor runner ha hd hs =>
    obtain ⟨reason, hr⟩ := selectStep_of_empty hc ha (hempty active ha hd) hs
    cases hr
  | commandReady active runner ha hd hs =>
    obtain ⟨reason, hr⟩ := selectStep_of_empty hc ha (hempty active ha hd) hs
    cases hr
  | pollFailed active reason runner error backend output ha hd hs hb => exact ⟨_, poll_calls hb⟩
  | staleReport active reason runner report backend output ha hd hs hb hr =>
    exact ⟨_, poll_calls hb⟩
  | kept active reason runner report backend output event waitFor ha hd hs hb hr he =>
    exact ⟨_, poll_calls hb⟩
  | ended active reason runner report backend output event ha hd hs hb hr he =>
    exact ⟨_, poll_calls hb⟩

/-- With nothing ready, an operation that waits is not polled. -/
theorem not_polled (hc : Coherent driver) (hi : driver.waitIntent.runImmediately = false)
    {active : ActiveCommand} (ha : driver.arbiter.active = some active) {reason : WakeReason}
    {runner : IncrementalRunnerState} :
    (timed driver active.operation .empty).selectStep .empty ≠
      (.pollBackend active.operation reason, runner) := by
  intro hs
  have hne : driver.runner.waitFor.isEmpty = false := by
    rw [runImmediately_of_active ha] at hi
    exact (Bool.or_eq_false_iff.mp hi).2
  have htimed : timed driver active.operation .empty = driver.runner := by
    have ht : WaitSet.empty.contains .timer = false := contains_empty .timer
    unfold timed
    rw [ht, Bool.false_and, if_neg (by decide)]
  have hstep := selectStep_of_subscribed (timed_current hc ha .empty) .empty
    (by rw [htimed]; exact hne)
  rw [hs] at hstep
  cases hsel : ((timed driver active.operation .empty).selector.select
      (timed driver active.operation .empty).waitFor .empty).1 with
  | none =>
    rw [hsel] at hstep
    cases hstep
  | some picked =>
    have hin := (select_some hsel).2
    rw [contains_empty] at hin
    cases hin

/-- With nothing ready, a drive that may sleep makes no backend call. -/
theorem drive_quiet (hc : Coherent driver) (hi : driver.waitIntent.runImmediately = false)
    (h : DriveOutcome driver scan .empty result) : trace (after result).driver = trace driver := by
  have hdue : ∀ active, driver.arbiter.active = some active → cancelDue driver active ≠ true := by
    intro active ha hd
    rw [runImmediately_of_active ha, hd, Bool.true_or] at hi
    cases hi
  have hstart : ∀ held, driver.arbiter.active = none → driver.arbiter.pending ≠ some held := by
    intro held ha hp
    rw [runImmediately_of_inactive hc ha, hp] at hi
    cases hi
  cases h with
  | idle ha hp => rfl
  | started held backend ha hp hb => exact (hstart held ha hp).elim
  | startFailed held backend error ha hp hb => exact (hstart held ha hp).elim
  | cancelDelivered active backend ha hd hb => exact (hdue active ha hd).elim
  | cancelFailed active backend error ha hd hb => exact (hdue active ha hd).elim
  | waiting active waitFor runner ha hd hs => rfl
  | commandReady active runner ha hd hs => rfl
  | pollFailed active reason runner error backend output ha hd hs hb =>
    exact (not_polled hc hi ha hs).elim
  | staleReport active reason runner report backend output ha hd hs hb hr =>
    exact (not_polled hc hi ha hs).elim
  | kept active reason runner report backend output event waitFor ha hd hs hb hr he =>
    exact (not_polled hc hi ha hs).elim
  | ended active reason runner report backend output event ha hd hs hb hr he =>
    exact (not_polled hc hi ha hs).elim

/-- With an intended source ready, and not the command source, a drive calls the backend. -/
theorem drive_ready (hc : Coherent driver) (hw : WaitsFor driver)
    {reason : WakeReason} (hr : ready.contains (source reason) = true)
    (hcommand : ready.contains .command = false)
    (hsources : driver.waitIntent.sources.contains (source reason) = true)
    (h : DriveOutcome driver scan ready result) :
    ∃ call, trace (after result).driver = trace driver ++ [call] := by
  have hstep : ∀ active, driver.arbiter.active = some active →
      ∃ picked, ((timed driver active.operation ready).selectStep ready).1 =
        .pollBackend active.operation picked := by
    intro active ha
    have hsub := timed_subscribes ha hr hsources
    rw [selectStep_of_subscribed (timed_current hc ha ready) ready (isEmpty_of_contains hsub)]
    cases hsel : ((timed driver active.operation ready).selector.select
        (timed driver active.operation ready).waitFor ready).1 with
    | none => exact (select_none hsel reason ⟨hsub, hr⟩).elim
    | some picked =>
      have hin := (select_some hsel).2
      cases picked with
      | command => cases hcommand.symm.trans hin
      | backend => exact ⟨.backend, rfl⟩
      | l2Rx => exact ⟨.l2Rx, rfl⟩
      | timer => exact ⟨.timer, rfl⟩
  cases h with
  | idle ha hp =>
    have hnone : driver.nextDeadlineUs = none := by
      simp [IncrementalBackendDriver.nextDeadlineUs, CommandArbiter.activeOperation, ha]
    simp only [IncrementalBackendDriver.waitIntent, hnone, hw.inactive ha, Option.isSome_none,
      Bool.false_eq_true, if_false, contains_empty] at hsources
  | started held backend ha hp hb => exact ⟨_, start_calls hb⟩
  | startFailed held backend error ha hp hb => exact ⟨_, start_calls hb⟩
  | cancelDelivered active backend ha hd hb => exact ⟨_, cancel_calls hb⟩
  | cancelFailed active backend error ha hd hb => exact ⟨_, cancel_calls hb⟩
  | waiting active waitFor runner ha hd hs =>
    obtain ⟨picked, hpoll⟩ := hstep active ha
    rw [hs] at hpoll
    cases hpoll
  | commandReady active runner ha hd hs =>
    obtain ⟨picked, hpoll⟩ := hstep active ha
    rw [hs] at hpoll
    cases hpoll
  | pollFailed active reason runner error backend output ha hd hs hb => exact ⟨_, poll_calls hb⟩
  | staleReport active reason runner report backend output ha hd hs hb hr =>
    exact ⟨_, poll_calls hb⟩
  | kept active reason runner report backend output event waitFor ha hd hs hb hr he =>
    exact ⟨_, poll_calls hb⟩
  | ended active reason runner report backend output event ha hd hs hb hr he =>
    exact ⟨_, poll_calls hb⟩

end Drives

/-- What a run of calls and waits keeps below the wrap. -/
structure Awaited [IncrementalWifiBackend B]
    (s : IncrementalSystem (BackendRecorder B) eventCapacity) : Prop where
  /-- The system is steady. -/
  steady : Steady s
  /-- The wait set is what the backend subscribed. -/
  waits : s.plane.allocated < 2 ^ 32 - 1 → WaitsFor s.frame.runner.driver

section Invariant

variable [IncrementalWifiBackend B] {s : IncrementalSystem (BackendRecorder B) eventCapacity}

/-- Every step of a call keeps the system awaited. -/
theorem awaited_runner (ready : WaitSet) (h : Awaited s) : Awaited (runnerStep ready s).1 := by
  refine ⟨steady_runner ready h.steady, fun hb => ?_⟩
  rw [runnerStep_plane] at hb
  have hwaits := h.waits hb
  obtain ⟨t, hs, hd, -, ho⟩ := h.steady hb
  rcases runnerStep_driver ready hs hd ho with
    ⟨htrace, hactive, hrunner, -⟩ | ⟨ready', result, -, hdrive, hnext, -⟩
  · exact hwaits.congr (operation_of_activeOperation hactive) htrace
      (congrArg IncrementalRunnerState.waitFor hrunner)
  · rw [hnext]
    exact drive_waitsFor hwaits hdrive

/-- Between two calls every other step keeps the system awaited. -/
theorem awaited_other (interrupt : E → B → B) (hp : s.phase = .idle) (input : IncrementalInput E)
    (hi : ∀ ready, input ≠ .runner ready) (h : Awaited s) :
    Awaited ((incrementalMachine (recordedInterrupt interrupt)).next s input) := by
  refine ⟨steady_other interrupt hp hi h.steady, fun hb => ?_⟩
  have hwaits := h.waits
    (Nat.lt_of_le_of_lt (allocated_le_next (recordedInterrupt interrupt) input) hb)
  cases input with
  | control step => exact hwaits
  | runner ready => exact (hi ready rfl).elim
  | backendEvent event => exact hwaits.congr rfl rfl rfl

/-- Counting keeps the system awaited. -/
theorem awaited_count {plane : ControlPlane}
    {frame : FacadeFrame (BackendRecorder B) eventCapacity}
    (f : IncrementalRunnerDiagnostics → IncrementalRunnerDiagnostics)
    (h : Awaited ⟨plane, frame, .idle⟩) : Awaited ⟨plane, setDiagnostics f frame, .idle⟩ := by
  refine ⟨fun hb => ?_, h.waits⟩
  obtain ⟨t, hs, hd, ha, ho⟩ := h.steady hb
  have hview : (⟨t.plane, (setDiagnostics f frame).shared, t.inflight, t.owing, t.answered⟩ :
      Service eventCapacity).view = t.view := by
    simp only [Service.view, hs.shared]
    rfl
  refine ⟨⟨t.plane, (setDiagnostics f frame).shared, t.inflight, t.owing, t.answered⟩, ?_, ?_, ?_,
    ?_⟩
  · exact ⟨hs.plane, rfl, hs.inflight, hs.room, hs.entered, hs.taken, hs.debt⟩
  · refine service_delivers hd (.runner _ _ rfl ?_) ?_
    · rw [hview]
      exact .stay _
    · show t.plane.allocated < 2 ^ 32 - 1
      rw [hs.plane]
      exact hb
  · exact ⟨⟨ha.forwarded.queued, ha.forwarded.entering, ha.forwarded.doomed, ha.forwarded.head⟩,
      ha.pressed, ha.completing⟩
  · exact ⟨ho.traced, ho.counted, ho.starting⟩

/-- While the driver is full, a queued command has a queued cancellation before it: that of
the pending command, whose future was dropped. -/
theorem cancellation_of_full (h : Awaited s) (hp : s.phase = .idle)
    (hb : s.plane.allocated < 2 ^ 32 - 1) (hfull : s.frame.runner.driver.canSubmit = false)
    (hq : s.frame.shared.commands.queued ≠ []) : s.frame.shared.cancellations.queued ≠ [] := by
  intro hempty
  obtain ⟨t, hs, hd, ha, -⟩ := h.steady hb
  obtain ⟨sequence, hpending⟩ := pending_of_full hfull
  obtain ⟨newer, hnewer⟩ := List.exists_mem_of_ne_nil _ hq
  have hdropped := (pending_dropped hs hd hpending hnewer).1
  have hsent : t.shared.cancellations.sent = t.plane.dropped := hd.bounded.counted.delivered
  rw [← hsent, hs.shared, Channel.sent, hempty, List.append_nil] at hdropped
  have hdoomed := ha.forwarded.doomed sequence hdropped fun ready hx => by
    cases hp.symm.trans hx
  exact hdoomed.notPending hpending

end Invariant

/-- A call took a message or called the backend. -/
def Acts (before next : FacadeFrame (BackendRecorder B) eventCapacity) : Prop :=
  (∃ command, next.shared.commands.received = before.shared.commands.received ++ [command]) ∨
    (∃ sequence, next.shared.cancellations.received =
      before.shared.cancellations.received ++ [sequence]) ∨
    ∃ call, trace next.runner.driver = trace before.runner.driver ++ [call]

/-- A call took no message and made no backend call. -/
def Rests (before next : FacadeFrame (BackendRecorder B) eventCapacity) : Prop :=
  next.shared.commands = before.shared.commands ∧
    next.shared.cancellations = before.shared.cancellations ∧
    trace next.runner.driver = trace before.runner.driver

section Polls

variable [IncrementalWifiBackend B] {frame : FacadeFrame (BackendRecorder B) eventCapacity}

/-- A call is immediately runnable for the driver, for a command or for a cancellation. -/
theorem waitIntent_runImmediately (frame : FacadeFrame (BackendRecorder B) eventCapacity) :
    (waitIntent frame).runImmediately =
      (frame.runner.driver.waitIntent.runImmediately ||
        (frame.runner.driver.canSubmit && !frame.shared.commands.queued.isEmpty) ||
        !frame.shared.cancellations.queued.isEmpty) := by
  unfold waitIntent
  cases frame.runner.driver.canSubmit <;> simp [withCommand, withCancellation]

/-- Apart from the channels, a wait asks for what the driver asks for. -/
theorem waitIntent_sources (frame : FacadeFrame (BackendRecorder B) eventCapacity)
    {reason : WakeReason} (hr : reason ≠ .command) :
    (waitIntent frame).sources.contains (source reason) =
      frame.runner.driver.waitIntent.sources.contains (source reason) := by
  have hcommand : WaitSet.command.contains (source reason) = false := by
    cases reason <;> first | rfl | exact (hr rfl).elim
  have hcancel : WaitSet.cancel.contains (source reason) = false := by cases reason <;> rfl
  unfold waitIntent
  cases frame.runner.driver.canSubmit <;>
    simp [withCommand, withCancellation, hcommand, hcancel]

/-- A call that is immediately runnable acts, whatever is ready. -/
theorem acts_immediately (hc : Coherent frame.runner.driver)
    (hi : (waitIntent frame).runImmediately = true) (ready : WaitSet) :
    Acts frame (after (runOnce ready frame)) := by
  by_cases hn : frame.shared.commands.queued = [] ∨ frame.runner.driver.canSubmit = false
  · cases hq : frame.shared.cancellations.queued with
    | cons x rest => exact Or.inr (Or.inl ⟨x, runOnce_takes_cancellation hn hq ready⟩)
    | nil =>
      have himmediate : frame.runner.driver.waitIntent.runImmediately = true := by
        rw [waitIntent_runImmediately, hq] at hi
        rcases hn with hn | hn
        · simpa [hn] using hi
        · simpa [hn] using hi
      refine Or.inr (Or.inr ?_)
      rw [runOnce_drives hn hq, driveAndPublish_driver]
      exact drive_immediate hc himmediate (driveOnce_outcome hc _ _)
  · obtain ⟨hne, hroom⟩ := not_or.mp hn
    obtain ⟨command, rest, hq⟩ := List.exists_cons_of_ne_nil hne
    exact Or.inl ⟨command, runOnce_takes_command (Bool.eq_true_of_not_eq_false hroom) hq ready⟩

/-- A wait that may sleep finds both channels empty. -/
theorem queues_of_asleep {plane : ControlPlane} (h : Awaited ⟨plane, frame, .idle⟩)
    (hb : plane.allocated < 2 ^ 32 - 1) (hi : (waitIntent frame).runImmediately = false) :
    frame.shared.commands.queued = [] ∧ frame.shared.cancellations.queued = [] ∧
      frame.runner.driver.waitIntent.runImmediately = false := by
  rw [waitIntent_runImmediately] at hi
  obtain ⟨hdriver, hcancel⟩ := Bool.or_eq_false_iff.mp hi
  obtain ⟨himmediate, hcommand⟩ := Bool.or_eq_false_iff.mp hdriver
  have hempty : frame.shared.cancellations.queued = [] := by simpa using hcancel
  refine ⟨?_, hempty, himmediate⟩
  by_contra hne
  have hfull : frame.runner.driver.canSubmit = false := by simpa [hne] using hcommand
  exact cancellation_of_full h rfl hb hfull hne hempty

omit [IncrementalWifiBackend B] in
/-- With both channels empty no channel is ready. -/
theorem channelsReady_of_empty (hcommand : frame.shared.commands.queued = [])
    (hcancel : frame.shared.cancellations.queued = []) (subscribed : WaitSet) :
    channelsReady subscribed frame = .empty := by
  unfold channelsReady
  simp [hcommand, hcancel]

omit [IncrementalWifiBackend B] in
/-- The platform's part of a wait, with no channel ready: a set that is returned holds a
source that was asked for, and neither a command nor a cancellation. -/
theorem pollPlatform_ready [IncrementalWaitPlatform P ε] {intent : IncrementalWaitIntent}
    {platform : P} {ready : WaitSet}
    (h : (pollPlatform intent .empty platform).1 = .ready (.ok ready)) :
    ready.contains .command = false ∧ ready.contains .cancel = false ∧
      ∃ reason, reason ≠ .command ∧ ready.contains (source reason) = true ∧
        intent.sources.contains (source reason) = true := by
  have hresult : ∀ {set : WaitSet},
      (readyUnlessEmpty set : Poll (Except (IncrementalWaitError ε) WaitSet)) =
        .ready (.ok ready) → set = ready ∧ ready.isEmpty = false := by
    intro set hx
    unfold readyUnlessEmpty at hx
    split at hx
    · cases hx
    · next hne =>
      cases hx
      exact ⟨rfl, Bool.eq_false_iff.mpr hne⟩
  have hnothing : (readyUnlessEmpty .empty : Poll (Except (IncrementalWaitError ε) WaitSet)) ≠
      .ready (.ok ready) := fun hx => by cases hx
  unfold pollPlatform at h
  dsimp only at h
  split at h
  · exact (hnothing h).elim
  · split at h
    · exact (hnothing h).elim
    · cases h
    · next platformReady _ _ =>
      split at h
      · cases h
      · next hsubset =>
        obtain ⟨hset, hne⟩ := hresult h
        rw [empty_union] at hset
        rw [hset] at hsubset
        exact reason_of_part (by simpa using hsubset) hne

/-- The driver is coherent between two calls. -/
theorem Awaited.coherent {plane : ControlPlane} (h : Awaited ⟨plane, frame, .idle⟩)
    (hb : plane.allocated < 2 ^ 32 - 1) : Coherent frame.runner.driver := by
  obtain ⟨t, hs, -⟩ := h.steady hb
  obtain ⟨held, -, hh⟩ := hs.inflight
  exact hh.coherent

variable [IncrementalWaitPlatform P ε]

/-- When a poll of a wait is pending, a call with an empty ready set rests. -/
theorem rests_of_pending {plane : ControlPlane} (h : Awaited ⟨plane, frame, .idle⟩)
    (hb : plane.allocated < 2 ^ 32 - 1) {platform : P}
    (hp : (pollIntent frame platform).1 = .pending) :
    Rests frame (after (runOnce .empty frame)) := by
  have hi : (waitIntent frame).runImmediately = false := by
    rw [Bool.eq_false_iff]
    intro hi
    unfold pollIntent at hp
    dsimp only at hp
    rw [if_pos hi] at hp
    split at hp <;> cases hp
  obtain ⟨hcommand, hcancel, himmediate⟩ := queues_of_asleep h hb hi
  have hc := h.coherent hb
  rw [runOnce_drives (Or.inl hcommand) hcancel]
  have hq := driveAndPublish_queues .empty (beginCall .empty frame)
  refine ⟨congrArg Prod.fst hq, congrArg Prod.snd hq, ?_⟩
  rw [driveAndPublish_driver, show WaitSet.empty.without .cancel = .empty from rfl]
  exact drive_quiet hc himmediate (driveOnce_outcome hc _ _)

/-- When a poll of a wait is ready with a set, a call with that set acts. -/
theorem acts_of_ready {plane : ControlPlane} (h : Awaited ⟨plane, frame, .idle⟩)
    (hb : plane.allocated < 2 ^ 32 - 1) {platform : P} {ready : WaitSet}
    (hp : (pollIntent frame platform).1 = .ready (.ok ready)) :
    Acts frame (after (runOnce ready frame)) := by
  have hc := h.coherent hb
  cases hi : (waitIntent frame).runImmediately with
  | true => exact acts_immediately hc hi ready
  | false =>
    obtain ⟨hcommand, hcancel, -⟩ := queues_of_asleep h hb hi
    unfold pollIntent at hp
    dsimp only at hp
    rw [if_neg (ne_true_of_eq_false hi), channelsReady_of_empty hcommand hcancel] at hp
    obtain ⟨hnone, -, reason, hne, hready, hsources⟩ := pollPlatform_ready hp
    rw [waitIntent_sources frame hne] at hsources
    have hkeep : ∀ reason, (ready.without .cancel).contains (source reason) =
        ready.contains (source reason) := by
      intro reason
      rw [contains_without, show WaitSet.cancel.contains (source reason) = false by
        cases reason <;> rfl, Bool.not_false, Bool.and_true]
    refine Or.inr (Or.inr ?_)
    rw [runOnce_drives (Or.inl hcommand) hcancel, driveAndPublish_driver]
    exact drive_ready hc (h.waits hb) ((hkeep reason).trans hready) ((hkeep .command).trans hnone)
      hsources (driveOnce_outcome hc _ _)

end Polls

section Waits

variable [IncrementalWifiBackend B] [IncrementalWaitPlatform P ε]
  {s : WaitSystem (BackendRecorder B) P eventCapacity}

/-- The runner of a wait system is between two calls. -/
def between (s : WaitSystem (BackendRecorder B) P eventCapacity) :
    IncrementalSystem (BackendRecorder B) eventCapacity := ⟨s.plane, s.frame, .idle⟩

omit [IncrementalWaitPlatform P ε] in
/-- Beginning a wait keeps the system awaited. -/
theorem awaited_beginWait (h : Awaited (between s)) : Awaited ⟨s.plane, beginWait s, .idle⟩ := by
  unfold beginWait
  split
  · exact h
  · exact awaited_count _ h

/-- A poll of a wait writes the counters alone: it keeps the system awaited and returns the
answer of the frame it leaves behind. -/
theorem pollWaitReady_awaited (h : Awaited (between s)) :
    (pollWaitReady s).1.plane = s.plane ∧ Awaited (between (pollWaitReady s).1) ∧
      (pollWaitReady s).2 = (pollIntent (pollWaitReady s).1.frame s.platform).1 := by
  have hbegun := awaited_beginWait h
  unfold pollWaitReady
  rcases hx : pollIntent (beginWait s) s.platform with ⟨answer, platform⟩
  cases answer with
  | pending =>
    refine ⟨rfl, hbegun, ?_⟩
    dsimp only
    rw [hx]
  | ready result =>
    have hcounted : Awaited ⟨s.plane, countResult result (beginWait s), .idle⟩ :=
      awaited_count _ hbegun
    have hsame : pollIntent (countResult result (beginWait s)) s.platform =
        pollIntent (beginWait s) s.platform := rfl
    refine ⟨rfl, hcounted, ?_⟩
    dsimp only
    rw [hsame, hx]

/-- Every step of calls and waits keeps the system awaited. -/
theorem awaited_next (interrupt : E → B → B) (signal : F → P → P) (h : Awaited (between s))
    (input : WaitInput E F) :
    Awaited (between ((waitMachine (recordedInterrupt interrupt) signal).next s input)) := by
  cases input with
  | control step => exact awaited_other interrupt rfl (.control step) (by simp) h
  | runOnce ready =>
    simp only [Machine.next, waitMachine]
    split
    · exact h
    · exact returns_invariant (fun _ hs => awaited_runner ready hs)
        (runOnce_returns s.plane ready s.frame) h
  | pollWait => exact (pollWaitReady_awaited h).2.1
  | dropWait => exact h
  | backendEvent event => exact awaited_other interrupt rfl (.backendEvent event) (by simp) h
  | platformEvent event => exact h

variable (interrupt : E → B → B) (signal : F → P → P) (backend : B) (budget : WorkBudget)
  (config : WifiConfig) (hpos : 0 < eventCapacity) (platform : P)

/-- State after a run of calls and waits whose backend calls are recorded. -/
def recordedWaitRun (inputs : List (WaitInput E F)) :
    WaitSystem (BackendRecorder B) P eventCapacity :=
  (waitMachine (recordedInterrupt interrupt) signal).run
    ⟨.new, ⟨.new ⟨backend, []⟩ budget config, .new hpos⟩, platform, false⟩ inputs

/-- Every state of a run of calls and waits is awaited. -/
theorem run_awaited (inputs : List (WaitInput E F)) :
    Awaited (between
      (recordedWaitRun interrupt signal backend budget config hpos platform inputs)) := by
  refine run_invariant (waitMachine (recordedInterrupt interrupt) signal)
    (I := fun s => Awaited (between s)) ?_ (fun _ input h => awaited_next interrupt signal h input)
    inputs
  exact ⟨steady_start backend budget config hpos, fun _ => waitsFor_of_empty rfl⟩

/-- Below the wrap, wherever a run stands: when a poll of the wait is pending, a call with an
empty ready set would take no message and make no backend call, and when it is ready with a
set of sources, a call with that set takes a message or calls the backend. -/
theorem wakes_match_calls (inputs : List (WaitInput E F))
    (hb : (recordedWaitRun interrupt signal backend budget config hpos platform
      inputs).plane.allocated < 2 ^ 32 - 1) :
    ((waitMachine (recordedInterrupt interrupt) signal).output
        (recordedWaitRun interrupt signal backend budget config hpos platform inputs) .pollWait =
        .polled .pending →
      Rests (recordedWaitRun interrupt signal backend budget config hpos platform
          (inputs ++ [.pollWait])).frame
        (after (runOnce .empty (recordedWaitRun interrupt signal backend budget config hpos
          platform (inputs ++ [.pollWait])).frame))) ∧
    ∀ ready, (waitMachine (recordedInterrupt interrupt) signal).output
        (recordedWaitRun interrupt signal backend budget config hpos platform inputs) .pollWait =
        .polled (.ready (.ok ready)) →
      Acts (recordedWaitRun interrupt signal backend budget config hpos platform
          (inputs ++ [.pollWait])).frame
        (after (runOnce ready (recordedWaitRun interrupt signal backend budget config hpos
          platform (inputs ++ [.pollWait])).frame)) := by
  have hold := run_awaited interrupt signal backend budget config hpos platform inputs
  have hnext : recordedWaitRun interrupt signal backend budget config hpos platform
      (inputs ++ [.pollWait]) = (pollWaitReady
        (recordedWaitRun interrupt signal backend budget config hpos platform inputs)).1 :=
    run_concat _ _ _ _
  obtain ⟨hplane, hawaited, hanswer⟩ := pollWaitReady_awaited hold
  rw [← hplane] at hb
  rw [hnext]
  constructor
  · intro hp
    exact rests_of_pending hawaited hb (hanswer.symm.trans (WaitReply.polled.inj hp))
  · intro ready hp
    exact acts_of_ready hawaited hb (hanswer.symm.trans (WaitReply.polled.inj hp))

end Waits

/-- Runs of one disconnection on a backend that stays pending. -/
def replayWaits (inputs : List (WaitInput Unit Unit)) :
    WaitSystem (BackendRecorder ReplayBackend) ReplayPlatform 1 :=
  recordedWaitRun (fun _ backend => backend) (fun _ platform => platform) ⟨[], [], []⟩
    smallestBudget .default Nat.one_pos ⟨[.pending, .ready (.ok .backend)]⟩ inputs

/-- The disconnection is started and polled once; it then waits for the backend. -/
def polledOnce : List (WaitInput Unit Unit) :=
  [.control (.call .disconnect), .control .allocate, .control .send, .runOnce .empty,
    .runOnce .empty]

/-- The wait for it is polled. -/
def polledTwice : List (WaitInput Unit Unit) := polledOnce ++ [.pollWait]

/-- The first poll of the wait sleeps, the second one finds the backend ready. -/
theorem wakes_match_calls_replay :
    Rests (replayWaits (polledOnce ++ [.pollWait])).frame
        (after (runOnce .empty (replayWaits (polledOnce ++ [.pollWait])).frame)) ∧
      Acts (replayWaits (polledTwice ++ [.pollWait])).frame
        (after (runOnce .backend (replayWaits (polledTwice ++ [.pollWait])).frame)) := by
  have hsleeps : (pollWaitReady (replayWaits polledOnce)).2 = .pending := by decide +kernel
  have hwakes : (pollWaitReady (replayWaits polledTwice)).2 = .ready (.ok .backend) := by
    decide +kernel
  have hbefore : (replayWaits polledOnce).plane.allocated < 2 ^ 32 - 1 := by decide +kernel
  have hafter : (replayWaits polledTwice).plane.allocated < 2 ^ 32 - 1 := by decide +kernel
  constructor
  · exact (wakes_match_calls _ _ _ _ _ _ _ polledOnce hbefore).1
      ((output_pollWait _ _ _).trans (congrArg WaitReply.polled hsleeps))
  · exact (wakes_match_calls _ _ _ _ _ _ _ polledTwice hafter).2 .backend
      ((output_pollWait _ _ _).trans (congrArg WaitReply.polled hwakes))

end HisiRfCore.WaitReadiness
