import HisiRfCore.BackendContract
import HisiRfCore.CommandProgress

/-!
# What a command costs the backend

A backend that needs a bounded number of polls for an operation is called three times more
at most for a command: to start it, to end it and to cancel it. Every call that the runner
makes is paid for by a command it received, in whatever order the steps of the runner and
the controller fall, so a runner that is called too often does not poll too often.
-/

namespace HisiRfCore.BackendEffort

open StateBorrow BoundedChannel WifiTypes RadioStorage AsyncControl ServiceProtocol
open IncrementalContract CommandArbitration BackendDriver DriverCoherence DriverCalls
open BackendTrace hiding ended
open BackendContract IncrementalFacade IncrementalInterleaving IncrementalService
open AttentiveBackends CommandProgress InputOutputMachine FacadeFrame

variable {B E : Type} {eventCapacity : ℕ} [IncrementalWifiBackend B] {interrupt : E → B → B}

section Recorder

variable {recorder next : BackendRecorder B} {id : OperationId}

/-- The recorded backend answers a start. -/
theorem start_inner {request : IncrementalRequest} {result : Except BackendError Unit}
    (h : IncrementalWifiBackend.start recorder id request = (result, next)) :
    IncrementalWifiBackend.start recorder.inner id request = (result, next.inner) := by
  obtain ⟨hr, hb⟩ := Prod.mk.inj h
  rw [← hb, ← hr]
  rfl

/-- It answers a cancellation. -/
theorem cancel_inner {result : Except BackendError Unit}
    (h : IncrementalWifiBackend.cancel recorder id = (result, next)) :
    IncrementalWifiBackend.cancel recorder.inner id = (result, next.inner) := by
  obtain ⟨hr, hb⟩ := Prod.mk.inj h
  rw [← hb, ← hr]
  rfl

/-- It answers a poll. -/
theorem poll_inner {n : ℕ} {reason : WakeReason} {budget : WorkBudget}
    {scan output : Vector ScanResult n} {result : Except BackendError WorkReport}
    (h : IncrementalWifiBackend.poll recorder id reason budget scan = (result, next, output)) :
    IncrementalWifiBackend.poll recorder.inner id reason budget scan =
      (result, next.inner, output) := by
  obtain ⟨hr, hp⟩ := Prod.mk.inj h
  obtain ⟨hb, ho⟩ := Prod.mk.inj hp
  rw [← hb, ← hr, ← ho]
  rfl

end Recorder

/-- A recorded backend is as diligent as the one it records. -/
def recordedDiligent (d : Diligent B E interrupt) :
    Diligent (BackendRecorder B) E (recordedInterrupt interrupt) where
  cost recorder := d.cost recorder.inner
  bound := d.bound
  start h := d.start (start_inner h)
  cancel h := d.cancel (cancel_inner h)
  interrupted event recorder := d.interrupted event recorder.inner
  poll h := d.poll (poll_inner h)

/-- It is as attentive. -/
def recordedAttentive (d : Attentive B E interrupt) :
    Attentive (BackendRecorder B) E (recordedInterrupt interrupt) where
  toDiligent := recordedDiligent d.toDiligent
  wakeable h := d.wakeable (poll_inner h)

/-- Calls set aside for a command that is not started yet. -/
def reserve (d : Diligent B E interrupt) (waiting : Bool) : ℕ :=
  if waiting then d.bound + 3 else 0

/-- Calls that a driver made, and those that its commands may still cost. -/
def effort (d : Diligent B E interrupt) (driver : IncrementalBackendDriver (BackendRecorder B)) :
    ℕ :=
  (trace driver).length + activeWork (recordedDiligent d).cost driver +
    reserve d driver.arbiter.pending.isSome

section Drives

variable {d : Diligent B E interrupt} {driver : IncrementalBackendDriver (BackendRecorder B)}
  {n : ℕ} {scan : Vector ScanResult n} {ready : WaitSet}

/-- The effort of a driver with an active command. -/
theorem effort_of_active {active : ActiveCommand} (ha : driver.arbiter.active = some active) :
    effort d driver = (trace driver).length +
      (d.cost driver.backend.inner + 1 + if active.cancelRequested then 0 else 1) +
      reserve d driver.arbiter.pending.isSome := by
  simp only [effort, activeWork, ha]
  rfl

/-- The effort of a driver without one. -/
theorem effort_of_inactive (ha : driver.arbiter.active = none) :
    effort d driver = (trace driver).length + reserve d driver.arbiter.pending.isSome := by
  simp only [effort, activeWork, ha, Nat.add_zero]

/-- A call that ends the active operation was set aside for it. -/
theorem effort_ended {next : IncrementalBackendDriver (BackendRecorder B)} {active : ActiveCommand}
    {call : BackendCall} (ha : driver.arbiter.active = some active)
    (hn : next.arbiter.active = none) (hp : next.arbiter.pending = driver.arbiter.pending)
    (hb : trace next = trace driver ++ [call]) : effort d next ≤ effort d driver := by
  rw [effort_of_active ha, effort_of_inactive hn, hp, hb, List.length_append,
    List.length_singleton]
  omega

/-- So was a call that leaves it live with less to do. -/
theorem effort_live {next : IncrementalBackendDriver (BackendRecorder B)}
    {active spoken : ActiveCommand} {call : BackendCall}
    (ha : driver.arbiter.active = some active) (hn : next.arbiter.active = some spoken)
    (hp : next.arbiter.pending = driver.arbiter.pending)
    (hb : trace next = trace driver ++ [call])
    (hless : (d.cost next.backend.inner + if spoken.cancelRequested then 0 else 1) <
      d.cost driver.backend.inner + if active.cancelRequested then 0 else 1) :
    effort d next ≤ effort d driver := by
  rw [effort_of_active ha, effort_of_active hn, hp, hb, List.length_append, List.length_singleton]
  omega

/-- The start of the pending command was set aside for it, with all that may follow. -/
theorem effort_started {held : PendingCommand IncrementalRequest} {backend : BackendRecorder B}
    {result : Except BackendError Unit} (ha : driver.arbiter.active = none)
    (hp : driver.arbiter.pending = some held)
    (hb : IncrementalWifiBackend.start driver.backend (freshId driver) held.command =
      (result, backend)) :
    (result = .ok () → effort d (begun driver held.sequence backend) ≤ effort d driver) ∧
      effort d (rejected driver backend) ≤ effort d driver := by
  have hlength : backend.calls.length = (trace driver).length + 1 := by
    rw [start_calls hb, List.length_append, List.length_singleton]
    rfl
  have hreserve : reserve d driver.arbiter.pending.isSome = d.bound + 3 := by
    rw [hp]
    rfl
  rw [effort_of_inactive ha, hreserve]
  constructor
  · rintro rfl
    have hcost : d.cost backend.inner ≤ d.bound := d.start (start_inner hb)
    have hbegun : (begun driver held.sequence backend).arbiter.active =
        some ⟨held.sequence, freshId driver, false, false⟩ := rfl
    rw [effort_of_active hbegun]
    show backend.calls.length + (d.cost backend.inner + 1 + 1) + 0 ≤ _
    omega
  · have hnone : (rejected driver backend).arbiter.active = none := rfl
    rw [effort_of_inactive hnone]
    show backend.calls.length + 0 ≤ _
    omega

/-- Each call of a drive is one that was set aside, whatever the drive returns. -/
theorem drive_effort {result : EStateM.Result IncrementalDriverError
      (DriverFrame (BackendRecorder B) n) IncrementalDriverEvent}
    (h : DriveOutcome driver scan ready result) :
    effort d (after result).driver ≤ effort d driver := by
  cases h with
  | idle ha hp => exact Nat.le_refl _
  | started held backend ha hp hb => exact (effort_started ha hp hb).1 rfl
  | startFailed held backend error ha hp hb => exact (effort_started ha hp hb).2
  | cancelDelivered active backend ha hd hb =>
    have hcost : d.cost backend.inner ≤ d.cost driver.backend.inner := d.cancel (cancel_inner hb)
    have hnotified : (notified driver active backend).arbiter.active =
        some {active with cancelRequested := true} := rfl
    refine effort_live ha hnotified rfl (cancel_calls hb) ?_
    rw [not_requested_of_due hd]
    show d.cost backend.inner + 0 < _ + 1
    omega
  | cancelFailed active backend error ha hd hb => exact effort_ended ha rfl rfl (cancel_calls hb)
  | waiting active waitFor runner ha hd hs => exact Nat.le_refl _
  | commandReady active runner ha hd hs => exact Nat.le_refl _
  | pollFailed active reason runner error backend output ha hd hs hb =>
    exact effort_ended ha rfl rfl (poll_calls hb)
  | staleReport active reason runner report backend output ha hd hs hb hr =>
    exact (hr (d.poll (poll_inner hb)).1).elim
  | kept active reason runner report backend output event waitFor ha hd hs hb hr he =>
    have hcost := (d.poll (poll_inner hb)).2 waitFor (keptEvent_waits he)
    have hpolled : (polled driver (runner.settle (some (active.operation,
        RunnerState.IncrementalRunnerState.liveLifecycle active.cancelRequested)) waitFor)
        backend).arbiter.active = some active := ha
    exact effort_live ha hpolled rfl (poll_calls hb) (Nat.add_lt_add_right hcost _)
  | ended active reason runner report backend output event ha hd hs hb hr he =>
    exact effort_ended ha rfl rfl (poll_calls hb)

end Drives

/-- Every call so far, and every call that may follow, was paid for by a received command. -/
def Paid (d : Diligent B E interrupt)
    (s : IncrementalSystem (BackendRecorder B) eventCapacity) : Prop :=
  effort d s.frame.runner.driver + reserve d (entering s.phase).isSome ≤
    (d.bound + 3) * s.frame.shared.commands.received.length

section Steps

variable {d : Diligent B E interrupt}
  {s : IncrementalSystem (BackendRecorder B) eventCapacity}

/-- A cancellation of an owned command costs no more than it did. -/
theorem request_effort {driver : IncrementalBackendDriver (BackendRecorder B)}
    {sequence : CommandSequence}
    (hk : driver.arbiter.activeSequence = some sequence ∨
      driver.arbiter.pendingSequence ≠ some sequence) :
    effort d (after (IncrementalBackendDriver.requestCancel sequence driver)) =
      effort d driver := by
  rw [requestCancel_apply, after_ok]
  have he := CommandArbiter.requestCancel_effect sequence driver.arbiter
  generalize CommandArbiter.requestCancel sequence driver.arbiter = effect at he
  cases he with
  | requestActive active ha hs hr hi => simp only [effort, trace, activeWork, ha]
  | alreadyRequested active ha hs hr => rfl
  | removePending hs hp =>
    rcases hk with hk | hk
    · exact (hs hk).elim
    · exact (hk hp).elim
  | notFound hs hp => rfl

/-- An event of the backend costs nothing. -/
theorem interrupted_effort (event : E) (driver : IncrementalBackendDriver (BackendRecorder B)) :
    effort d {driver with backend := recordedInterrupt interrupt event driver.backend} ≤
      effort d driver := by
  have hcost := d.interrupted event driver.backend.inner
  cases ha : driver.arbiter.active with
  | none => simp only [effort, activeWork, trace, recordedInterrupt, ha, Nat.le_refl]
  | some active =>
    simp only [effort, activeWork, trace, recordedInterrupt, recordedDiligent, ha]
    omega

/-- A step that receives no command is paid for as far as it costs no more than was set aside. -/
theorem Paid.step (hp : Paid d s)
    {frame : FacadeFrame (BackendRecorder B) eventCapacity} {phase : IncrementalPhase}
    {mailbox : Mailbox} (hm : frame.shared.mailbox = mailbox)
    (hc : mailbox.commands = s.frame.shared.commands)
    (he : effort d frame.runner.driver + reserve d (entering phase).isSome ≤
      effort d s.frame.runner.driver + reserve d (entering s.phase).isSome) :
    Paid d {s with frame := frame, phase := phase} := by
  have hcommands : frame.shared.commands = s.frame.shared.commands :=
    (congrArg Mailbox.commands hm).trans hc
  show effort d frame.runner.driver + reserve d (entering phase).isSome ≤
    (d.bound + 3) * frame.shared.commands.received.length
  rw [hcommands]
  exact le_trans he hp

/-- A received command pays for all that it may cost. -/
theorem Paid.receive (hp : Paid d s) {command : Command} {rest : List Command} {ready : WaitSet}
    {frame : FacadeFrame (BackendRecorder B) eventCapacity} (hphase : s.phase = .idle)
    (hq : s.frame.shared.commands.queued = command :: rest)
    (ho : frame.owner = s.frame.owner)
    (hm : frame.shared.mailbox = {s.frame.shared.mailbox with
      commands := s.frame.shared.commands.tryReceive.2}) :
    Paid d {s with frame := frame, phase := .submitting command ready} := by
  have hdriver : frame.runner.driver = s.frame.runner.driver := congrArg Owner.driver ho
  have hcommands : frame.shared.commands = s.frame.shared.commands.tryReceive.2 :=
    congrArg Mailbox.commands hm
  have hreceived : frame.shared.commands.received.length =
      s.frame.shared.commands.received.length + 1 := by
    rw [hcommands, (tryReceive_of_cons hq).2.1, List.length_append, List.length_singleton]
  unfold Paid at hp ⊢
  rw [hphase] at hp
  dsimp only
  rw [hdriver, hreceived, Nat.mul_succ]
  exact Nat.add_le_add_right hp (d.bound + 3)

/-- A submitted command is set aside as the pending one. -/
theorem submitted_effort {driver : IncrementalBackendDriver (BackendRecorder B)}
    (hp : driver.canSubmit = true) (sequence : CommandSequence) (request : IncrementalRequest) :
    effort d (submittedDriver sequence request driver) = effort d driver + (d.bound + 3) := by
  have hpending : driver.arbiter.pending = none := Option.isNone_iff_eq_none.mp hp
  simp only [effort, hpending, reserve, Option.isSome_none, Bool.false_eq_true, if_false]
  rfl

/-- A removed command costs nothing any more. -/
theorem removed_effort (driver : IncrementalBackendDriver (BackendRecorder B)) :
    effort d (removedDriver driver) ≤ effort d driver := by
  simp only [effort, removedDriver, reserve, Option.isSome_none, Bool.false_eq_true, if_false]
  exact Nat.le_add_right _ _

/-- Every step of the runner keeps the account. -/
theorem paid_runner (ready : WaitSet) (h : Simulated s) (hp : Paid d s) :
    Paid d (runnerStep ready s).1 := by
  obtain ⟨t, hs, hb, -⟩ := h
  have hroom := hs.room
  have heffect := runnerStep_effect ready hs hb
  generalize runnerStep ready s = effect at heffect
  -- Outside of the entering of a command nothing is set aside for it.
  have hkeep : ∀ {driver : IncrementalBackendDriver (BackendRecorder B)} {phase : IncrementalPhase},
      entering phase = none → effort d driver ≤ effort d s.frame.runner.driver →
      effort d driver + reserve d (entering phase).isSome ≤
        effort d s.frame.runner.driver + reserve d (entering s.phase).isSome := by
    intro driver phase hphase hle
    rw [hphase]
    exact le_trans hle (Nat.le_add_right _ _)
  cases heffect with
  | received command rest ready' frame hphase hc hq ho hm => exact hp.receive hphase hq ho hm
  | unreceived ready' frame hphase hn ho hm =>
    have hdriver : frame.runner.driver = s.frame.runner.driver := congrArg Owner.driver ho
    exact hp.step hm rfl (hkeep rfl (by rw [hdriver]))
  | submitted command ready' sequence request frame hphase hsequence ho hm =>
    have hdriver : frame.runner.driver =
        submittedDriver sequence request s.frame.runner.driver := congrArg Owner.driver ho
    refine hp.step hm rfl ?_
    rw [hdriver, submitted_effort (hroom command ready' hphase), hphase]
    exact Nat.le_refl _
  | sampled x rest ready' frame hphase hq ho hm =>
    have hdriver : frame.runner.driver = s.frame.runner.driver := congrArg Owner.driver ho
    exact hp.step hm rfl (hkeep rfl (by rw [hdriver]))
  | unsampled ready' hphase hq => exact hp.step rfl rfl (hkeep rfl (Nat.le_refl _))
  | requested sequence ready' frame hphase hk ho hm =>
    have hdriver : frame.runner.driver = after (IncrementalBackendDriver.requestCancel sequence
      s.frame.runner.driver) := congrArg Owner.driver ho
    exact hp.step hm rfl (hkeep rfl (by rw [hdriver, request_effort hk]))
  | removed sequence kind ready' frame hphase ha hh hk ho hm =>
    have hdriver : frame.runner.driver = removedDriver s.frame.runner.driver :=
      congrArg Owner.driver ho
    exact hp.step hm rfl (hkeep rfl (by rw [hdriver]; exact removed_effort _))
  | driven ready' event drive frame hphase hd ho hm =>
    have hdriver : frame.runner.driver = drive.driver := congrArg Owner.driver ho
    exact hp.step hm rfl (hkeep rfl (by rw [hdriver]; exact drive_effort hd))
  | failed ready' error drive frame hphase hd ho hm =>
    have hdriver : frame.runner.driver = drive.driver := congrArg Owner.driver ho
    exact hp.step hm rfl (hkeep rfl (by rw [hdriver]; exact drive_effort hd))
  | published event sequence kind frame hphase ht hk ho hm =>
    have hdriver : frame.runner.driver = s.frame.runner.driver := congrArg Owner.driver ho
    exact hp.step hm rfl (hkeep rfl (by rw [hdriver]))
  | unpublished event hphase ht => exact hp.step rfl rfl (hkeep rfl (Nat.le_refl _))

/-- Every input keeps the account. -/
theorem paid_next (h : Simulated s) (hp : Paid d s)
    (input : IncrementalInput E) :
    Paid d ((incrementalMachine (recordedInterrupt interrupt)).next s input) := by
  cases input with
  | control step =>
    have hforwards := control_forwards (step_effect s.plane s.frame.shared step)
    unfold Paid at hp ⊢
    show effort d s.frame.runner.driver + reserve d (entering s.phase).isSome ≤
      (d.bound + 3) * (s.plane.step s.frame.shared step).2.commands.received.length
    rw [show (s.plane.step s.frame.shared step).2.commands.received =
      s.frame.shared.commands.received from hforwards.commandsReceived]
    exact hp
  | runner ready => exact paid_runner ready h hp
  | backendEvent event =>
    exact le_trans (Nat.add_le_add_right (interrupted_effort event s.frame.runner.driver) _) hp

end Steps

section Runs

variable (backend : B) (budget : WorkBudget) (config : WifiConfig) (hpos : 0 < eventCapacity)

/-- Every state of a run is paid for. -/
theorem run_paid (d : Diligent B E interrupt) (inputs : List (IncrementalInput E)) :
    Paid d (incrementalRun (recordedInterrupt interrupt) ⟨backend, []⟩ budget config hpos
      inputs) := by
  have hsimulated := run_simulated (⟨backend, []⟩ : BackendRecorder B) budget config hpos
    (recordedInterrupt interrupt)
  induction inputs using List.reverseRecOn with
  | nil => exact Nat.zero_le _
  | append_singleton before input ih =>
    unfold incrementalRun
    rw [run_concat]
    exact paid_next (hsimulated before) ih input

/-- In every run a backend that reports the operation that was polled, and needs at most so many
polls for it before the one that ends it, is called at most three times more for each received
command: once to start it, once to cancel it and once to end it. -/
theorem backend_calls_paid (d : Diligent B E interrupt) (inputs : List (IncrementalInput E)) :
    (trace (incrementalRun (recordedInterrupt interrupt) ⟨backend, []⟩ budget config hpos
        inputs).frame.runner.driver).length ≤
      (d.bound + 3) * (incrementalRun (recordedInterrupt interrupt) ⟨backend, []⟩ budget config
        hpos inputs).frame.shared.commands.received.length := by
  have hpaid := run_paid backend budget config hpos d inputs
  unfold Paid effort at hpaid
  omega

end Runs

/-- A disconnection is sent, started and dropped; two polls end it. -/
def droppedDisconnection : List (IncrementalInput Unit) :=
  sentDisconnection ++ readySteps 6 ++ [.control .drop] ++ readySteps 14

/-- Recorded runs of a countdown. -/
def recordedCountdown (inputs : List (IncrementalInput Unit)) :
    IncrementalSystem (BackendRecorder CountdownBackend) 1 :=
  incrementalRun (recordedInterrupt fun _ backend => backend) ⟨⟨0⟩, []⟩ smallestBudget .default
    Nat.one_pos inputs

/-- It takes a start, a cancellation and two polls, which is all that a disconnection may cost. -/
theorem backend_calls_paid_disconnection :
    (trace (recordedCountdown droppedDisconnection).frame.runner.driver).length = 4 ∧
      (trace (recordedCountdown droppedDisconnection).frame.runner.driver).length ≤
        (1 + 3) *
          (recordedCountdown droppedDisconnection).frame.shared.commands.received.length := by
  have hcalls :
      (trace (recordedCountdown droppedDisconnection).frame.runner.driver).length = 4 := by
    decide +kernel
  have hpaid := backend_calls_paid ⟨0⟩ smallestBudget .default Nat.one_pos
    countdownAttentive.toDiligent droppedDisconnection
  unfold recordedCountdown at hcalls ⊢
  exact ⟨hcalls, hpaid⟩

end HisiRfCore.BackendEffort
