import HisiRfCore.LedgerAgreement
import HisiRfCore.RunnerTelemetry

/-!
# The counters account for the runs of the runner

Wherever a run of calls and waits stands, each counter holds the number of times that
the run did what it counts, as far as a word can, and the published counters are the
runner's. What was counted is read off the replies alone: the sources a call or a wait
was given, the event or the error that it returned, and the first poll of each wait.
-/

namespace HisiRfCore.TelemetryAccount

open StateBorrow BoundedChannel WifiTypes RadioStorage ServiceProtocol IncrementalContract
open CommandArbitration BackendDriver DriverCoherence DriverCalls IncrementalFacade
open IncrementalInterleaving IncrementalService IncrementalWait LedgerAgreement RunnerTelemetry
open InputOutputMachine FacadeFrame
open EventPublication (saturated saturated_toNat)

variable {B E F P ε : Type} {eventCapacity : ℕ}

section Pieces

variable [IncrementalWifiBackend B]

omit [IncrementalWifiBackend B] in
/-- A command is refused only when the channel, the ledger or the driver disagrees. -/
theorem submitCommand_error {command : Command} {error : IncrementalRadioRunnerError}
    {frame next : FacadeFrame B eventCapacity}
    (h : submitCommand command frame = .error error next) : Disagreement error := by
  unfold submitCommand at h
  cases hs : CommandSequence.tryFromRaw command.sequence with
  | none =>
    rw [hs] at h
    cases h
    trivial
  | some sequence =>
    rw [hs] at h
    dsimp only at h
    rcases hi : frame.runner.ledger.insert sequence (.fromCommand command.kind) with
      ⟨inserted, ledger⟩
    rw [bind_ok (update_of (f := ledgerField) hi)] at h
    cases inserted with
    | false =>
      cases h
      trivial
    | true =>
      simp only [Bool.not_true, Bool.false_eq_true, if_false] at h
      rw [bind_ok (get_apply _)] at h
      unfold withCleanup Field.call at h
      cases hx : IncrementalBackendDriver.submit sequence
          (requestOf (ledgerField.set ledger frame).runner.config command.kind)
          (driverField.get (ledgerField.set ledger frame)) with
      | ok value driver =>
        rw [hx] at h
        cases h
      | error refused driver =>
        rw [hx] at h
        cases h
        trivial

omit [IncrementalWifiBackend B] in
/-- Only a command that cannot be entered is counted. -/
theorem acceptCommand_ticks (command : Command) (frame : FacadeFrame B eventCapacity) :
    match acceptCommand command frame with
    | .ok _ next => Ticks [] frame next
    | .error error _ => Disagreement error := by
  have hkeeps := submitCommand_telemetry command frame
  unfold acceptCommand withCleanup
  cases hx : submitCommand command frame with
  | ok value next =>
    rw [hx] at hkeeps
    exact .of_eq hkeeps
  | error error next => exact submitCommand_error hx

/-- A publication fails for a command of another kind, or when the ledger disagrees. -/
theorem publishTerminal_error {event : IncrementalDriverEvent}
    {error : IncrementalRadioRunnerError} {frame next : FacadeFrame B eventCapacity}
    (h : publishTerminal event frame = .error error next) :
    Disagreement error ∨
      error = .completionMismatch ∧ ∃ sequence completion, event = .completed sequence completion := by
  have hrelease : ∀ sequence, (∃ kind, releaseCommand sequence frame = .ok kind
      (ledgerField.set (frame.runner.ledger.remove sequence).2 frame)) ∨
      ∃ next, releaseCommand sequence frame = .error .missingCommand next := by
    intro sequence
    cases hk : (frame.runner.ledger.remove sequence).1 with
    | some kind => exact Or.inl ⟨kind, releaseCommand_of_some hk⟩
    | none =>
      refine Or.inr ⟨signalProtocol sequence.get
        (ledgerField.set (frame.runner.ledger.remove sequence).2 frame), ?_⟩
      unfold releaseCommand
      rw [bind_ok (update_of (f := ledgerField) (Prod.ext hk rfl))]
      rfl
  cases event with
  | completed sequence completion =>
    rcases hrelease sequence with ⟨kind, hr⟩ | ⟨missing, hr⟩
    · rw [publishTerminal, bind_ok hr] at h
      cases hs : successfulCompletion kind completion with
      | none =>
        rw [hs] at h
        cases h
        exact Or.inr ⟨rfl, sequence, completion, rfl⟩
      | some pair =>
        rw [hs] at h
        cases h
    · rw [publishTerminal, bind_error hr] at h
      cases h
      exact Or.inl trivial
  | cancelled sequence suppressed =>
    rcases hrelease sequence with ⟨kind, hr⟩ | ⟨missing, hr⟩
    · rw [publishTerminal, bind_ok hr] at h
      cases h
    · rw [publishTerminal, bind_error hr] at h
      cases h
      exact Or.inl trivial
  | failed sequence error pending =>
    rcases hrelease sequence with ⟨kind, hr⟩ | ⟨missing, hr⟩
    · rw [publishTerminal, bind_ok hr] at h
      cases h
    · rw [publishTerminal, bind_error hr] at h
      cases h
      exact Or.inl trivial
  | _ => cases h

/-- The removal of a command is counted when its cancellation is forwarded. -/
theorem requestCancellation_ticks (taken : UInt32) (frame : FacadeFrame B eventCapacity) :
    match requestCancellation taken frame with
    | .ok event next => Ticks (event.bind eventTick).toList frame next
    | .error error _ => Disagreement error := by
  unfold requestCancellation
  cases CommandSequence.tryFromRaw taken with
  | none => trivial
  | some sequence =>
    dsimp only
    have happly := @requestCancel_apply _ (driverField.get frame) sequence
    have hcall := call_ok (f := driverField) (w := IncrementalRadioRunnerError.driver) happly
    rw [bind_ok hcall]
    generalize ({driverField.get frame with arbiter := _} : IncrementalBackendDriver B) = driver
    have hset : Ticks [] frame (driverField.set driver frame) := .of_eq rfl
    cases (CommandArbiter.requestCancel sequence (driverField.get frame).arbiter).1 with
    | removePending =>
      dsimp only
      rw [bind_ok (modify_apply _ _)]
      have hcount : Ticks [.operationsCancelled] (driverField.set driver frame)
          (setDiagnostics (recordEvent (.cancelled sequence false))
            (driverField.set driver frame)) := .set (fun _ => rfl) rfl
      have hkeeps := publishTerminal_telemetry (.cancelled sequence false)
        (setDiagnostics (recordEvent (.cancelled sequence false)) (driverField.set driver frame))
      cases hp : publishTerminal (.cancelled sequence false)
        (setDiagnostics (recordEvent (.cancelled sequence false))
          (driverField.set driver frame)) with
      | ok value next =>
        rw [bind_ok hp]
        rw [hp] at hkeeps
        exact (hset.trans hcount).trans (.of_eq hkeeps)
      | error error next =>
        rw [bind_error hp]
        rcases publishTerminal_error hp with hd | ⟨-, x, completion, he⟩
        · exact hd
        · cases he
    | requestActive => exact hset
    | alreadyRequested => exact hset
    | notFound => exact hset

/-- A drive is counted under its event, or as a failure of the driver. -/
theorem driveBackend_ticks (ready : WaitSet) (frame : FacadeFrame B eventCapacity) :
    match driveBackend ready frame with
    | .ok event next => Ticks (eventTick event).toList frame next
    | .error error next => Ticks [.driverErrors] frame next ∧ ∃ e, error = .driver e := by
  cases hd : IncrementalBackendDriver.driveOnce (ready.without .cancel)
    (⟨frame.runner.driver, frame.shared.scanResults⟩ : DriverFrame B maxScanResults) with
  | ok event drive =>
    rw [driveBackend_ok hd]
    have hset : Ticks [] frame (driveField.set drive frame) := .of_eq rfl
    exact hset.trans (.set (recordEvent_tally event) rfl)
  | error error drive =>
    rw [driveBackend_error hd]
    have hset : Ticks [] frame (driveField.set drive frame) := .of_eq rfl
    exact ⟨hset.trans (.set (fun _ => rfl) rfl), error, rfl⟩

/-- A publication is counted when it fails. -/
theorem publishDriven_ticks (event : IncrementalDriverEvent)
    (frame : FacadeFrame B eventCapacity) :
    match publishDriven event frame with
    | .ok _ next => Ticks [] frame next
    | .error error next => Ticks [.protocolErrors] frame next ∧
        (Disagreement error ∨
          error = .completionMismatch ∧ eventTick event = some .operationsCompleted) := by
  have hkeeps := publishTerminal_telemetry event frame
  unfold publishDriven withCleanup
  cases hx : publishTerminal event frame with
  | ok value next =>
    rw [hx] at hkeeps
    exact .of_eq hkeeps
  | error error next =>
    rw [hx] at hkeeps
    have hcount : Ticks [.protocolErrors] next (countProtocolError next) := .set (fun _ => rfl) rfl
    refine ⟨(Ticks.of_eq hkeeps).trans hcount, ?_⟩
    rcases publishTerminal_error hx with hd | ⟨he, sequence, completion, rfl⟩
    · exact Or.inl hd
    · exact Or.inr ⟨he, rfl⟩

end Pieces

/-- Names counted by one step of the runner. -/
def stepTicks (ready : WaitSet) :
    IncrementalPhase → IncrementalPhase → Option CallResult → List Counter
  | .idle, _, _ => .runOnceCalls :: readyTicks ready
  | .requesting _ _, _, some (.ok event) => (eventTick event).toList
  | .driving _, .publishing event, _ => (eventTick event).toList
  | .driving _, _, some (.error _) => [.driverErrors]
  | .publishing _, _, some (.error _) => [.protocolErrors]
  | _, _, _ => []

/-- Names counted for the result of a call. -/
def resultTicks : CallResult → List Counter
  | .ok event => (eventTick event).toList
  | .error (.driver _) => [.driverErrors]
  | .error .completionMismatch => [.operationsCompleted, .protocolErrors]
  | .error _ => [.protocolErrors]

/-- Names counted from a position of the runner to the return of its call. -/
def restTicks (ready : WaitSet) (phase : IncrementalPhase) (result : CallResult) : List Counter :=
  match phase, result with
  | .idle, _ => .runOnceCalls :: (readyTicks ready ++ resultTicks result)
  | .publishing _, .ok _ => []
  | .publishing _, .error _ => [.protocolErrors]
  | _, _ => resultTicks result

/-- A publication returns its event, or a mismatch of a completed command. -/
def Returned (phase : IncrementalPhase) (result : CallResult) : Prop :=
  ∀ event, phase = .publishing event → result = .ok event ∨
    result = .error .completionMismatch ∧ eventTick event = some .operationsCompleted

/-- The system provides the service and its ledger agrees with the driver. -/
def Accountable [IncrementalWifiBackend B] (s : IncrementalSystem B eventCapacity) : Prop :=
  ∃ t, Simulates s t ∧ Bounded t ∧ Kinds s

section Steps

variable [IncrementalWifiBackend B] {s : IncrementalSystem B eventCapacity}

/-- A system that was not called is accountable. -/
theorem accountable_start (backend : B) (budget : WorkBudget) (config : WifiConfig)
    (hpos : 0 < eventCapacity) : Accountable (incrementalStart backend budget config hpos) := by
  refine ⟨_, simulates_start backend budget config hpos, bounded_new hpos, ?_⟩
  intro entry hm
  cases hm

/-- Every step keeps the system accountable. -/
theorem accountable_next (interrupt : E → B → B) (h : Accountable s)
    (input : IncrementalInput E) : Accountable ((incrementalMachine interrupt).next s input) := by
  obtain ⟨t, hs, hb, hk⟩ := h
  obtain ⟨u, hstep, hsim⟩ := simulates_step interrupt hs hb input
  exact ⟨u, hsim, service_bounded hb hstep, kinds_step interrupt hs hb hk input⟩

/-- So does a step of the runner. -/
theorem accountable_runner (ready : WaitSet) (h : Accountable s) :
    Accountable (runnerStep ready s).1 :=
  accountable_next (fun (_ : Unit) backend => backend) h (.runner ready)

/-- Counting keeps the system accountable. -/
theorem accountable_count {plane : AsyncControl.ControlPlane}
    {frame : FacadeFrame B eventCapacity}
    (f : IncrementalRunnerDiagnostics → IncrementalRunnerDiagnostics)
    (h : Accountable ⟨plane, frame, .idle⟩) :
    Accountable ⟨plane, setDiagnostics f frame, .idle⟩ := by
  obtain ⟨t, hs, hb, hk⟩ := h
  have hview : (⟨t.plane, (setDiagnostics f frame).shared, t.inflight, t.owing, t.answered⟩ :
      Service eventCapacity).view = t.view := by
    simp only [Service.view, hs.shared]
    rfl
  refine ⟨⟨t.plane, (setDiagnostics f frame).shared, t.inflight, t.owing, t.answered⟩, ?_, ?_, hk⟩
  · exact ⟨hs.plane, rfl, hs.inflight, hs.room, hs.entered, hs.taken, hs.debt⟩
  · refine service_bounded hb (.runner _ _ rfl ?_)
    rw [hview]
    exact .stay _

/-- Every step of the runner counts what the step says. -/
theorem runnerStep_ticks (ready : WaitSet) (h : Accountable s) :
    Ticks (stepTicks ready s.phase (runnerStep ready s).1.phase (runnerStep ready s).2) s.frame
      (runnerStep ready s).1.frame := by
  obtain ⟨t, hs, hb, hk⟩ := h
  have hagree := (publishes_of_kinds ready hs hb hk).agreeing
  unfold runnerStep at hagree ⊢
  cases hp : s.phase with
  | idle =>
    simp only [hp] at hagree ⊢
    have hbegun := @beginCall_ticks _ _ s.frame ready
    have hkept := @receiveCommand_telemetry _ _ (beginCall ready s.frame)
    rcases hr : receiveCommand (beginCall ready s.frame) with ⟨received, frame⟩
    rw [hr] at hkept
    have hall := hbegun.trans (.of_eq hkept)
    rw [List.append_nil] at hall
    cases received <;> exact hall
  | submitting command sources =>
    simp only [hp] at hagree ⊢
    have hticks := acceptCommand_ticks command s.frame
    cases hx : acceptCommand command s.frame with
    | ok value frame =>
      rw [hx] at hticks
      exact hticks
    | error error frame =>
      rw [hx] at hticks
      simp only [hx] at hagree
      exact (hagree error rfl hticks).elim
  | sampling sources =>
    simp only [hp] at hagree ⊢
    have hkept := @receiveCancellation_telemetry _ _ s.frame
    rcases hr : receiveCancellation s.frame with ⟨taken, frame⟩
    rw [hr] at hkept
    cases taken <;> exact .of_eq hkept
  | requesting taken sources =>
    simp only [hp] at hagree ⊢
    have hticks := requestCancellation_ticks taken s.frame
    cases hx : requestCancellation taken s.frame with
    | ok event frame =>
      rw [hx] at hticks
      cases event <;> exact hticks
    | error error frame =>
      rw [hx] at hticks
      simp only [hx] at hagree
      exact (hagree error rfl hticks).elim
  | driving sources =>
    simp only [hp] at hagree ⊢
    have hticks := driveBackend_ticks sources s.frame
    cases hx : driveBackend sources s.frame with
    | ok event frame =>
      rw [hx] at hticks
      exact hticks
    | error error frame =>
      rw [hx] at hticks
      exact hticks.1
  | publishing event =>
    simp only [hp] at hagree ⊢
    have hticks := publishDriven_ticks event s.frame
    cases hx : publishDriven event s.frame with
    | ok value frame =>
      rw [hx] at hticks
      exact hticks
    | error error frame =>
      rw [hx] at hticks
      exact hticks.1

/-- A mismatched publication was counted as completed. -/
theorem eventTick_of_mismatched {kind : CommandKindTag} {event : IncrementalDriverEvent}
    (h : mismatched kind event = true) : eventTick event = some .operationsCompleted := by
  cases event with
  | completed sequence completion => rfl
  | _ => cases h

/-- The ticks of a step and of the rest of its call are those of the call from there on. -/
theorem rest_of_step {ready : WaitSet} {next : IncrementalSystem B eventCapacity}
    {result : CallResult} (h : Accountable s) (hs : runnerStep ready s = (next, none))
    (hr : Returned next.phase result) :
    stepTicks ready s.phase next.phase none ++ restTicks ready next.phase result =
      restTicks ready s.phase result ∧ Returned s.phase result := by
  obtain ⟨t, hsim, hb, -⟩ := h
  have heffect := runnerStep_effect ready hsim hb
  have hnone : ∀ {phase : IncrementalPhase}, s.phase = phase →
      (∀ event, phase ≠ .publishing event) → Returned s.phase result := by
    intro phase hp hn event he
    exact (hn event (hp.symm.trans he)).elim
  rw [hs] at heffect
  cases heffect with
  | received command rest ready' frame hp hc hq ho hm =>
    refine ⟨?_, hnone hp (by simp)⟩
    rw [hp]
    rfl
  | unreceived ready' frame hp hn ho hm =>
    refine ⟨?_, hnone hp (by simp)⟩
    rw [hp]
    rfl
  | submitted command ready' sequence request frame hp hs ho hm =>
    refine ⟨?_, hnone hp (by simp)⟩
    rw [hp]
    rfl
  | sampled x rest ready' frame hp hq ho hm =>
    refine ⟨?_, hnone hp (by simp)⟩
    rw [hp]
    rfl
  | unsampled ready' hp hq =>
    refine ⟨?_, hnone hp (by simp)⟩
    rw [hp]
    rfl
  | requested sequence ready' frame hp hk ho hm =>
    refine ⟨?_, hnone hp (by simp)⟩
    rw [hp]
    rfl
  | driven ready' event drive frame hp hd ho hm =>
    refine ⟨?_, hnone hp (by simp)⟩
    rw [hp]
    rcases hr event rfl with rfl | ⟨rfl, hcompleted⟩
    · exact List.append_nil _
    · show (eventTick event).toList ++ [Counter.protocolErrors] = _
      rw [hcompleted]
      rfl

/-- The last step of a call counts the rest of it. -/
theorem rest_of_last {ready : WaitSet} {next : IncrementalSystem B eventCapacity}
    {result : CallResult} (h : Accountable s) (hs : runnerStep ready s = (next, some result)) :
    stepTicks ready s.phase next.phase (some result) = restTicks ready s.phase result ∧
      Returned s.phase result := by
  obtain ⟨t, hsim, hb, -⟩ := h
  have heffect := runnerStep_effect ready hsim hb
  generalize he : runnerStep ready s = effect at heffect
  rw [hs] at he
  cases heffect with
  | removed sequence kind ready' frame hp ha hh hk ho hm =>
    obtain ⟨rfl, hresult⟩ := Prod.mk.inj he
    cases hresult
    rw [hp]
    exact ⟨rfl, fun event he => by cases he⟩
  | failed ready' error drive frame hp hd ho hm =>
    obtain ⟨rfl, hresult⟩ := Prod.mk.inj he
    cases hresult
    rw [hp]
    exact ⟨rfl, fun event he => by cases he⟩
  | published event sequence kind frame hp ht hk ho hm =>
    obtain ⟨rfl, hresult⟩ := Prod.mk.inj he
    rw [hp]
    split at hresult
    · next hmis =>
      cases hresult
      refine ⟨rfl, fun other he => ?_⟩
      cases he
      exact Or.inr ⟨rfl, eventTick_of_mismatched hmis⟩
    · cases hresult
      refine ⟨rfl, fun other he => ?_⟩
      cases he
      exact Or.inl rfl
  | unpublished event hp ht =>
    obtain ⟨rfl, hresult⟩ := Prod.mk.inj he
    cases hresult
    rw [hp]
    refine ⟨rfl, fun other he => ?_⟩
    cases he
    exact Or.inl rfl
  | _ =>
    obtain ⟨-, hresult⟩ := Prod.mk.inj he
    cases hresult

/-- A call counts itself, its sources and its result. -/
theorem returns_ticks {ready : WaitSet} {next : IncrementalSystem B eventCapacity}
    {result : CallResult} (hr : Returns ready s result next) (h : Accountable s) :
    Ticks (restTicks ready s.phase result) s.frame next.frame ∧ Returned s.phase result := by
  induction hr with
  | last hlast =>
    have hticks := runnerStep_ticks ready h
    obtain ⟨hrest, hreturned⟩ := rest_of_last h hlast
    rw [hlast, hrest] at hticks
    exact ⟨hticks, hreturned⟩
  | step hfirst rest ih =>
    have hticks := runnerStep_ticks ready h
    have hnext := accountable_runner ready h
    rw [hfirst] at hticks hnext
    obtain ⟨hrest, hreturned⟩ := ih hnext
    obtain ⟨hsplit, hkept⟩ := rest_of_step h hfirst hreturned
    rw [← hsplit]
    exact ⟨hticks.trans hrest, hkept⟩

end Steps

section Waits

/-- Names counted for the answer of a wait. -/
def answerTicks : Poll (Except (IncrementalWaitError ε) WaitSet) → List Counter
  | .pending => []
  | .ready (.ok ready) => .waitReadyCompletions ::
    ((if ready.isEmpty then [Counter.immediateReadyCompletions] else []) ++ readyTicks ready)
  | .ready (.error _) => [.waitReadyErrors]

/-- Names that a step counts for its reply, given whether a wait was pending. -/
def entryTicks (waiting : Bool) : WaitInput E F × WaitReply ε → List Counter
  | (.runOnce ready, .called result) => .runOnceCalls :: (readyTicks ready ++ resultTicks result)
  | (.pollWait, .polled answer) =>
    (if waiting then [] else [Counter.waitReadyCalls]) ++ answerTicks answer
  | _ => []

/-- Whether a wait is pending after a step. -/
def waitingAfter (waiting : Bool) : WaitInput E F × WaitReply ε → Bool
  | (.pollWait, .polled .pending) => true
  | (.pollWait, _) => false
  | (.dropWait, _) => false
  | _ => waiting

/-- A wait is pending at the end of a transcript. -/
def waitingAt (h : List (WaitInput E F × WaitReply ε)) : Bool := h.foldl waitingAfter false

/-- Names that the entries of a transcript count, one after the other. -/
def observedTicks : Bool → List (WaitInput E F × WaitReply ε) → List Counter
  | _, [] => []
  | waiting, x :: rest => entryTicks waiting x ++ observedTicks (waitingAfter waiting x) rest

/-- A longer transcript counts its last entry after the earlier ones. -/
theorem observedTicks_concat (waiting : Bool) (h : List (WaitInput E F × WaitReply ε))
    (x : WaitInput E F × WaitReply ε) :
    observedTicks waiting (h ++ [x]) =
      observedTicks waiting h ++ entryTicks (h.foldl waitingAfter waiting) x := by
  induction h generalizing waiting with
  | nil => exact List.append_nil _
  | cons y rest ih =>
    simp only [List.cons_append, observedTicks, List.foldl_cons, ih, List.append_assoc]

/-- The result of a wait is counted with its sources. -/
theorem countResult_ticks (result : Except (IncrementalWaitError ε) WaitSet)
    (frame : FacadeFrame B eventCapacity) :
    Ticks (answerTicks (.ready result)) frame (countResult result frame) := by
  cases result with
  | error error => exact .set (fun _ => rfl) rfl
  | ok ready =>
    refine .set (fun d => ?_) rfl
    dsimp only [answerTicks]
    rw [recordReady_tally]
    cases ready.isEmpty <;> rfl

/-- A wait is counted when it is polled for the first time. -/
theorem beginWait_ticks (s : WaitSystem B P eventCapacity) :
    Ticks (if s.waiting then [] else [Counter.waitReadyCalls]) s.frame (beginWait s) := by
  unfold beginWait
  cases s.waiting with
  | true => exact .of_eq rfl
  | false => exact .set (fun _ => rfl) rfl

/-- The controller leaves the published counters alone. -/
theorem control_diagnostics (plane : AsyncControl.ControlPlane)
    (shared : SharedState eventCapacity) (step : AsyncControl.ControlStep) :
    (plane.step shared step).2.incrementalDiagnostics = shared.incrementalDiagnostics := by
  cases step with
  | nextEvent =>
    show (AsyncControl.ControlPlane.nextEvent shared).incrementalDiagnostics = _
    unfold AsyncControl.ControlPlane.nextEvent
    split <;> rfl
  | send =>
    unfold AsyncControl.ControlPlane.step AsyncControl.ControlPlane.sendCommand
    cases plane.future with
    | sending sequence call =>
      dsimp only
      split <;> rfl
    | _ => rfl
  | observe =>
    unfold AsyncControl.ControlPlane.step AsyncControl.ControlPlane.observeCompletion
    cases plane.future with
    | waiting sequence call =>
      dsimp only
      split
      · split <;> rfl
      · rfl
    | _ => rfl
  | finish =>
    unfold AsyncControl.ControlPlane.step AsyncControl.ControlPlane.finishCall
    cases plane.future with
    | finishing sequence call kind =>
      dsimp only
      split <;> rfl
    | _ => rfl
  | _ =>
    unfold AsyncControl.ControlPlane.step
    cases plane.future <;> rfl

variable [IncrementalWifiBackend B] [IncrementalWaitPlatform P ε]
  {s : WaitSystem B P eventCapacity}

/-- A wait system stands between two calls. -/
def standing (s : WaitSystem B P eventCapacity) : IncrementalSystem B eventCapacity :=
  ⟨s.plane, s.frame, .idle⟩

/-- A poll counts itself and its answer, and leaves the system accountable. -/
theorem pollWaitReady_ticks (h : Accountable (standing s)) :
    Accountable (standing (pollWaitReady s).1) ∧
      Ticks ((if s.waiting then [] else [Counter.waitReadyCalls]) ++
        answerTicks (pollWaitReady s).2) s.frame (pollWaitReady s).1.frame ∧
      (pollWaitReady s).1.waiting = waitingAfter s.waiting
        ((.pollWait, .polled (pollWaitReady s).2) : WaitInput E F × WaitReply ε) := by
  have hbegun : Accountable ⟨s.plane, beginWait s, .idle⟩ := by
    unfold beginWait
    split
    · exact h
    · exact accountable_count _ h
  have hticks := beginWait_ticks s
  unfold pollWaitReady
  rcases hx : pollIntent (beginWait s) s.platform with ⟨answer, platform⟩
  cases answer with
  | pending =>
    refine ⟨hbegun, ?_, rfl⟩
    dsimp only [answerTicks]
    rw [List.append_nil]
    exact hticks
  | ready result =>
    have hcounted : Accountable ⟨s.plane, countResult result (beginWait s), .idle⟩ :=
      accountable_count _ hbegun
    refine ⟨hcounted, hticks.trans (countResult_ticks result _), ?_⟩
    cases result <;> rfl

variable (interrupt : E → B → B) (signal : F → P → P)

/-- Every step of calls and waits counts what its reply says. -/
theorem waitStep_ticks (h : Accountable (standing s)) (input : WaitInput E F) :
    Accountable (standing ((waitMachine interrupt signal).next s input)) ∧
      Ticks (entryTicks s.waiting (input, (waitMachine interrupt signal).output s input)) s.frame
        ((waitMachine interrupt signal).next s input).frame ∧
      ((waitMachine interrupt signal).next s input).waiting =
        waitingAfter s.waiting (input, (waitMachine interrupt signal).output s input) := by
  cases input with
  | control step =>
    refine ⟨accountable_next interrupt h (.control step), .of_eq ?_, rfl⟩
    exact Prod.ext rfl (control_diagnostics s.plane s.frame.shared step)
  | runOnce ready =>
    cases hw : s.waiting with
    | true =>
      simp only [Machine.next, Machine.output, waitMachine, hw, if_true]
      exact ⟨h, .of_eq rfl, rfl⟩
    | false =>
      simp only [Machine.next, Machine.output, waitMachine, hw, Bool.false_eq_true, if_false]
      have hreturns := runOnce_returns s.plane ready s.frame
      refine ⟨?_, (returns_ticks hreturns h).1, rfl⟩
      exact returns_invariant (fun _ hs => accountable_runner ready hs) hreturns h
  | pollWait => exact pollWaitReady_ticks h
  | dropWait => exact ⟨h, .of_eq rfl, rfl⟩
  | backendEvent event =>
    exact ⟨accountable_next interrupt h (.backendEvent event), .of_eq rfl, rfl⟩
  | platformEvent event => exact ⟨h, .of_eq rfl, rfl⟩

variable (backend : B) (budget : WorkBudget) (config : WifiConfig) (hpos : 0 < eventCapacity)
  (platform : P)

/-- A claimed radio whose runner was neither called nor polled. -/
def waitStart : WaitSystem B P eventCapacity :=
  ⟨.new, ⟨.new backend budget config, .new hpos⟩, platform, false⟩

/-- State after a run of calls and waits. -/
def waitRun (inputs : List (WaitInput E F)) : WaitSystem B P eventCapacity :=
  (waitMachine interrupt signal).run (waitStart backend budget config hpos platform) inputs

/-- Replies of a run of calls and waits. -/
def waitTranscript (inputs : List (WaitInput E F)) : List (WaitInput E F × WaitReply ε) :=
  (waitMachine interrupt signal).transcript (waitStart backend budget config hpos platform) inputs

/-- What the counters of a run have counted so far. -/
structure Accounted (h : List (WaitInput E F × WaitReply ε)) (s : WaitSystem B P eventCapacity) :
    Prop where
  /-- Calls keep being accountable. -/
  accountable : Accountable (standing s)
  /-- The pending wait is that of the transcript. -/
  waiting : s.waiting = waitingAt h
  /-- The published counters are the runner's. -/
  published : s.frame.shared.incrementalDiagnostics = s.frame.runner.diagnostics
  /-- Each counter holds its share of the transcript. -/
  words : ∀ c, word s.frame.runner.diagnostics c = saturated ((observedTicks false h).count c)

/-- In every run of calls and waits, whatever the controller, the backend and the platform
do in between: each counter holds the number of times that the replies so far show what it
counts, or its largest value, and the published counters are the same. The waits counted as
completed at once are those answered with the empty set, also after they were suspended. -/
theorem telemetry_accounts (inputs : List (WaitInput E F)) :
    (waitRun interrupt signal backend budget config hpos platform
      inputs).frame.shared.incrementalDiagnostics =
      (waitRun interrupt signal backend budget config hpos platform
        inputs).frame.runner.diagnostics ∧
    ∀ c, word (waitRun interrupt signal backend budget config hpos platform
        inputs).frame.shared.incrementalDiagnostics c =
      saturated ((observedTicks false (waitTranscript interrupt signal backend budget config hpos
        platform inputs)).count c) := by
  have h : Accounted (waitTranscript interrupt signal backend budget config hpos platform inputs)
      (waitRun interrupt signal backend budget config hpos platform inputs) := by
    refine transcript_invariant (waitMachine interrupt signal) (I := Accounted)
      (G := fun _ => True) ?_ (fun _ _ _ => trivial) ?_ inputs trivial
    · exact ⟨accountable_start backend budget config hpos, rfl, rfl, word_empty⟩
    · intro h s input _ hs
      obtain ⟨hacc, hticks, hwaiting⟩ := waitStep_ticks interrupt signal hs.accountable input
      refine ⟨hacc, ?_, hticks.published hs.published, fun c => ?_⟩
      · rw [hwaiting, waitingAt, List.foldl_append, hs.waiting]
        rfl
      · rw [hticks.own, word_tally (hs.words c), observedTicks_concat, List.count_append,
          hs.waiting]
        rfl
  refine ⟨h.published, fun c => ?_⟩
  rw [h.published]
  exact h.words c

end Waits

/-- A disconnection that stays pending is called, waited for, and called again. -/
def awaitedDisconnection : List (WaitInput Unit Unit) :=
  [.control (.call .disconnect), .control .allocate, .control .send, .runOnce .empty,
    .runOnce .empty, .pollWait, .pollWait, .runOnce .backend]

/-- The platform has the backend ready at its second poll. -/
def secondPoll : ReplayPlatform := ⟨[.pending, .ready (.ok .backend)]⟩

/-- Two polls of one wait are counted as one wait and one completion. -/
theorem telemetry_accounts_disconnection :
    (observedTicks false (waitTranscript (fun _ backend => backend) (fun _ platform => platform)
        (⟨[], [], []⟩ : ReplayBackend) smallestBudget .default Nat.one_pos secondPoll
        awaitedDisconnection)).count .waitReadyCalls = 1 ∧
    (waitRun (fun _ backend => backend) (fun _ platform => platform)
        (⟨[], [], []⟩ : ReplayBackend) smallestBudget .default Nat.one_pos secondPoll
        awaitedDisconnection).frame.shared.incrementalDiagnostics =
      (waitRun (fun _ backend => backend) (fun _ platform => platform)
        (⟨[], [], []⟩ : ReplayBackend) smallestBudget .default Nat.one_pos secondPoll
        awaitedDisconnection).frame.runner.diagnostics :=
  ⟨by decide +kernel, (telemetry_accounts _ _ _ _ _ _ _ awaitedDisconnection).1⟩

end HisiRfCore.TelemetryAccount
