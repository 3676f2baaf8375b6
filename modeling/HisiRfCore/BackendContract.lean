import HisiRfCore.BackendTrace
import HisiRfCore.WakeSelection

/-!
# The driver obeys the backend contract

Over every run of driver calls, and every backend, the recorded trace obeys the
trait contract: one call a drive, starts with fresh identities while nothing is
live, polls and cancellations of the live operation only, one cancellation an
identity, and an immediate call after an accepted start or cancellation.
-/

namespace HisiRfCore.BackendContract

open NonZeroCounter StateBorrow WifiTypes IncrementalContract CommandArbitration RunnerState
open BackendDriver DriverCoherence DriverCalls InputOutputMachine IncrementalRunnerState
open IncrementalBackendDriver BackendTrace WakeSelection

variable {B E : Type} {n : ℕ} [IncrementalWifiBackend B]

section Prompt

variable {driver : IncrementalBackendDriver B} {ready : WaitSet}

/-- The active operation is live in the state that a poll selects from. -/
theorem timed_current (hc : Coherent driver) {active : ActiveCommand}
    (ha : driver.arbiter.active = some active) (ready : WaitSet) :
    (timed driver active.operation ready).tracker.current =
      some (active.operation, liveLifecycle active.cancelRequested) := by
  rw [timed_tracker]
  exact hc.current_of_active ha

/-- A due deadline leaves the rotation alone. -/
@[simp] theorem timed_selector (driver : IncrementalBackendDriver B) (operation : OperationId)
    (ready : WaitSet) : (timed driver operation ready).selector = driver.runner.selector := by
  unfold timed
  split <;> rfl

/-- With only a ready timer subscribed, every rotation selects the timer. -/
theorem select_timer (selector : FairWakeSelector) (hready : ready.contains .timer = true) :
    (selector.select (WaitSet.empty.union .timer) ready).1 = some .timer := by
  cases hs : (selector.select (WaitSet.empty.union .timer) ready).1 with
  | none => exact (select_none hs .timer ⟨rfl, hready⟩).elim
  | some picked =>
    have hin := (select_some hs).1
    cases picked with
    | timer => rfl
    | _ => cases hin

/-- An active operation with an empty wait set is polled for every ready set. -/
theorem selectStep_of_empty (hc : Coherent driver) {active : ActiveCommand}
    (ha : driver.arbiter.active = some active) (hw : driver.runner.waitFor = .empty)
    {step : RunnerStep} {runner : IncrementalRunnerState}
    (hs : (timed driver active.operation ready).selectStep ready = (step, runner)) :
    ∃ reason, step = .pollBackend active.operation reason := by
  have hcurrent := timed_current hc ha ready
  by_cases htimer : (ready.contains .timer &&
      (IncrementalWifiBackend.nextDeadlineUs driver.backend active.operation).isSome) = true
  · have hwait : (timed driver active.operation ready).waitFor = WaitSet.empty.union .timer := by
      unfold timed
      rw [if_pos htimer, hw]
    have hstep := selectStep_of_subscribed hcurrent ready (by rw [hwait]; rfl)
    rw [hs, hwait, select_timer _ (Bool.and_eq_true_iff.mp htimer).1] at hstep
    exact ⟨_, hstep⟩
  · have hwait : (timed driver active.operation ready).waitFor = .empty := by
      unfold timed
      rw [if_neg htimer, hw]
    have hstep := selectStep_of_unsubscribed hcurrent ready (by rw [hwait]; rfl)
    rw [hs] at hstep
    exact ⟨_, hstep⟩

end Prompt

/-- Outside events change the wrapped backend, not the recorded calls. -/
def recordedInterrupt (interrupt : E → B → B) : E → BackendRecorder B → BackendRecorder B :=
  fun event recorder => {recorder with inner := interrupt event recorder.inner}

/-- The driver machine over a recorded backend. -/
def recordedMachine (interrupt : E → B → B) :
    Machine (IncrementalBackendDriver (BackendRecorder B)) (DriverCall E) DriverReply :=
  driverMachine (recordedInterrupt interrupt)

/-- Driver after the calls, from an idle driver over an unused recorder. -/
def recordedRun (interrupt : E → B → B) (backend : B) (budget : WorkBudget)
    (calls : List (DriverCall E)) : IncrementalBackendDriver (BackendRecorder B) :=
  driverRun (recordedInterrupt interrupt) ⟨backend, []⟩ budget calls

/-- Trace recorded by a driver. -/
def trace (driver : IncrementalBackendDriver (BackendRecorder B)) : List BackendCall :=
  driver.backend.calls

/-- The trace agrees with the driver. -/
def Traced (driver : IncrementalBackendDriver (BackendRecorder B)) : Prop :=
  Recorded (trace driver) driver.arbiter.active driver.runner.tracker.nextGeneration
    driver.runner.waitFor

section Drive

variable {driver : IncrementalBackendDriver (BackendRecorder B)} {scan : Vector ScanResult n}
  {ready : WaitSet}
  {result : EStateM.Result IncrementalDriverError (DriverFrame (BackendRecorder B) n)
    IncrementalDriverEvent}

omit [IncrementalWifiBackend B] in
/-- Nothing is owed a call while nothing is active. -/
theorem owed_of_idle (ht : Traced driver) (ha : driver.arbiter.active = none) :
    owed (trace driver) = none := by
  cases ho : owed (trace driver) with
  | none => rfl
  | some id =>
    obtain ⟨b, hb, -⟩ := ht.owed_active ho
    rw [ha] at hb
    cases hb

omit [IncrementalWifiBackend B] in
/-- The operation that is owed a call is the active one. -/
theorem owed_of_active (ht : Traced driver) {active : ActiveCommand}
    (ha : driver.arbiter.active = some active) {id : OperationId}
    (ho : owed (trace driver) = some id) : active.operation = id := by
  obtain ⟨b, hb, hop⟩ := ht.owed_active ho
  rw [ha] at hb
  cases hb
  exact hop

/-- A drive makes at most one call. -/
theorem drive_extends (h : DriveOutcome driver scan ready result) :
    trace (after result).driver = trace driver ∨
      ∃ call, trace (after result).driver = trace driver ++ [call] := by
  cases h with
  | idle ha hp => exact Or.inl rfl
  | started held backend ha hp hs => exact Or.inr ⟨_, start_calls hs⟩
  | startFailed held backend error ha hp hs => exact Or.inr ⟨_, start_calls hs⟩
  | cancelDelivered active backend ha hd hs => exact Or.inr ⟨_, cancel_calls hs⟩
  | cancelFailed active backend error ha hd hs => exact Or.inr ⟨_, cancel_calls hs⟩
  | waiting active waitFor runner ha hd hs => exact Or.inl rfl
  | commandReady active runner ha hd hs => exact Or.inl rfl
  | pollFailed active reason runner error backend output ha hd hs hp =>
    exact Or.inr ⟨_, poll_calls hp⟩
  | staleReport active reason runner report backend output ha hd hs hp hr =>
    exact Or.inr ⟨_, poll_calls hp⟩
  | kept active reason runner report backend output event waitFor ha hd hs hp hr he =>
    exact Or.inr ⟨_, poll_calls hp⟩
  | ended active reason runner report backend output event ha hd hs hp hr he =>
    exact Or.inr ⟨_, poll_calls hp⟩

/-- A drive makes the call it owes, and does not report that it waits. -/
theorem drive_owed (hc : Coherent driver) (ht : Traced driver) {id : OperationId}
    (ho : owed (trace driver) = some id) (h : DriveOutcome driver scan ready result) :
    (∃ call, trace (after result).driver = trace driver ++ [call] ∧ CallsOn id call) ∧
      ∀ s op w, reply result ≠ .ok (.waiting s op w) := by
  have hidle : driver.arbiter.active ≠ none := by
    intro ha
    rw [owed_of_idle ht ha] at ho
    cases ho
  have hselected : ∀ active step runner, driver.arbiter.active = some active →
      (timed driver active.operation ready).selectStep ready = (step, runner) →
      ∃ reason, step = .pollBackend active.operation reason :=
    fun _ _ _ ha hs => selectStep_of_empty hc ha (ht.prompt id ho) hs
  cases h with
  | idle ha hp => exact (hidle ha).elim
  | started held backend ha hp hs => exact (hidle ha).elim
  | startFailed held backend error ha hp hs => exact (hidle ha).elim
  | cancelDelivered active backend ha hd hs =>
    exact ⟨⟨_, cancel_calls hs, owed_of_active ht ha ho⟩, by simp⟩
  | cancelFailed active backend error ha hd hs =>
    exact ⟨⟨_, cancel_calls hs, owed_of_active ht ha ho⟩, by simp⟩
  | waiting active waitFor runner ha hd hs =>
    obtain ⟨reason, hr⟩ := hselected _ _ _ ha hs
    cases hr
  | commandReady active runner ha hd hs =>
    obtain ⟨reason, hr⟩ := hselected _ _ _ ha hs
    cases hr
  | pollFailed active reason runner error backend output ha hd hs hp =>
    exact ⟨⟨_, poll_calls hp, owed_of_active ht ha ho⟩, by simp⟩
  | staleReport active reason runner report backend output ha hd hs hp hr =>
    exact ⟨⟨_, poll_calls hp, owed_of_active ht ha ho⟩, by simp⟩
  | kept active reason runner report backend output event waitFor ha hd hs hp hr he =>
    refine ⟨⟨_, poll_calls hp, owed_of_active ht ha ho⟩, fun s op w hw => ?_⟩
    rw [reply_ok, Except.ok.injEq] at hw
    subst hw
    revert he
    cases report.disposition <;> simp [keptEvent]
  | ended active reason runner report backend output event ha hd hs hp hr he =>
    refine ⟨⟨_, poll_calls hp, owed_of_active ht ha ho⟩, fun s op w hw => ?_⟩
    have hterm := endedEvent_terminal he
    rw [reply_ok, Except.ok.injEq] at hw
    rw [hw] at hterm
    cases hterm

/-- A report that keeps the operation does not end it. -/
theorem liveAfter_kept {active : ActiveCommand} {reason : WakeReason} {report : WorkReport}
    {event : IncrementalDriverEvent} {waitFor : WaitSet}
    (he : keptEvent active report.madeProgress report.disposition = some (event, waitFor)) :
    liveAfter (some active.operation) (.poll active.operation reason (.ok report)) =
      some active.operation := by
  revert he
  cases hd : report.disposition <;> simp [keptEvent, liveAfter, hd]

/-- A report that ends the operation leaves nothing live. -/
theorem liveAfter_ended {active : ActiveCommand} {reason : WakeReason} {report : WorkReport}
    {event : IncrementalDriverEvent} (hr : report.operation = active.operation)
    (he : endedEvent active report.disposition = some event) :
    liveAfter (some active.operation) (.poll active.operation reason (.ok report)) = none := by
  revert he
  cases hd : report.disposition <;> simp [endedEvent, liveAfter, hd, ended, hr]

/-- A foreign report ends nothing that is live. -/
theorem liveAfter_stale {active : ActiveCommand} {reason : WakeReason} {report : WorkReport}
    (hr : report.operation ≠ active.operation) :
    liveAfter (some active.operation) (.poll active.operation reason (.ok report)) =
      some active.operation := by
  cases hd : report.disposition <;> simp [liveAfter, hd, ended, hr.symm]

/-- Selecting a step for a poll allocates no identity. -/
theorem selected_generation {active : ActiveCommand} {step : RunnerStep}
    {runner : IncrementalRunnerState}
    (hs : (timed driver active.operation ready).selectStep ready = (step, runner)) :
    runner.tracker.nextGeneration = driver.runner.tracker.nextGeneration := by
  rw [selected_tracker hs]

omit [IncrementalWifiBackend B] in
/-- Agreement of a trace, read at the active command. -/
theorem Traced.recorded {active : Option ActiveCommand} (ht : Traced driver)
    (ha : driver.arbiter.active = active) :
    Recorded (trace driver) active driver.runner.tracker.nextGeneration driver.runner.waitFor := by
  rw [← ha]
  exact ht

/-- A selected step for a poll leaves the agreement as it is. -/
theorem Traced.selected {active : ActiveCommand} {owner : Option ActiveCommand} {step : RunnerStep}
    {runner : IncrementalRunnerState} (ht : Traced driver) (ha : driver.arbiter.active = owner)
    (hs : (timed driver active.operation ready).selectStep ready = (step, runner)) :
    Recorded (trace driver) owner runner.tracker.nextGeneration driver.runner.waitFor := by
  rw [selected_generation hs]
  exact ht.recorded ha

omit [IncrementalWifiBackend B] in
/-- A driver agrees with the trace its calls have left. -/
theorem traced_of_calls {next : IncrementalBackendDriver (BackendRecorder B)}
    {calls : List BackendCall} (hcalls : trace next = calls)
    (hx : Recorded calls next.arbiter.active next.runner.tracker.nextGeneration
      next.runner.waitFor) : Traced next := by
  rw [Traced, hcalls]
  exact hx

/-- A drive of a coherent driver keeps the trace in agreement. -/
theorem drive_traced (hc : Coherent driver) (ht : Traced driver)
    (h : DriveOutcome driver scan ready result)
    (hb : (startIds (trace (after result).driver)).length < 2 ^ 32 - 1) :
    Traced (after result).driver := by
  have hbound : ∀ id request answer,
      trace (after result).driver = trace driver ++ [.start id request answer] →
      driver.runner.tracker.nextGeneration.toNat + 1 < 2 ^ 32 := by
    intro id request answer he
    rw [he, startIds_concat, List.length_append] at hb
    have hone : (startIds [BackendCall.start id request answer]).length = 1 := rfl
    have hcount := ht.counted
    omega
  cases h with
  | idle ha hp => exact ht
  | started held backend ha hp hs =>
    have hx := (ht.recorded ha).start (hbound _ _ _ (start_calls hs)) (freshId driver) rfl
      held.command (.ok ()) held.sequence
    exact traced_of_calls (start_calls hs) hx
  | startFailed held backend error ha hp hs =>
    have hx := (ht.recorded ha).start (hbound _ _ _ (start_calls hs)) (freshId driver) rfl
      held.command (.error error) held.sequence
    exact traced_of_calls (start_calls hs) hx
  | cancelDelivered active backend ha hd hs =>
    have hx := (ht.recorded ha).cancel (not_requested_of_due hd) (.ok ())
    exact traced_of_calls (cancel_calls hs) hx
  | cancelFailed active backend error ha hd hs =>
    have hx := (ht.recorded ha).cancel (not_requested_of_due hd) (.error error)
    exact traced_of_calls (cancel_calls hs) hx
  | waiting active waitFor runner ha hd hs =>
    refine (ht.selected rfl hs).quiet rfl fun id ho hw => ?_
    obtain ⟨reason, hr⟩ := selectStep_of_empty hc ha hw hs
    cases hr
  | commandReady active runner ha hd hs =>
    refine (ht.selected rfl hs).quiet rfl fun id ho hw => ?_
    obtain ⟨reason, hr⟩ := selectStep_of_empty hc ha hw hs
    cases hr
  | pollFailed active reason runner error backend output ha hd hs hp =>
    have hx := (ht.selected ha hs).poll reason (.error error) none .empty (Or.inr rfl) (if_pos rfl)
    exact traced_of_calls (poll_calls hp) hx
  | staleReport active reason runner report backend output ha hd hs hp hr =>
    have hx := (ht.selected ha hs).poll reason (.ok report) (some active) runner.waitFor
      (Or.inl rfl) (liveAfter_stale hr)
    rw [← ha] at hx
    exact traced_of_calls (poll_calls hp) hx
  | kept active reason runner report backend output event waitFor ha hd hs hp hr he =>
    have hx := (ht.selected ha hs).poll reason (.ok report) (some active) waitFor (Or.inl rfl)
      (liveAfter_kept he)
    rw [← ha] at hx
    exact traced_of_calls (poll_calls hp) hx
  | ended active reason runner report backend output event ha hd hs hp hr he =>
    have hx := (ht.selected ha hs).poll reason (.ok report) none .empty (Or.inr rfl)
      (liveAfter_ended hr he)
    exact traced_of_calls (poll_calls hp) hx

/-- No other call makes a backend call. -/
theorem other_trace (interrupt : E → B → B) (driver : IncrementalBackendDriver (BackendRecorder B))
    {call : DriverCall E}
    (hcall : ∀ ready, ∀ {n : ℕ} (scan : Vector ScanResult n), call ≠ .driveOnce ready scan) :
    trace ((recordedMachine interrupt).next driver call) = trace driver := by
  cases call with
  | submit sequence request =>
    simp only [Machine.next, recordedMachine, driverMachine, submit, Field.call]
    cases CommandArbiter.submit ⟨sequence, request⟩ (arbiterField.get driver) <;> rfl
  | requestCancel sequence =>
    simp only [Machine.next, recordedMachine, driverMachine, requestCancel_apply, after_ok]
    rfl
  | driveOnce ready scan => exact (hcall ready scan rfl).elim
  | waitIntent => rfl
  | backendEvent event => rfl

/-- Every other call keeps the trace in agreement. -/
theorem other_traced (interrupt : E → B → B) (ht : Traced driver) {call : DriverCall E}
    (hcall : ∀ ready, ∀ {n : ℕ} (scan : Vector ScanResult n), call ≠ .driveOnce ready scan) :
    Traced ((recordedMachine interrupt).next driver call) := by
  cases call with
  | submit sequence request =>
    cases hp : driver.arbiter.pending with
    | none =>
      have hs := submit_of_free hp sequence request
      simp only [Machine.next, recordedMachine, driverMachine, hs]
      exact ht
    | some held =>
      have hs := submit_of_held hp sequence request
      simp only [Machine.next, recordedMachine, driverMachine, hs]
      exact ht
  | requestCancel sequence =>
    simp only [Machine.next, recordedMachine, driverMachine, requestCancel_apply, after_ok]
    have he := CommandArbiter.requestCancel_effect sequence driver.arbiter
    generalize CommandArbiter.requestCancel sequence driver.arbiter = effect at he
    cases he with
    | requestActive active ha hs hr hi =>
      unfold Traced at ht ⊢
      rw [ha] at ht
      exact ht.quiet rfl fun _ _ hw => hw
    | alreadyRequested active ha hs hr => exact ht
    | removePending hs hp => exact ht
    | notFound hs hp => exact ht
  | driveOnce ready scan => exact (hcall ready scan rfl).elim
  | waitIntent => exact ht
  | backendEvent event => exact ht

end Drive

section Runs

variable {driver : IncrementalBackendDriver (BackendRecorder B)}

/-- Only a drive makes a backend call, and at most one. -/
theorem call_extends (interrupt : E → B → B) (hc : Coherent driver) (call : DriverCall E) :
    trace ((recordedMachine interrupt).next driver call) = trace driver ∨
      (∃ ready, ∃ m : ℕ, ∃ scan : Vector ScanResult m, call = .driveOnce ready scan) ∧
        ∃ x, trace ((recordedMachine interrupt).next driver call) = trace driver ++ [x] := by
  cases call with
  | driveOnce ready scan =>
    rcases drive_extends (driveOnce_outcome hc scan ready) with hq | hx
    · exact Or.inl hq
    · exact Or.inr ⟨⟨ready, _, scan, rfl⟩, hx⟩
  | submit sequence request => exact Or.inl (other_trace interrupt driver (by simp))
  | requestCancel sequence => exact Or.inl (other_trace interrupt driver (by simp))
  | waitIntent => exact Or.inl rfl
  | backendEvent event => exact Or.inl rfl

/-- Starts counted in a trace are never fewer after one more call. -/
theorem starts_of_next (interrupt : E → B → B) (hc : Coherent driver) (call : DriverCall E)
    {k : ℕ}
    (hb : (startIds (trace ((recordedMachine interrupt).next driver call))).length < k) :
    (startIds (trace driver)).length < k := by
  rcases call_extends interrupt hc call with hq | ⟨-, x, hx⟩
  · rw [hq] at hb
    exact hb
  · rw [hx, startIds_concat, List.length_append] at hb
    omega

/-- Every call of a coherent driver keeps the trace in agreement. -/
theorem call_traced (interrupt : E → B → B) (hc : Coherent driver) (ht : Traced driver)
    (call : DriverCall E)
    (hb : (startIds (trace ((recordedMachine interrupt).next driver call))).length <
      2 ^ 32 - 1) :
    Traced ((recordedMachine interrupt).next driver call) := by
  cases call with
  | driveOnce ready scan => exact drive_traced hc ht (driveOnce_outcome hc scan ready) hb
  | submit sequence request => exact other_traced interrupt ht (by simp)
  | requestCancel sequence => exact other_traced interrupt ht (by simp)
  | waitIntent => exact ht
  | backendEvent event => exact ht

/-- One more call of a recorded run. -/
theorem recordedRun_concat (interrupt : E → B → B) (backend : B) (budget : WorkBudget)
    (calls : List (DriverCall E)) (call : DriverCall E) :
    recordedRun interrupt backend budget (calls ++ [call]) =
      (recordedMachine interrupt).next (recordedRun interrupt backend budget calls) call :=
  run_concat _ _ _ _

/-- A recorded run is coherent. -/
theorem recordedRun_coherent (interrupt : E → B → B) (backend : B) (budget : WorkBudget)
    (calls : List (DriverCall E)) : Coherent (recordedRun interrupt backend budget calls) :=
  run_coherent _ _ budget calls

/-- Over every run with fewer starts than identities the trace agrees with the driver. -/
theorem recordedRun_traced (interrupt : E → B → B) (backend : B) (budget : WorkBudget)
    (calls : List (DriverCall E))
    (hb : (startIds (trace (recordedRun interrupt backend budget calls))).length < 2 ^ 32 - 1) :
    Traced (recordedRun interrupt backend budget calls) := by
  refine (run_invariant_below (recordedMachine interrupt)
    (I := fun driver => Coherent driver ∧ Traced driver)
    (B := fun driver => (startIds (trace driver)).length < 2 ^ 32 - 1)
    ⟨new_coherent (⟨backend, []⟩ : BackendRecorder B) budget, recorded_nil⟩ ?_ ?_ calls hb).2
  · exact fun before call =>
      starts_of_next interrupt (recordedRun_coherent interrupt backend budget before) call
  · exact fun driver call hn hi =>
      ⟨(call_move _ hi.1 call).1, call_traced interrupt hi.1 hi.2 call hn⟩

/-- The bound on the starts of a run holds of every earlier part of it. -/
theorem recordedRun_starts (interrupt : E → B → B) (backend : B) (budget : WorkBudget)
    {before after : List (DriverCall E)} {k : ℕ}
    (hb : (startIds (trace (recordedRun interrupt backend budget (before ++ after)))).length < k) :
    (startIds (trace (recordedRun interrupt backend budget before))).length < k :=
  bound_of_append (recordedMachine interrupt)
    (B := fun driver => (startIds (trace driver)).length < k)
    (fun before call =>
      starts_of_next interrupt (recordedRun_coherent interrupt backend budget before) call) hb

end Runs

/-- The calls made on the backend obey its contract: allowed calls only, at most
one a drive and none elsewhere, and an immediate call after an accepted start or
cancellation, whatever is ready. -/
theorem backend_contract (interrupt : E → B → B) (backend : B) (budget : WorkBudget)
    (calls : List (DriverCall E))
    (hb : (startIds (trace (recordedRun interrupt backend budget calls))).length < 2 ^ 32 - 1) :
    ObeysContract (trace (recordedRun interrupt backend budget calls)) ∧
    (∀ before call after, calls = before ++ call :: after →
      trace (recordedRun interrupt backend budget (before ++ [call])) =
          trace (recordedRun interrupt backend budget before) ∨
        (∃ ready, ∃ m : ℕ, ∃ scan : Vector ScanResult m, call = .driveOnce ready scan) ∧
          ∃ x, trace (recordedRun interrupt backend budget (before ++ [call])) =
            trace (recordedRun interrupt backend budget before) ++ [x]) ∧
    ∀ before after, calls = before ++ after → ∀ id,
      owed (trace (recordedRun interrupt backend budget before)) = some id →
      ∀ ready, ∀ {m : ℕ} (scan : Vector ScanResult m),
        (∃ x, trace (recordedRun interrupt backend budget (before ++ [.driveOnce ready scan])) =
            trace (recordedRun interrupt backend budget before) ++ [x] ∧ CallsOn id x) ∧
        ∀ s op w, (recordedMachine interrupt).output (recordedRun interrupt backend budget before)
          (.driveOnce ready scan) ≠ .driven (.ok (.waiting s op w)) := by
  refine ⟨(recordedRun_traced interrupt backend budget calls hb).obeys, ?_, ?_⟩
  · rintro before call after rfl
    rw [recordedRun_concat]
    exact call_extends interrupt (recordedRun_coherent interrupt backend budget before) call
  · rintro before after rfl id ho ready m scan
    have hc := recordedRun_coherent interrupt backend budget before
    have ht := recordedRun_traced interrupt backend budget before
      (recordedRun_starts interrupt backend budget hb)
    obtain ⟨hx, hw⟩ := drive_owed hc ht ho (driveOnce_outcome hc scan ready)
    constructor
    · rw [recordedRun_concat]
      exact hx
    · exact fun s op w he => hw s op w (DriverReply.driven.inj he)

/-- The contract on the run that removes a pending command. -/
theorem backend_contract_removal :
    ObeysContract (trace (recordedRun (fun (_ : Unit) (b : ReplayBackend) => b) completingBackend
      smallestBudget removalCalls)) :=
  (backend_contract (fun (_ : Unit) (b : ReplayBackend) => b) completingBackend
    smallestBudget removalCalls (by decide +kernel)).1

end HisiRfCore.BackendContract
