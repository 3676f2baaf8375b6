import HisiRfCore.BackendContract
import HisiRfCore.WakeSelection

/-!
# Errors of a drive

A drive fails in two ways only: the backend reports about another operation, or
the selector picks the command source, which only the backend can have
subscribed. Neither writes a slot or the tracked operation, so the operation is
still ended by its own report, and no command leaves its slot without an event.
-/

namespace HisiRfCore.DriverErrors

open StateBorrow WifiTypes IncrementalContract CommandArbitration RunnerState BackendDriver
open DriverCoherence DriverCalls BackendTrace BackendContract InputOutputMachine
open IncrementalRunnerState IncrementalBackendDriver WakeSelection

variable {B E : Type} {n : ℕ}

/-- Wait set that a report subscribes for the next poll. -/
def subscribed : PollDisposition → Option WaitSet
  | .pending waitFor | .budgetExhausted waitFor => some waitFor
  | .complete _ | .cancelled => none

/-- The backend answered a poll with the report of another operation. -/
def ForeignPoll (call : BackendCall) : Prop :=
  ∃ id reason report, call = .poll id reason (.ok report) ∧ report.operation ≠ id

/-- The latest report of the operation subscribed a set; since then the backend
answered at most with reports of other operations. -/
def Subscribes (calls : List BackendCall) (id : OperationId) (sources : WaitSet) : Prop :=
  ∃ before reason report after, calls = before ++ .poll id reason (.ok report) :: after ∧
    report.operation = id ∧ subscribed report.disposition = some sources ∧
    ∀ call ∈ after, ForeignPoll call

/-- A foreign poll leaves the latest subscription in force. -/
theorem Subscribes.concat {calls : List BackendCall} {id : OperationId} {sources : WaitSet}
    (h : Subscribes calls id sources) {call : BackendCall} (hc : ForeignPoll call) :
    Subscribes (calls ++ [call]) id sources := by
  obtain ⟨before, reason, report, after, rfl, hr, hs, hafter⟩ := h
  refine ⟨before, reason, report, after ++ [call], by simp, hr, hs, fun other hm => ?_⟩
  rcases List.mem_append.mp hm with hm | hm
  · exact hafter other hm
  · rw [List.mem_singleton.mp hm]
    exact hc

/-- A wait set is that of the latest report, up to the timer of a due deadline. -/
structure WaitsFor (driver : IncrementalBackendDriver (BackendRecorder B)) : Prop where
  /-- With nothing active there is nothing to wait for. -/
  inactive : driver.arbiter.active = none → driver.runner.waitFor = .empty
  /-- The active operation waits for what its backend subscribed. -/
  active : ∀ active, driver.arbiter.active = some active → ∀ reason : WakeReason, reason ≠ .timer →
    driver.runner.waitFor.contains (source reason) = true →
    ∃ sources, Subscribes (trace driver) active.operation sources ∧
      sources.contains (source reason) = true

/-- An empty wait set waits for nothing. -/
theorem waitsFor_of_empty {driver : IncrementalBackendDriver (BackendRecorder B)}
    (h : driver.runner.waitFor = .empty) : WaitsFor driver := by
  refine ⟨fun _ => h, fun _ _ reason _ hr => ?_⟩
  rw [h, contains_empty] at hr
  cases hr

/-- The wait set is read through the active operation and the trace. -/
theorem WaitsFor.congr {driver next : IncrementalBackendDriver (BackendRecorder B)}
    (h : WaitsFor driver)
    (ha : next.arbiter.active.map ActiveCommand.operation =
      driver.arbiter.active.map ActiveCommand.operation)
    (ht : trace next = trace driver) (hw : next.runner.waitFor = driver.runner.waitFor) :
    WaitsFor next := by
  constructor
  · intro hn
    rw [hn, Option.map_none] at ha
    rw [hw]
    exact h.inactive (Option.map_eq_none_iff.mp ha.symm)
  · intro active hn reason hr hc
    rw [hn, Option.map_some] at ha
    obtain ⟨old, hold, hsame⟩ := Option.map_eq_some_iff.mp ha.symm
    rw [hw] at hc
    rw [ht, ← hsame]
    exact h.active old hold reason hr hc

variable [IncrementalWifiBackend B]

section Drive

variable {driver : IncrementalBackendDriver (BackendRecorder B)} {scan : Vector ScanResult n}
  {ready : WaitSet}
  {result : EStateM.Result IncrementalDriverError (DriverFrame (BackendRecorder B) n)
    IncrementalDriverEvent}

/-- A due deadline subscribes the timer and nothing else. -/
theorem timed_contains (driver : IncrementalBackendDriver (BackendRecorder B))
    (operation : OperationId) (ready : WaitSet) {reason : WakeReason} (hr : reason ≠ .timer) :
    (timed driver operation ready).waitFor.contains (source reason) =
      driver.runner.waitFor.contains (source reason) := by
  have htimer : WaitSet.timer.contains (source reason) = false := by
    cases reason <;> first | rfl | exact (hr rfl).elim
  unfold timed
  split
  · show (driver.runner.waitFor.union .timer).contains (source reason) = _
    rw [contains_union, htimer, Bool.or_false]
  · rfl

/-- Selecting a step keeps the wait set that a poll selects from. -/
theorem selected_waitFor {operation : OperationId} {step : RunnerStep}
    {runner : IncrementalRunnerState}
    (hs : (timed driver operation ready).selectStep ready = (step, runner)) :
    runner.waitFor = (timed driver operation ready).waitFor := by
  have hf := (selectStep_frame ready (timed driver operation ready)).2
  rw [hs] at hf
  exact hf

/-- A drive keeps the wait set what the backend subscribed. -/
theorem drive_waitsFor (hw : WaitsFor driver) (h : DriveOutcome driver scan ready result) :
    WaitsFor (after result).driver := by
  cases h with
  | idle ha hp => exact hw
  | started held backend ha hp hb => exact waitsFor_of_empty rfl
  | startFailed held backend error ha hp hb => exact waitsFor_of_empty rfl
  | cancelDelivered active backend ha hd hb => exact waitsFor_of_empty rfl
  | cancelFailed active backend error ha hd hb => exact waitsFor_of_empty rfl
  | pollFailed active reason runner error backend output ha hd hs hb =>
    exact waitsFor_of_empty rfl
  | ended active reason runner report backend output event ha hd hs hb hr he =>
    exact waitsFor_of_empty rfl
  | waiting active waitFor runner ha hd hs =>
    refine ⟨fun hn => (Option.some_ne_none _ (ha.symm.trans hn)).elim, ?_⟩
    intro other hother reason hr hc
    rw [after_ok, polled, selected_waitFor hs, timed_contains driver _ _ hr] at hc
    exact hw.active other hother reason hr hc
  | commandReady active runner ha hd hs =>
    refine ⟨fun hn => (Option.some_ne_none _ (ha.symm.trans hn)).elim, ?_⟩
    intro other hother reason hr hc
    rw [after_error, polled, selected_waitFor hs, timed_contains driver _ _ hr] at hc
    exact hw.active other hother reason hr hc
  | staleReport active why runner report backend output ha hd hs hb hr =>
    refine ⟨fun hn => (Option.some_ne_none _ (ha.symm.trans hn)).elim, ?_⟩
    intro other hother reason hreason hc
    rw [after_error, polled, selected_waitFor hs, timed_contains driver _ _ hreason] at hc
    obtain ⟨sources, hsub, hin⟩ := hw.active other hother reason hreason hc
    refine ⟨sources, ?_, hin⟩
    rw [show trace _ = trace driver ++ [.poll active.operation why (.ok report)] from poll_calls hb]
    exact hsub.concat ⟨_, _, _, rfl, hr⟩
  | kept active why runner report backend output event waitFor ha hd hs hb hr he =>
    refine ⟨fun hn => (Option.some_ne_none _ (ha.symm.trans hn)).elim, ?_⟩
    intro other hother reason hreason hc
    have hsame : other = active := Option.some.inj (hother.symm.trans ha)
    subst hsame
    refine ⟨waitFor, ⟨trace driver, why, report, [], poll_calls hb, hr, ?_, by simp⟩, hc⟩
    revert he
    cases report.disposition <;> simp [keptEvent, subscribed]

/-- The active operation is due neither a cancellation nor an immediate poll, and the
selector picks the command source. -/
def SelectsCommand (driver : IncrementalBackendDriver (BackendRecorder B)) (ready : WaitSet) :
    Prop :=
  ∃ operation, driver.arbiter.action = .waitActive operation ∧
    driver.runner.waitFor.isEmpty = false ∧
    (driver.runner.selector.select (timed driver operation ready).waitFor ready).1 = some .command

/-- The command source is selected only when it is in the wait set. -/
theorem SelectsCommand.subscribed (h : SelectsCommand driver ready) :
    driver.runner.waitFor.contains .command = true := by
  obtain ⟨operation, -, -, hs⟩ := h
  have hc := (select_some hs).1
  rwa [timed_contains driver operation ready (by decide : WakeReason.command ≠ .timer)] at hc

omit [IncrementalWifiBackend B] in
/-- The action of an active command is its due cancellation, or to wait. -/
theorem action_of_active {active : ActiveCommand} (ha : driver.arbiter.active = some active) :
    driver.arbiter.action = if cancelDue driver active then .cancelActive active.operation
      else .waitActive active.operation := by
  simp only [CommandArbiter.action, ha]
  rfl

omit [IncrementalWifiBackend B] in
/-- Only an active command that is due no cancellation waits. -/
theorem active_of_waitActive (hc : Coherent driver) {operation : OperationId}
    (h : driver.arbiter.action = .waitActive operation) :
    ∃ active, driver.arbiter.active = some active ∧ active.operation = operation ∧
      cancelDue driver active = false := by
  cases ha : driver.arbiter.active with
  | none =>
    rw [CommandArbiter.action, ha, hc.notStarting] at h
    cases hp : driver.arbiter.pending <;> simp [hp] at h
  | some active =>
    rw [action_of_active ha] at h
    cases hd : cancelDue driver active with
    | true => simp [hd] at h
    | false =>
      rw [hd, if_neg (by decide)] at h
      exact ⟨active, rfl, CommandArbiterAction.waitActive.inj h, hd⟩

/-- The command source is selected exactly when the drive cannot take the selected step. -/
theorem selectsCommand_iff (hc : Coherent driver) :
    SelectsCommand driver ready ↔
      ∃ active runner, driver.arbiter.active = some active ∧ cancelDue driver active = false ∧
        (timed driver active.operation ready).selectStep ready =
          (.commandReady active.operation, runner) := by
  constructor
  · intro h
    obtain ⟨operation, hact, hne, hs⟩ := h
    obtain ⟨active, ha, rfl, hd⟩ := active_of_waitActive hc hact
    have hsub := (select_some hs).1
    have hstep := selectStep_of_subscribed (timed_current hc ha ready) ready
      (isEmpty_of_contains hsub)
    rw [timed_selector, hs] at hstep
    exact ⟨active, _, ha, hd, Prod.ext hstep rfl⟩
  · rintro ⟨active, runner, ha, hd, hs⟩
    refine ⟨active.operation, ?_, ?_, ?_⟩
    · rw [action_of_active ha, hd]
      rfl
    · cases hw : driver.runner.waitFor.isEmpty with
      | false => rfl
      | true =>
        obtain ⟨reason, hr⟩ := selectStep_of_empty hc ha (isEmpty_iff.mp hw) hs
        cases hr
    · have hne : (timed driver active.operation ready).waitFor.isEmpty = false := by
        rw [Bool.eq_false_iff]
        intro hempty
        have hstep := selectStep_of_unsubscribed (timed_current hc ha ready) ready hempty
        rw [hs] at hstep
        cases hstep
      have hstep := selectStep_of_subscribed (timed_current hc ha ready) ready hne
      rw [hs, timed_selector] at hstep
      exact selectedStep_command hstep.symm

/-- A drive that fails met a foreign report or a selected command source. -/
theorem error_cause (hc : Coherent driver) (h : DriveOutcome driver scan ready result)
    {error : IncrementalDriverError} (he : reply result = .error error) :
    (∃ call, trace (after result).driver = trace driver ++ [call] ∧ ForeignPoll call) ∨
      SelectsCommand driver ready := by
  cases h with
  | commandReady active runner ha hd hs =>
    exact Or.inr ((selectsCommand_iff hc).mpr ⟨active, runner, ha, hd, hs⟩)
  | staleReport active reason runner report backend output ha hd hs hb hr =>
    exact Or.inl ⟨_, poll_calls hb, _, _, _, rfl, hr⟩
  | _ => cases he

/-- A drive that polls and gets a report rejects a foreign one, and keeps or ends the
operation on its own. -/
theorem polled_report (h : DriveOutcome driver scan ready result) {id : OperationId}
    {why : WakeReason} {answer : WorkReport}
    (ht : trace (after result).driver = trace driver ++ [.poll id why (.ok answer)]) :
    ∃ active, driver.arbiter.active = some active ∧ active.operation = id ∧
      (answer.operation ≠ id ∧ (∃ error, reply result = .error error) ∨
        answer.operation = id ∧
          ((keptEvent active answer.madeProgress answer.disposition).isSome = true ∨
            ∃ event, endedEvent active answer.disposition = some event ∧
              reply result = .ok event ∧
              slots (after result).driver = ⟨none, (slots driver).pending⟩)) := by
  have hlast : ∀ {other : BackendCall}, trace (after result).driver = trace driver ++ [other] →
      other = .poll id why (.ok answer) :=
    fun ho => (List.cons.inj (List.append_cancel_left (ho.symm.trans ht))).1
  cases h with
  | idle ha hp => simp at ht
  | started held backend ha hp hb => cases hlast (start_calls hb)
  | startFailed held backend error ha hp hb => cases hlast (start_calls hb)
  | cancelDelivered active backend ha hd hb => cases hlast (cancel_calls hb)
  | cancelFailed active backend error ha hd hb => cases hlast (cancel_calls hb)
  | waiting active waitFor runner ha hd hs => simp [polled, trace] at ht
  | commandReady active runner ha hd hs => simp [polled, trace] at ht
  | pollFailed active reason runner error backend output ha hd hs hb => cases hlast (poll_calls hb)
  | staleReport active reason runner report backend output ha hd hs hb hr =>
    cases hlast (poll_calls hb)
    exact ⟨active, ha, rfl, Or.inl ⟨hr, _, rfl⟩⟩
  | kept active reason runner report backend output event waitFor ha hd hs hb hr he =>
    cases hlast (poll_calls hb)
    exact ⟨active, ha, rfl, Or.inr ⟨hr, Or.inl (Option.isSome_iff_exists.mpr ⟨_, he⟩)⟩⟩
  | ended active reason runner report backend output event ha hd hs hb hr he =>
    cases hlast (poll_calls hb)
    exact ⟨active, ha, rfl, Or.inr ⟨hr, Or.inr ⟨event, he, rfl, rfl⟩⟩⟩

/-- A foreign report fails the drive. -/
theorem error_of_foreign (h : DriveOutcome driver scan ready result) {call : BackendCall}
    (ht : trace (after result).driver = trace driver ++ [call]) (hf : ForeignPoll call) :
    ∃ error, reply result = .error error := by
  obtain ⟨id, why, answer, rfl, hforeign⟩ := hf
  obtain ⟨-, -, -, ⟨-, he⟩ | ⟨hown, -⟩⟩ := polled_report h ht
  · exact he
  · exact (hforeign hown).elim

/-- A selected command source fails the drive. -/
theorem error_of_selectsCommand (hc : Coherent driver) (h : DriveOutcome driver scan ready result)
    (hx : SelectsCommand driver ready) : ∃ error, reply result = .error error := by
  obtain ⟨selected, state, hactive, hnotDue, hselect⟩ := (selectsCommand_iff hc).mp hx
  have hsame : ∀ {active : ActiveCommand}, driver.arbiter.active = some active →
      active = selected := fun ha => Option.some.inj (ha.symm.trans hactive)
  cases h with
  | idle ha hp => cases ha.symm.trans hactive
  | started held backend ha hp hb => cases ha.symm.trans hactive
  | startFailed held backend error ha hp hb => cases ha.symm.trans hactive
  | cancelDelivered active backend ha hd hb =>
    cases hsame ha
    cases hd.symm.trans hnotDue
  | cancelFailed active backend error ha hd hb =>
    cases hsame ha
    cases hd.symm.trans hnotDue
  | waiting active waitFor runner ha hd hs =>
    cases hsame ha
    cases hs.symm.trans hselect
  | commandReady active runner ha hd hs => exact ⟨_, rfl⟩
  | pollFailed active reason runner error backend output ha hd hs hb =>
    cases hsame ha
    cases hs.symm.trans hselect
  | staleReport active reason runner report backend output ha hd hs hb hr => exact ⟨_, rfl⟩
  | kept active reason runner report backend output event waitFor ha hd hs hb hr he =>
    cases hsame ha
    cases hs.symm.trans hselect
  | ended active reason runner report backend output event ha hd hs hb hr he =>
    cases hsame ha
    cases hs.symm.trans hselect

/-- A drive that fails writes neither a slot nor the tracked operation. -/
theorem drive_error_frame (h : DriveOutcome driver scan ready result)
    {error : IncrementalDriverError} (he : reply result = .error error) :
    (after result).driver.arbiter = driver.arbiter ∧
      (after result).driver.runner.tracker = driver.runner.tracker := by
  cases h with
  | commandReady active runner ha hd hs => exact ⟨rfl, selected_tracker hs⟩
  | staleReport active reason runner report backend output ha hd hs hb hr =>
    exact ⟨rfl, selected_tracker hs⟩
  | _ => cases he

/-- A drive keeps the active operation until the event that ends its sequence. -/
theorem drive_live (h : DriveOutcome driver scan ready result) {sequence : CommandSequence}
    {operation : OperationId} (hl : driver.arbiter.activeOperation = some (sequence, operation)) :
    (after result).driver.arbiter.activeOperation = some (sequence, operation) ∨
      (DriverReply.driven (reply result)).terminal = some sequence := by
  have hnone : driver.arbiter.active ≠ none := by
    intro ha
    simp [CommandArbiter.activeOperation, ha] at hl
  have hsequence : ∀ active, driver.arbiter.active = some active →
      active.sequence = sequence := by
    intro active ha
    rw [CommandArbiter.activeOperation_of_active ha] at hl
    exact congrArg Prod.fst (Option.some.inj hl)
  cases h with
  | idle ha hp => exact (hnone ha).elim
  | started held backend ha hp hb => exact (hnone ha).elim
  | startFailed held backend error ha hp hb => exact (hnone ha).elim
  | cancelDelivered active backend ha hd hb =>
    rw [CommandArbiter.activeOperation_of_active ha] at hl
    exact Or.inl hl
  | cancelFailed active backend error ha hd hb =>
    exact Or.inr (congrArg some (hsequence active ha))
  | waiting active waitFor runner ha hd hs => exact Or.inl hl
  | commandReady active runner ha hd hs => exact Or.inl hl
  | pollFailed active reason runner error backend output ha hd hs hb =>
    exact Or.inr (congrArg some (hsequence active ha))
  | staleReport active reason runner report backend output ha hd hs hb hr => exact Or.inl hl
  | kept active reason runner report backend output event waitFor ha hd hs hb hr he =>
    exact Or.inl hl
  | ended active reason runner report backend output event ha hd hs hb hr he =>
    exact Or.inr ((endedEvent_terminal he).trans (congrArg some (hsequence active ha)))

/-- The final report of the active operation ends its sequence, and nothing else. -/
theorem report_ends (h : DriveOutcome driver scan ready result) {sequence : CommandSequence}
    {operation : OperationId} (hl : driver.arbiter.activeOperation = some (sequence, operation))
    {why : WakeReason} {answer : WorkReport}
    (ht : trace (after result).driver = trace driver ++ [.poll operation why (.ok answer)])
    (hown : answer.operation = operation) (hfinal : subscribed answer.disposition = none) :
    (DriverReply.driven (reply result)).terminal = some sequence ∧
      slots (after result).driver = ⟨none, (slots driver).pending⟩ := by
  obtain ⟨active, ha, -, ⟨hforeign, -⟩ | ⟨-, hkept | ⟨event, hevent, hreply, hslots⟩⟩⟩ :=
    polled_report h ht
  · exact (hforeign hown).elim
  · cases hx : answer.disposition <;> simp [hx, keptEvent, subscribed] at hkept hfinal
  · rw [CommandArbiter.activeOperation_of_active ha] at hl
    have hsame := (Prod.mk.inj (Option.some.inj hl)).1
    refine ⟨?_, hslots⟩
    rw [hreply, ← hsame]
    exact endedEvent_terminal hevent

end Drive

section Calls

variable {driver : IncrementalBackendDriver (BackendRecorder B)}

/-- Only a drive writes the active operation or the wait set. -/
theorem other_live (interrupt : E → B → B)
    (driver : IncrementalBackendDriver (BackendRecorder B)) {call : DriverCall E}
    (hcall : ∀ ready, ∀ {m : ℕ} (scan : Vector ScanResult m), call ≠ .driveOnce ready scan) :
    ((recordedMachine interrupt).next driver call).arbiter.activeOperation =
        driver.arbiter.activeOperation ∧
      ((recordedMachine interrupt).next driver call).runner = driver.runner := by
  cases call with
  | submit sequence request =>
    cases hp : driver.arbiter.pending with
    | none =>
      have hs := submit_of_free hp sequence request
      simp only [Machine.next, recordedMachine, driverMachine, hs]
      exact ⟨rfl, rfl⟩
    | some held =>
      have hs := submit_of_held hp sequence request
      simp only [Machine.next, recordedMachine, driverMachine, hs]
      exact ⟨rfl, rfl⟩
  | requestCancel sequence =>
    refine ⟨requestCancel_live sequence, ?_⟩
    simp only [Machine.next, recordedMachine, driverMachine, requestCancel_apply, after_ok]
  | driveOnce ready scan => exact (hcall ready scan rfl).elim
  | waitIntent => exact ⟨rfl, rfl⟩
  | backendEvent event => exact ⟨rfl, rfl⟩

/-- The operation of the active slot. -/
theorem operation_of_activeOperation {a b : CommandArbiter IncrementalRequest}
    (h : a.activeOperation = b.activeOperation) :
    a.active.map ActiveCommand.operation = b.active.map ActiveCommand.operation := by
  have hsnd := congrArg (Option.map Prod.snd) h
  simpa [CommandArbiter.activeOperation, Option.map_map, Function.comp_def] using hsnd

/-- Every call keeps the wait set what the backend subscribed. -/
theorem call_waitsFor (interrupt : E → B → B) (hc : Coherent driver) (hw : WaitsFor driver)
    (call : DriverCall E) : WaitsFor ((recordedMachine interrupt).next driver call) := by
  have hother : (∀ ready, ∀ {m : ℕ} (scan : Vector ScanResult m), call ≠ .driveOnce ready scan) →
      WaitsFor ((recordedMachine interrupt).next driver call) := by
    intro hcall
    obtain ⟨hlive, hrunner⟩ := other_live interrupt driver hcall
    exact hw.congr (operation_of_activeOperation hlive) (other_trace interrupt driver hcall)
      (congrArg IncrementalRunnerState.waitFor hrunner)
  cases call with
  | driveOnce ready scan => exact drive_waitsFor hw (driveOnce_outcome hc scan ready)
  | submit sequence request => exact hother (by simp)
  | requestCancel sequence => exact hother (by simp)
  | waitIntent => exact hw
  | backendEvent event => exact hother (by simp)

/-- Every call keeps the active operation until the event that ends its sequence. -/
theorem call_live (interrupt : E → B → B) (hc : Coherent driver) (call : DriverCall E)
    {sequence : CommandSequence} {operation : OperationId}
    (hl : driver.arbiter.activeOperation = some (sequence, operation)) :
    ((recordedMachine interrupt).next driver call).arbiter.activeOperation =
        some (sequence, operation) ∨
      ((recordedMachine interrupt).output driver call).terminal = some sequence := by
  have hother : (∀ ready, ∀ {m : ℕ} (scan : Vector ScanResult m), call ≠ .driveOnce ready scan) →
      ((recordedMachine interrupt).next driver call).arbiter.activeOperation =
        some (sequence, operation) :=
    fun hcall => (other_live interrupt driver hcall).1.trans hl
  cases call with
  | driveOnce ready scan => exact drive_live (driveOnce_outcome hc scan ready) hl
  | submit x request => exact Or.inl (hother (by simp))
  | requestCancel x => exact Or.inl (hother (by simp))
  | waitIntent => exact Or.inl hl
  | backendEvent event => exact Or.inl (hother (by simp))

omit [IncrementalWifiBackend B] in
/-- A held sequence is in one of the slots. -/
theorem mem_slots {s : Slots} {x : CommandSequence} :
    x ∈ s.toList ↔ s.active = some x ∨ s.pending = some x := by
  simp [Slots.toList, Option.mem_toList]

/-- Every call keeps a held sequence in a slot until the event that ends it. -/
theorem call_held (interrupt : E → B → B) (hc : Coherent driver) (call : DriverCall E)
    {x : CommandSequence} (hx : x ∈ (slots driver).toList) :
    x ∈ (slots ((recordedMachine interrupt).next driver call)).toList ∨
      ((recordedMachine interrupt).output driver call).terminal = some x := by
  obtain ⟨-, hm⟩ := call_move (recordedInterrupt interrupt) hc call
  by_cases hleaves : Leaves x (slots driver) (slots ((recordedMachine interrupt).next driver call))
  · exact Or.inr ((leaves_iff hm x).mpr hleaves)
  · refine Or.inl (mem_slots.mpr ?_)
    rcases mem_slots.mp hx with ha | hp
    · by_contra hn
      exact hleaves (Or.inr ⟨ha, fun h => hn (Or.inl h)⟩)
    · by_contra hn
      exact hleaves (Or.inl ⟨hp, fun h => hn (Or.inr h), fun h => hn (Or.inl h)⟩)

end Calls

/-- Sequences that later calls of a recorded driver ended. -/
def endedBy (interrupt : E → B → B) (driver : IncrementalBackendDriver (BackendRecorder B))
    (later : List (DriverCall E)) : List CommandSequence :=
  terminals ((recordedMachine interrupt).transcript driver later)

/-- Whenever a drive polls the operation and gets its own final report, the event ends the
sequence, and the pending slot stays as it is. -/
def EndsOnReport (interrupt : E → B → B) (driver : IncrementalBackendDriver (BackendRecorder B))
    (sequence : CommandSequence) (operation : OperationId) : Prop :=
  ∀ ready, ∀ {m : ℕ} (scan : Vector ScanResult m) (reason : WakeReason) (report : WorkReport),
    trace ((recordedMachine interrupt).next driver (.driveOnce ready scan)) =
      trace driver ++ [.poll operation reason (.ok report)] →
    report.operation = operation → subscribed report.disposition = none →
    ((recordedMachine interrupt).output driver (.driveOnce ready scan)).terminal = some sequence ∧
      slots ((recordedMachine interrupt).next driver (.driveOnce ready scan)) =
        ⟨none, (slots driver).pending⟩

/-- Whatever is called from a state on, nothing that a driver held is lost: its active
operation stays active, to be ended by its own report, and each held command stays in a
slot, until an event ends it. -/
structure KeepsCommands (interrupt : E → B → B)
    (driver next : IncrementalBackendDriver (BackendRecorder B)) (later : List (DriverCall E)) :
    Prop where
  /-- The active operation is ended only by the event of its sequence. -/
  live : ∀ sequence operation, driver.arbiter.activeOperation = some (sequence, operation) →
    sequence ∈ endedBy interrupt next later ∨
      (((recordedMachine interrupt).run next later).arbiter.activeOperation =
          some (sequence, operation) ∧
        EndsOnReport interrupt ((recordedMachine interrupt).run next later) sequence operation)
  /-- A held command leaves the slots only with an event. -/
  held : ∀ x ∈ (slots driver).toList, x ∈ endedBy interrupt next later ∨
    x ∈ (slots ((recordedMachine interrupt).run next later)).toList

section Runs

variable (interrupt : E → B → B) {driver : IncrementalBackendDriver (BackendRecorder B)}

/-- The later calls keep the active operation, ready to be ended, until they end it. -/
theorem later_live (hc : Coherent driver) {sequence : CommandSequence} {operation : OperationId}
    (hl : driver.arbiter.activeOperation = some (sequence, operation))
    (later : List (DriverCall E)) :
    sequence ∈ endedBy interrupt driver later ∨
      (((recordedMachine interrupt).run driver later).arbiter.activeOperation =
          some (sequence, operation) ∧
        EndsOnReport interrupt ((recordedMachine interrupt).run driver later) sequence
          operation) := by
  have hcoherent : Coherent ((recordedMachine interrupt).run driver later) :=
    run_invariant _ hc (fun _ call h => (call_move _ h call).1) later
  rcases run_until (recordedMachine interrupt) (I := Coherent)
    (P := fun driver => driver.arbiter.activeOperation = some (sequence, operation))
    (Q := fun answer => answer.terminal = some sequence)
    (fun _ call h => (call_move _ h call).1) (fun _ call h => call_live interrupt h call) hc hl
    later with hrun | ⟨entry, hm, hq⟩
  · refine Or.inr ⟨hrun, fun ready m scan reason report ht hown hfinal => ?_⟩
    exact report_ends (driveOnce_outcome hcoherent scan ready) hrun ht hown hfinal
  · exact Or.inl (List.mem_filterMap.mpr ⟨entry, hm, hq⟩)

/-- The later calls keep a held sequence in a slot until they end it. -/
theorem later_held (hc : Coherent driver) {x : CommandSequence} (hx : x ∈ (slots driver).toList)
    (later : List (DriverCall E)) :
    x ∈ endedBy interrupt driver later ∨
      x ∈ (slots ((recordedMachine interrupt).run driver later)).toList := by
  rcases run_until (recordedMachine interrupt) (I := Coherent)
    (P := fun driver => x ∈ (slots driver).toList) (Q := fun answer => answer.terminal = some x)
    (fun _ call h => (call_move _ h call).1) (fun _ call h => call_held interrupt h call) hc hx
    later with hrun | ⟨entry, hm, hq⟩
  · exact Or.inr hrun
  · exact Or.inl (List.mem_filterMap.mpr ⟨entry, hm, hq⟩)

/-- A state with the same slots loses nothing of the driver. -/
theorem keepsCommands_of_arbiter {next : IncrementalBackendDriver (BackendRecorder B)}
    (hc : Coherent next) (ha : next.arbiter = driver.arbiter) (later : List (DriverCall E)) :
    KeepsCommands interrupt driver next later := by
  have hslots : slots next = slots driver := by
    rw [slots, ha]
    rfl
  constructor
  · intro sequence operation hl
    rw [← ha] at hl
    exact later_live interrupt hc hl later
  · intro x hx
    rw [← hslots] at hx
    exact later_held interrupt hc hx later

variable (backend : B) (budget : WorkBudget)

/-- Over every run the wait set is what the backend subscribed. -/
theorem recordedRun_waitsFor (calls : List (DriverCall E)) :
    WaitsFor (recordedRun interrupt backend budget calls) := by
  refine (run_invariant (recordedMachine interrupt)
    (I := fun driver => Coherent driver ∧ WaitsFor driver)
    (s := .new (⟨backend, []⟩ : BackendRecorder B) budget)
    ⟨new_coherent _ budget, waitsFor_of_empty rfl⟩ ?_ calls).2
  exact fun driver call h => ⟨(call_move _ h.1 call).1, call_waitsFor interrupt h.1 h.2 call⟩

/-- A drive fails exactly when the backend reports about another operation, or the selector
picks the command source, which the backend itself subscribed. A failed drive writes neither
a slot nor the tracked operation, and no later call loses a command over it. -/
theorem drive_errors (calls : List (DriverCall E)) (ready : WaitSet) {m : ℕ}
    (scan : Vector ScanResult m) :
    ((∃ error, (recordedMachine interrupt).output (recordedRun interrupt backend budget calls)
        (.driveOnce ready scan) = .driven (.error error)) ↔
      (∃ call, trace (recordedRun interrupt backend budget (calls ++ [.driveOnce ready scan])) =
          trace (recordedRun interrupt backend budget calls) ++ [call] ∧ ForeignPoll call) ∨
        SelectsCommand (recordedRun interrupt backend budget calls) ready) ∧
    (SelectsCommand (recordedRun interrupt backend budget calls) ready →
      ∃ active sources, (recordedRun interrupt backend budget calls).arbiter.active = some active ∧
        Subscribes (trace (recordedRun interrupt backend budget calls)) active.operation sources ∧
        sources.contains .command = true) ∧
    ∀ error, (recordedMachine interrupt).output (recordedRun interrupt backend budget calls)
        (.driveOnce ready scan) = .driven (.error error) →
      (recordedRun interrupt backend budget (calls ++ [.driveOnce ready scan])).arbiter =
        (recordedRun interrupt backend budget calls).arbiter ∧
      (recordedRun interrupt backend budget (calls ++ [.driveOnce ready scan])).runner.tracker =
        (recordedRun interrupt backend budget calls).runner.tracker ∧
      ∀ later, KeepsCommands interrupt (recordedRun interrupt backend budget calls)
        (recordedRun interrupt backend budget (calls ++ [.driveOnce ready scan])) later := by
  have hc := recordedRun_coherent interrupt backend budget calls
  have hnext := recordedRun_concat interrupt backend budget calls (.driveOnce ready scan)
  have hcnext := recordedRun_coherent interrupt backend budget (calls ++ [.driveOnce ready scan])
  have hdrive := driveOnce_outcome hc scan ready
  rw [hnext] at hcnext ⊢
  refine ⟨⟨?_, ?_⟩, ?_, ?_⟩
  · rintro ⟨error, he⟩
    exact error_cause hc hdrive (DriverReply.driven.inj he)
  · rintro (⟨call, ht, hf⟩ | hx)
    · obtain ⟨error, he⟩ := error_of_foreign hdrive ht hf
      exact ⟨error, congrArg DriverReply.driven he⟩
    · obtain ⟨error, he⟩ := error_of_selectsCommand hc hdrive hx
      exact ⟨error, congrArg DriverReply.driven he⟩
  · intro hx
    obtain ⟨active, -, ha, -⟩ := (selectsCommand_iff hc).mp hx
    obtain ⟨sources, hsub, hin⟩ := (recordedRun_waitsFor interrupt backend budget calls).active
      active ha .command (by decide) hx.subscribed
    exact ⟨active, sources, ha, hsub, hin⟩
  · intro error he
    obtain ⟨harbiter, htracker⟩ := drive_error_frame hdrive (DriverReply.driven.inj he)
    exact ⟨harbiter, htracker, keepsCommands_of_arbiter interrupt hcnext harbiter⟩

end Runs

end HisiRfCore.DriverErrors
