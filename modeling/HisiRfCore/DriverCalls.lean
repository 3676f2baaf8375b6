import HisiRfCore.InputOutputMachine
import HisiRfCore.DriverCoherence

/-!
# Runs of the incremental driver

Every finite sequence of driver calls, with arbitrary scan buffers and ready
sets, over any backend. Interrupts and time may also change the backend's own
state between two calls. Each call moves the two command slots by one of five
moves, which is all that the ownership results use.
-/

namespace HisiRfCore.DriverCalls

open StateBorrow WifiTypes IncrementalContract CommandArbitration RunnerState BackendDriver
open DriverCoherence InputOutputMachine IncrementalRunnerState IncrementalBackendDriver

/-- One call of the driver, or an outside event that changes its backend. -/
inductive DriverCall (E : Type)
  | submit (sequence : CommandSequence) (request : IncrementalRequest)
  | requestCancel (sequence : CommandSequence)
  | driveOnce (ready : WaitSet) {n : ℕ} (scanOutput : Vector ScanResult n)
  | waitIntent
  | backendEvent (event : E)

/-- Value returned by a driver call. -/
inductive DriverReply
  | submitted (result : Except (SubmitError IncrementalRequest) Unit)
  | cancelReply (result : Except IncrementalDriverError (Option IncrementalDriverEvent))
  | driven (result : Except IncrementalDriverError IncrementalDriverEvent)
  | intent (intent : IncrementalWaitIntent)
  | external

/-- Event carried by a reply. -/
def DriverReply.event : DriverReply → Option IncrementalDriverEvent
  | .cancelReply (.ok event) => event
  | .driven (.ok event) => some event
  | _ => none

theorem cancelReply_event {result : Except IncrementalDriverError (Option IncrementalDriverEvent)}
    {event : IncrementalDriverEvent} :
    (DriverReply.cancelReply result).event = some event ↔ result = .ok (some event) := by
  cases result <;> simp [DriverReply.event]

theorem driven_event {result : Except IncrementalDriverError IncrementalDriverEvent}
    {event : IncrementalDriverEvent} :
    (DriverReply.driven result).event = some event ↔ result = .ok event := by
  cases result <;> simp [DriverReply.event]

/-- Sequence whose terminal event the reply carries. -/
def DriverReply.terminal (reply : DriverReply) : Option CommandSequence :=
  reply.event.bind IncrementalDriverEvent.terminal

/-- Sequence whose start event the reply carries. -/
def DriverReply.starts (reply : DriverReply) : Option CommandSequence :=
  reply.event.bind IncrementalDriverEvent.starts

/-- Sequence accepted by a submission. -/
def acceptedBy {E : Type} : DriverCall E × DriverReply → Option CommandSequence
  | (.submit sequence _, .submitted (.ok ())) => some sequence
  | _ => none

/-- A backend that replays scripted answers, and reports no deadline. An
exhausted script accepts every start and cancellation and stays pending. -/
structure ReplayBackend where
  /-- Answers of the next starts. -/
  starts : List (Except BackendError Unit)
  /-- Answers of the next polls, reported for the polled operation. -/
  polls : List (Except BackendError PollDisposition)
  /-- Answers of the next cancellations. -/
  cancels : List (Except BackendError Unit)

instance : IncrementalWifiBackend ReplayBackend where
  start backend _ _ := (backend.starts.headD (.ok ()), {backend with starts := backend.starts.tail})
  poll backend id _ _ scanOutput :=
    ((backend.polls.headD (.ok (.pending .backend))).map fun disposition =>
        ⟨id, 0, 0, false, true, disposition⟩,
      {backend with polls := backend.polls.tail}, scanOutput)
  cancel backend _ := (backend.cancels.headD (.ok ()), {backend with cancels := backend.cancels.tail})
  nextDeadlineUs _ _ := none

variable {B E : Type} [IncrementalWifiBackend B]

/-- The driver as a machine over its calls, over any effect of outside events. -/
def driverMachine (interrupt : E → B → B) :
    Machine (IncrementalBackendDriver B) (DriverCall E) DriverReply where
  step driver
    | .submit sequence request =>
      let result := submit sequence request driver
      (after result, .submitted (reply result))
    | .requestCancel sequence =>
      let result := IncrementalBackendDriver.requestCancel sequence driver
      (after result, .cancelReply (reply result))
    | .driveOnce ready scanOutput =>
      let result := driveOnce ready ⟨driver, scanOutput⟩
      ((after result).driver, .driven (reply result))
    | .waitIntent => (driver, .intent driver.waitIntent)
    | .backendEvent event =>
      ({driver with backend := interrupt event driver.backend}, .external)

/-- Driver after the calls, from an idle driver. -/
def driverRun (interrupt : E → B → B) (backend : B) (budget : WorkBudget)
    (calls : List (DriverCall E)) : IncrementalBackendDriver B :=
  (driverMachine interrupt).run (.new backend budget) calls

/-- Transcript of the same run. -/
def driverTranscript (interrupt : E → B → B) (backend : B) (budget : WorkBudget)
    (calls : List (DriverCall E)) : List (DriverCall E × DriverReply) :=
  (driverMachine interrupt).transcript (.new backend budget) calls

/-- Sequences accepted in a transcript, in submission order. -/
def accepted (h : List (DriverCall E × DriverReply)) : List CommandSequence :=
  h.filterMap acceptedBy

/-- Sequences named by the terminal events of a transcript, in order. -/
def terminals (h : List (DriverCall E × DriverReply)) : List CommandSequence :=
  h.filterMap fun x => x.2.terminal

/-- Sequences named by the start events of a transcript, in order. -/
def starts (h : List (DriverCall E × DriverReply)) : List CommandSequence :=
  h.filterMap fun x => x.2.starts

/-- Sequences in the active and in the pending slot. -/
structure Slots where
  /-- Sequence owning the backend operation. -/
  active : Option CommandSequence
  /-- Sequence of the retained replacement. -/
  pending : Option CommandSequence

/-- The slots of a driver. -/
def slots {B : Type} (driver : IncrementalBackendDriver B) : Slots :=
  ⟨driver.arbiter.activeSequence, driver.arbiter.pendingSequence⟩

/-- Sequences held in the slots, oldest first. -/
def Slots.toList (s : Slots) : List CommandSequence := s.active.toList ++ s.pending.toList

/-- A sequence leaves the pending slot without becoming active, or leaves the active slot. -/
def Leaves (sequence : CommandSequence) (before after : Slots) : Prop :=
  (before.pending = some sequence ∧ after.pending ≠ some sequence ∧
      after.active ≠ some sequence) ∨
    (before.active = some sequence ∧ after.active ≠ some sequence)

/-- The five moves of the slots, with the accepted sequence and the event of the call. -/
inductive SlotMove : Slots → Option CommandSequence → Option IncrementalDriverEvent → Slots → Prop
  | stay (s : Slots) (event : Option IncrementalDriverEvent)
      (ht : event.bind IncrementalDriverEvent.terminal = none)
      (hs : event.bind IncrementalDriverEvent.starts = none)
      (hn : ∀ x, event.bind IncrementalDriverEvent.names = some x → s.active = some x) :
      SlotMove s none event s
  | accept (active : Option CommandSequence) (x : CommandSequence) :
      SlotMove ⟨active, none⟩ (some x) none ⟨active, some x⟩
  | start (x : CommandSequence) (operation : OperationId) :
      SlotMove ⟨none, some x⟩ none (some (.started x operation)) ⟨some x, none⟩
  | leavePending (active : Option CommandSequence) (x : CommandSequence)
      (event : IncrementalDriverEvent) (ht : event.terminal = some x) (ha : active ≠ some x) :
      SlotMove ⟨active, some x⟩ none (some event) ⟨active, none⟩
  | leaveActive (pending : Option CommandSequence) (x : CommandSequence)
      (event : IncrementalDriverEvent) (ht : event.terminal = some x) :
      SlotMove ⟨some x, pending⟩ none (some event) ⟨none, pending⟩

/-- A terminal event names its sequence and is not a start event. -/
theorem terminal_names {event : IncrementalDriverEvent} {x : CommandSequence}
    (h : event.terminal = some x) : event.names = some x ∧ event.starts = none := by
  cases event <;> simp_all [IncrementalDriverEvent.terminal, IncrementalDriverEvent.names,
    IncrementalDriverEvent.starts]

/-- Only terminal moves make a sequence leave, and only the sequence they name. -/
theorem leaves_iff {before after : Slots} {a : Option CommandSequence}
    {event : Option IncrementalDriverEvent} (h : SlotMove before a event after)
    (x : CommandSequence) :
    event.bind IncrementalDriverEvent.terminal = some x ↔ Leaves x before after := by
  cases h with
  | stay s event ht hs hn =>
    simp only [ht, Leaves, reduceCtorEq, false_iff, not_or, not_and, not_not]
    exact ⟨fun hp hn => (hn hp).elim, id⟩
  | accept active y => simp [Leaves]
  | start y operation => simp [Leaves, IncrementalDriverEvent.terminal]
  | leavePending active y event ht ha =>
    simp only [Option.bind_some, ht, Option.some.injEq, Leaves, ne_eq, reduceCtorEq,
      not_false_eq_true, true_and, and_not_self, or_false]
    constructor
    · rintro rfl
      exact ⟨rfl, ha⟩
    · exact fun h => h.1
  | leaveActive pending y event ht =>
    simp [ht, Leaves]

/-- A report that keeps the operation is neither terminal nor a start. -/
theorem keptEvent_names {active : ActiveCommand} {madeProgress : Bool}
    {disposition : PollDisposition} {event : IncrementalDriverEvent} {waitFor : WaitSet}
    (h : keptEvent active madeProgress disposition = some (event, waitFor)) :
    event.terminal = none ∧ event.starts = none ∧ event.names = some active.sequence := by
  cases disposition <;> simp only [keptEvent, Option.some.injEq, Prod.mk.injEq, reduceCtorEq] at h
  all_goals
    obtain ⟨rfl, rfl⟩ := h
    exact ⟨rfl, rfl, rfl⟩

/-- A report that ends the operation has a terminal event for the active sequence. -/
theorem endedEvent_terminal {active : ActiveCommand} {disposition : PollDisposition}
    {event : IncrementalDriverEvent} (h : endedEvent active disposition = some event) :
    event.terminal = some active.sequence := by
  cases disposition <;> simp only [endedEvent, Option.some.injEq, reduceCtorEq] at h
  · subst h
    cases active.cancelRequested <;> rfl
  · subst h
    rfl

section Moves

variable {driver : IncrementalBackendDriver B}

omit [IncrementalWifiBackend B] in
theorem slots_of_active {active : ActiveCommand} (ha : driver.arbiter.active = some active) :
    slots driver = ⟨some active.sequence, driver.arbiter.pendingSequence⟩ := by
  simp [slots, CommandArbiter.activeSequence, ha]

omit [IncrementalWifiBackend B] in
theorem slots_of_pending {held : PendingCommand IncrementalRequest}
    (ha : driver.arbiter.active = none) (hp : driver.arbiter.pending = some held) :
    slots driver = ⟨none, some held.sequence⟩ := by
  simp [slots, CommandArbiter.activeSequence, CommandArbiter.pendingSequence, ha, hp]

/-- Each drive is one slot move and keeps the driver coherent. -/
theorem drive_move {n : ℕ} {scan : Vector ScanResult n} {ready : WaitSet}
    {result : EStateM.Result IncrementalDriverError (DriverFrame B n) IncrementalDriverEvent}
    (hc : Coherent driver) (h : DriveOutcome driver scan ready result) :
    Coherent (after result).driver ∧
      SlotMove (slots driver) none (DriverReply.driven (reply result)).event
        (slots (after result).driver) := by
  cases h with
  | idle ha hp =>
    exact ⟨hc, .stay _ _ rfl rfl (by simp [DriverReply.event, IncrementalDriverEvent.names])⟩
  | started held backend ha hp hb =>
    rw [slots_of_pending ha hp]
    exact ⟨⟨rfl, rfl⟩, .start held.sequence (freshId driver)⟩
  | startFailed held backend error ha hp hb =>
    rw [slots_of_pending ha hp]
    exact ⟨⟨rfl, rfl⟩, .leavePending none held.sequence _ rfl (by simp)⟩
  | cancelDelivered active backend ha hd hb =>
    refine ⟨⟨hc.notStarting, rfl⟩, ?_⟩
    have hs : slots (notified driver active backend) = slots driver := by
      rw [slots_of_active ha]
      rfl
    simp only [after_ok, hs]
    refine .stay _ _ rfl rfl fun x hx => ?_
    rw [slots_of_active ha]
    exact hx
  | cancelFailed active backend error ha hd hb =>
    rw [slots_of_active ha]
    exact ⟨⟨hc.notStarting, rfl⟩, .leaveActive _ active.sequence _ rfl⟩
  | waiting active waitFor runner ha hd hs =>
    refine ⟨⟨hc.notStarting, ?_⟩, .stay _ _ rfl rfl fun x hx => ?_⟩
    · simp only [after_ok, polled, selected_tracker hs]
      exact hc.tracked
    · rw [slots_of_active ha]
      exact hx
  | commandReady active runner ha hd hs =>
    refine ⟨⟨hc.notStarting, ?_⟩, .stay _ _ rfl rfl fun x hx => ?_⟩
    · simp only [after_error, polled, selected_tracker hs]
      exact hc.tracked
    · cases hx
  | pollFailed active reason runner error backend output ha hd hs hb =>
    rw [slots_of_active ha]
    exact ⟨⟨hc.notStarting, rfl⟩, .leaveActive _ active.sequence _ rfl⟩
  | staleReport active reason runner report backend output ha hd hs hb hr =>
    refine ⟨⟨hc.notStarting, ?_⟩, .stay _ _ rfl rfl fun x hx => ?_⟩
    · simp only [after_error, polled, selected_tracker hs]
      exact hc.tracked
    · cases hx
  | kept active reason runner report backend output event waitFor ha hd hs hb hr he =>
    obtain ⟨ht, hst, hn⟩ := keptEvent_names he
    refine ⟨⟨hc.notStarting, ?_⟩, .stay _ _ ht hst fun x hx => ?_⟩
    · simp [polled, ha]
    · rw [slots_of_active ha]
      exact hn.symm.trans hx
  | ended active reason runner report backend output event ha hd hs hb hr he =>
    rw [slots_of_active ha]
    exact ⟨⟨hc.notStarting, rfl⟩, .leaveActive _ active.sequence _ (endedEvent_terminal he)⟩

omit [IncrementalWifiBackend B] in
/-- A submission fills the free pending slot and touches nothing else. -/
theorem submit_of_free (hp : driver.arbiter.pending = none) (sequence : CommandSequence)
    (request : IncrementalRequest) :
    submit sequence request driver =
      .ok () {driver with arbiter := {driver.arbiter with pending := some ⟨sequence, request⟩}} :=
  call_ok (CommandArbiter.submit_of_none hp _)

omit [IncrementalWifiBackend B] in
/-- A submission to the held slot is handed back. -/
theorem submit_of_held {held : PendingCommand IncrementalRequest}
    (hp : driver.arbiter.pending = some held) (sequence : CommandSequence)
    (request : IncrementalRequest) :
    submit sequence request driver = .error ⟨.busy, ⟨sequence, request⟩⟩ driver :=
  call_error (CommandArbiter.submit_of_some hp _)

omit [IncrementalWifiBackend B] in
/-- Reply and next state of a cancellation request, by its effect on the arbiter. -/
theorem requestCancel_apply (sequence : CommandSequence) :
    IncrementalBackendDriver.requestCancel sequence driver =
      .ok (match (CommandArbiter.requestCancel sequence driver.arbiter).1 with
          | .removePending => some (.cancelled sequence false)
          | .requestActive | .alreadyRequested | .notFound => none)
        {driver with arbiter := (CommandArbiter.requestCancel sequence driver.arbiter).2} := by
  unfold IncrementalBackendDriver.requestCancel
  rw [bind_apply]
  simp only [Field.update, arbiterField]
  cases (CommandArbiter.requestCancel sequence driver.arbiter).1 <;> rfl

omit [IncrementalWifiBackend B] in
/-- A cancellation request writes a flag or the pending slot. -/
theorem requestCancel_live (sequence : CommandSequence) :
    (after (IncrementalBackendDriver.requestCancel sequence driver)).arbiter.activeOperation =
      driver.arbiter.activeOperation := by
  rw [requestCancel_apply, after_ok]
  have he := CommandArbiter.requestCancel_effect sequence driver.arbiter
  generalize CommandArbiter.requestCancel sequence driver.arbiter = effect at he
  cases he with
  | requestActive active ha hs hr hi =>
    simp only [CommandArbiter.activeOperation, ha]
    rfl
  | alreadyRequested active ha hs hr => rfl
  | removePending hs hp => rfl
  | notFound hs hp => rfl

omit [IncrementalWifiBackend B] in
/-- A cancellation request is one slot move and keeps the driver coherent. -/
theorem cancel_move (hc : Coherent driver) (sequence : CommandSequence) :
    Coherent (after (IncrementalBackendDriver.requestCancel sequence driver)) ∧
      SlotMove (slots driver) none
        (DriverReply.cancelReply
          (reply (IncrementalBackendDriver.requestCancel sequence driver))).event
        (slots (after (IncrementalBackendDriver.requestCancel sequence driver))) := by
  rw [requestCancel_apply]
  have he := CommandArbiter.requestCancel_effect sequence driver.arbiter
  generalize CommandArbiter.requestCancel sequence driver.arbiter = effect at he
  cases he with
  | requestActive active ha hs hr hi =>
    refine ⟨⟨hc.notStarting, ?_⟩, ?_⟩
    · simp only [after_ok, Option.map_some]
      rw [hc.tracked, ha]
      rfl
    · have hslots : slots (after (.ok (none : Option IncrementalDriverEvent)
          {driver with
            arbiter := {driver.arbiter with active := some {active with cancelIntent := true}}} :
            EStateM.Result IncrementalDriverError _ _)) = slots driver := by
        rw [slots_of_active ha]
        rfl
      simp only [hslots]
      exact .stay _ _ rfl rfl (by simp [DriverReply.event])
  | alreadyRequested active ha hs hr =>
    exact ⟨hc, .stay _ _ rfl rfl (by simp [DriverReply.event])⟩
  | removePending hs hp =>
    refine ⟨⟨hc.notStarting, hc.tracked⟩, ?_⟩
    have hslots : slots driver = ⟨driver.arbiter.activeSequence, some sequence⟩ := by
      rw [slots, hp]
    rw [hslots]
    exact .leavePending _ sequence (.cancelled sequence false) rfl hs
  | notFound hs hp =>
    exact ⟨hc, .stay _ _ rfl rfl (by simp [DriverReply.event])⟩

/-- Every call of a coherent driver is one slot move and keeps it coherent. -/
theorem call_move (interrupt : E → B → B) (hc : Coherent driver) (call : DriverCall E) :
    Coherent ((driverMachine interrupt).next driver call) ∧
      SlotMove (slots driver) (acceptedBy (call, (driverMachine interrupt).output driver call))
        ((driverMachine interrupt).output driver call).event
        (slots ((driverMachine interrupt).next driver call)) := by
  cases call with
  | submit sequence request =>
    cases hp : driver.arbiter.pending with
    | none =>
      have hs := submit_of_free hp sequence request
      have hslots : slots driver = ⟨driver.arbiter.activeSequence, none⟩ := by
        simp [slots, CommandArbiter.pendingSequence, hp]
      simp only [Machine.next, Machine.output, driverMachine, hs, hslots]
      exact ⟨⟨hc.notStarting, hc.tracked⟩, .accept _ _⟩
    | some held =>
      have hs := submit_of_held hp sequence request
      simp only [Machine.next, Machine.output, driverMachine, hs]
      exact ⟨hc, .stay _ _ rfl rfl (by simp [DriverReply.event])⟩
  | requestCancel sequence => exact cancel_move hc sequence
  | driveOnce ready scanOutput => exact drive_move hc (driveOnce_outcome hc scanOutput ready)
  | waitIntent => exact ⟨hc, .stay _ _ rfl rfl (by simp [Machine.output, driverMachine, DriverReply.event])⟩
  | backendEvent event =>
    exact ⟨⟨hc.notStarting, hc.tracked⟩,
      .stay _ _ rfl rfl (by simp [Machine.output, driverMachine, DriverReply.event])⟩

end Moves

/-- The driver stays coherent over every run of calls. -/
theorem run_coherent (interrupt : E → B → B) (backend : B) (budget : WorkBudget)
    (calls : List (DriverCall E)) : Coherent (driverRun interrupt backend budget calls) :=
  run_invariant (driverMachine interrupt) (new_coherent backend budget)
    (fun _ i h => (call_move interrupt h i).1) calls

/-- The first two controller sequences. -/
def firstSequence : CommandSequence := ⟨⟨1, by decide⟩⟩

@[inherit_doc firstSequence]
def secondSequence : CommandSequence := ⟨⟨2, by decide⟩⟩

/-- A scan with the shortest timeout. -/
def shortScan : ScanConfig := ⟨⟨1, by decide⟩⟩

/-- The smallest budget of one poll. -/
def smallestBudget : WorkBudget := ⟨1, 1, by decide⟩

/-- Backend whose first operation completes at its first poll. -/
def completingBackend : ReplayBackend := ⟨[.ok ()], [.ok (.complete .disconnected)], [.ok ()]⟩

/-- One command runs to its end while a second, pending one is removed. -/
def removalCalls : List (DriverCall Unit) :=
  [.submit firstSequence (.scan shortScan), .driveOnce .empty #v[],
    .submit secondSequence (.scan shortScan), .requestCancel secondSequence,
    .driveOnce .empty #v[]]

end HisiRfCore.DriverCalls
