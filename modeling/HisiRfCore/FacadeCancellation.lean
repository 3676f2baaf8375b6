import HisiRfCore.BackendContract
import HisiRfCore.CancellationForwarding

/-!
# Whole calls cancel before they poll

When nothing falls inside a call, no cancellation is overtaken. A call may leave
cancellations behind, but then a pending command replaces the active one. So the
active command of a dropped future is cancelled before the backend is polled for
it again, and it never completes.
-/

namespace HisiRfCore.FacadeCancellation

open NonZeroCounter StateBorrow BoundedChannel WifiTypes RadioStorage AsyncControl ServiceProtocol
open ServiceDelivery IncrementalContract CommandArbitration BackendDriver DriverCoherence
open DriverCalls DriverCancellation IncrementalFacade IncrementalInterleaving
open IncrementalService CancellationForwarding BackendTrace BackendContract InputOutputMachine

variable {B E : Type} {eventCapacity : ℕ}

/-- Cancellations that a call leaves behind at one of its steps. -/
def slack : IncrementalPhase → Option ℕ
  | .sampling _ => some 1
  | .requesting _ _ | .driving _ => some 0
  | _ => none

/-- What a call keeps when nothing falls inside it. -/
structure Attended (s : IncrementalSystem B eventCapacity) : Prop where
  /-- The cancellations taken so far reached their commands. -/
  forwarded : Forwarded s
  /-- More cancellations are left behind only while a command is pending. -/
  pressed : ∀ k, slack s.phase = some k →
    s.frame.runner.driver.arbiter.pending.isSome = true ∨
      s.frame.shared.cancellations.queued.length ≤ k
  /-- A success is not that of a dropped command. -/
  completing : ∀ sequence completion, s.phase = .publishing (.completed sequence completion) →
    sequence.get ∉ s.plane.dropped

section Calls

variable {s : IncrementalSystem B eventCapacity} {t : Service eventCapacity}

/-- Between two calls only the forwarding matters. -/
theorem attended_idle (hp : s.phase = .idle) (h : Forwarded s) : Attended s := by
  refine ⟨h, ?_, ?_⟩
  · intro k hk
    rw [hp] at hk
    cases hk
  · intro sequence completion hx
    rw [hp] at hx
    cases hx

/-- Nothing is owed between two calls, so an empty command channel leaves at most one
cancellation queued. -/
theorem queued_le_one (hs : Simulates s t) (hd : Delivers t) (hp : s.phase = .idle)
    (hq : s.frame.shared.commands.queued = []) :
    s.frame.shared.cancellations.queued.length ≤ 1 := by
  have howing : t.owing = false := by
    by_contra hne
    rcases hs.debt (Bool.eq_true_of_not_eq_false hne) with ⟨command, ready, hx⟩ | ⟨ready, hx⟩
    · cases hp.symm.trans hx
    · cases hp.symm.trans hx
  have hc := hd.bounded.counted.capacity
  simp only [Service.view, SharedState.mailbox, howing, hs.shared, hq, List.length_nil,
    Bool.toNat_false] at hc
  omega

/-- The active command of a dropped future is marked when the backend is driven. -/
theorem Attended.marked (h : Attended s) (hs : Simulates s t) (hd : Delivers t) {ready : WaitSet}
    (hp : s.phase = .driving ready) {sequence : CommandSequence}
    (ha : s.frame.runner.driver.arbiter.activeSequence = some sequence)
    (hx : sequence.get ∈ s.plane.dropped) : Marked sequence s.frame.runner.driver := by
  rcases h.pressed 0 (by rw [hp]; rfl) with hpend | hlen
  · exact marked_of_pending (active_ne_pending hs hd ha) hpend
  · have hnil : s.frame.shared.cancellations.queued = [] :=
      List.eq_nil_of_length_eq_zero (Nat.le_zero.mp hlen)
    have hsent : t.shared.cancellations.sent = t.plane.dropped := hd.bounded.counted.delivered
    rw [hs.shared, hs.plane, Channel.sent, hnil, List.append_nil] at hsent
    rw [← hsent] at hx
    refine (h.forwarded.doomed sequence hx ?_).marked
    intro ready' hr
    cases hp.symm.trans hr

variable [IncrementalWifiBackend B]

/-- Only the active command completes. -/
theorem completed_active {n : ℕ} {driver : IncrementalBackendDriver B}
    {scan : Vector ScanResult n} {ready : WaitSet} {sequence : CommandSequence}
    {completion : IncrementalCompletion} {drive : DriverFrame B n}
    (h : DriveOutcome driver scan ready (.ok (.completed sequence completion) drive)) :
    driver.arbiter.activeSequence = some sequence := by
  cases h with
  | kept active reason runner report backend output event waitFor ha hd hs hb hr he =>
    have hn := (keptEvent_names he).1
    cases hn
  | ended active reason runner report backend output event ha hd hs hb hr he =>
    have ht := endedEvent_terminal he
    rw [CommandArbiter.activeSequence_of_active ha]
    exact ht.symm

omit [IncrementalWifiBackend B] in
/-- A forwarded cancellation leaves the pending slot in place. -/
theorem request_pending_kept {driver : IncrementalBackendDriver B} {sequence : CommandSequence}
    (hk : driver.arbiter.activeSequence = some sequence ∨
      driver.arbiter.pendingSequence ≠ some sequence) :
    (after (IncrementalBackendDriver.requestCancel sequence driver)).arbiter.pending =
      driver.arbiter.pending := by
  rw [requestCancel_apply, after_ok]
  have he := CommandArbiter.requestCancel_effect sequence driver.arbiter
  generalize CommandArbiter.requestCancel sequence driver.arbiter = effect at he
  cases he with
  | requestActive active ha hs hr hi => rfl
  | alreadyRequested active ha hs hr => rfl
  | removePending hs hp =>
    rcases hk with hk | hk
    · exact (hs hk).elim
    · exact (hk hp).elim
  | notFound hs hp => rfl

/-- Every step of a call keeps the call attended. -/
theorem attended_runner (ready : WaitSet) (hs : Simulates s t) (hd : Delivers t)
    (h : Attended s) : Attended (runnerStep ready s).1 := by
  have hf := forwarded_runner ready hs hd h.forwarded
  have he := runnerStep_effect ready hs hd.bounded
  generalize runnerStep ready s = next at hf he
  cases he with
  | received command rest ready frame hp hc hq ho hm =>
    exact ⟨hf, (fun _ hk => by cases hk), fun _ _ hx => by cases hx⟩
  | unreceived ready frame hp hn ho hm =>
    have hdriver : frame.runner.driver = s.frame.runner.driver := congrArg Owner.driver ho
    have hcancel : frame.shared.cancellations = s.frame.shared.cancellations :=
      congrArg Mailbox.cancellations hm
    refine ⟨hf, ?_, fun _ _ hx => by cases hx⟩
    intro k hk
    cases hk
    simp only [hdriver, hcancel]
    rcases hn with hempty | hfull
    · exact Or.inr (queued_le_one hs hd hp hempty)
    · refine Or.inl ?_
      simpa [IncrementalBackendDriver.canSubmit, CommandArbiter.canSubmit, Option.isSome_iff_ne_none]
        using hfull
  | submitted command ready sequence request frame hp hseq ho hm =>
    have hdriver : frame.runner.driver = submittedDriver sequence request s.frame.runner.driver :=
      congrArg Owner.driver ho
    refine ⟨hf, ?_, fun _ _ hx => by cases hx⟩
    intro k hk
    simp only [hdriver]
    exact Or.inl rfl
  | sampled x rest ready frame hp hq ho hm =>
    have hdriver : frame.runner.driver = s.frame.runner.driver := congrArg Owner.driver ho
    have hqueued : frame.shared.cancellations.queued = rest :=
      (congrArg (fun m => m.cancellations.queued) hm).trans (tryReceive_of_cons hq).2.2
    refine ⟨hf, ?_, fun _ _ hx => by cases hx⟩
    intro k hk
    cases hk
    simp only [hdriver, hqueued]
    rcases h.pressed 1 (by rw [hp]; rfl) with hpend | hlen
    · exact Or.inl hpend
    · rw [hq, List.length_cons] at hlen
      exact Or.inr (by omega)
  | unsampled ready hp hq =>
    refine ⟨hf, ?_, fun _ _ hx => by cases hx⟩
    intro k hk
    simp only [hq, List.length_nil]
    exact Or.inr (Nat.zero_le k)
  | requested sequence ready frame hp hk ho hm =>
    have hdriver : frame.runner.driver =
        after (IncrementalBackendDriver.requestCancel sequence s.frame.runner.driver) :=
      congrArg Owner.driver ho
    have hcancel : frame.shared.cancellations = s.frame.shared.cancellations :=
      congrArg Mailbox.cancellations hm
    refine ⟨hf, ?_, fun _ _ hx => by cases hx⟩
    intro k hk'
    cases hk'
    simp only [hdriver, hcancel, request_pending_kept hk]
    exact h.pressed 0 (by rw [hp]; rfl)
  | removed sequence kind ready frame hp ha hpend hk ho hm => exact attended_idle rfl hf
  | driven ready event drive frame hp hdrive ho hm =>
    refine ⟨hf, (fun _ hk => by cases hk), ?_⟩
    intro sequence completion hx hdropped
    cases hx
    have hmarked := h.marked hs hd hp (completed_active hdrive) hdropped
    rcases (drive_doomed hmarked hdrive).2 _ rfl rfl with ⟨suppressed, hc⟩ | ⟨error, hc⟩
    · cases hc
    · cases hc
  | failed ready error drive frame hp hdrive ho hm => exact attended_idle rfl hf
  | published event sequence kind frame hp ht hk ho hm => exact attended_idle rfl hf
  | unpublished event hp ht => exact attended_idle rfl hf

end Calls

section Drives

variable [IncrementalWifiBackend B] {n : ℕ}
  {driver : IncrementalBackendDriver (BackendRecorder B)} {scan : Vector ScanResult n}
  {ready : WaitSet}
  {result : EStateM.Result IncrementalDriverError (DriverFrame (BackendRecorder B) n)
    IncrementalDriverEvent}

/-- The operation was started, and is active for no other sequence. -/
def StartedFor (sequence : CommandSequence) (id : OperationId)
    (driver : IncrementalBackendDriver (BackendRecorder B)) : Prop :=
  id ∈ startIds (trace driver) ∧
    ∀ other, driver.arbiter.activeOperation = some (other, id) → other = sequence

/-- A drive keeps the active operation, ends it, or starts the pending command. -/
theorem drive_activeOperation (h : DriveOutcome driver scan ready result) :
    (after result).driver.arbiter.activeOperation = driver.arbiter.activeOperation ∨
    (after result).driver.arbiter.activeOperation = none ∨
    ∃ sequence request, reply result = .ok (.started sequence (freshId driver)) ∧
      (after result).driver.arbiter.activeOperation = some (sequence, freshId driver) ∧
      trace (after result).driver = trace driver ++ [.start (freshId driver) request (.ok ())] := by
  cases h with
  | idle ha hp => exact Or.inl rfl
  | started held backend ha hp hb =>
    exact Or.inr (Or.inr ⟨held.sequence, held.command, rfl, rfl, start_calls hb⟩)
  | startFailed held backend error ha hp hb => exact Or.inr (Or.inl rfl)
  | cancelDelivered active backend ha hd hb =>
    refine Or.inl ?_
    simp only [after_ok, CommandArbiter.activeOperation, ha]
    rfl
  | cancelFailed active backend error ha hd hb => exact Or.inr (Or.inl rfl)
  | waiting active waitFor runner ha hd hs => exact Or.inl rfl
  | commandReady active runner ha hd hs => exact Or.inl rfl
  | pollFailed active reason runner error backend output ha hd hs hb => exact Or.inr (Or.inl rfl)
  | staleReport active reason runner report backend output ha hd hs hb hr => exact Or.inl rfl
  | kept active reason runner report backend output event waitFor ha hd hs hb hr he =>
    exact Or.inl rfl
  | ended active reason runner report backend output event ha hd hs hb hr he =>
    exact Or.inr (Or.inl rfl)

/-- A drive polls only the active operation, and only with no cancellation due. -/
theorem drive_polls (h : DriveOutcome driver scan ready result) :
    ∃ new, trace (after result).driver = trace driver ++ new ∧
      ∀ id reason answer, .poll id reason answer ∈ new →
        ∃ active, driver.arbiter.active = some active ∧ active.operation = id ∧
          cancelDue driver active = false := by
  have hone : ∀ {call other : BackendCall}, other ∈ [call] → other = call :=
    fun hm => List.mem_singleton.mp hm
  cases h with
  | idle ha hp => exact ⟨[], (List.append_nil _).symm, fun _ _ _ hm => by cases hm⟩
  | started held backend ha hp hb =>
    exact ⟨_, start_calls hb, fun _ _ _ hm => by cases hone hm⟩
  | startFailed held backend error ha hp hb =>
    exact ⟨_, start_calls hb, fun _ _ _ hm => by cases hone hm⟩
  | cancelDelivered active backend ha hd hb =>
    exact ⟨_, cancel_calls hb, fun _ _ _ hm => by cases hone hm⟩
  | cancelFailed active backend error ha hd hb =>
    exact ⟨_, cancel_calls hb, fun _ _ _ hm => by cases hone hm⟩
  | waiting active waitFor runner ha hd hs =>
    exact ⟨[], (List.append_nil _).symm, fun _ _ _ hm => by cases hm⟩
  | commandReady active runner ha hd hs =>
    exact ⟨[], (List.append_nil _).symm, fun _ _ _ hm => by cases hm⟩
  | pollFailed active reason runner error backend output ha hd hs hb =>
    refine ⟨_, poll_calls hb, fun _ _ _ hm => ?_⟩
    cases hone hm
    exact ⟨active, ha, rfl, hd⟩
  | staleReport active reason runner report backend output ha hd hs hb hr =>
    refine ⟨_, poll_calls hb, fun _ _ _ hm => ?_⟩
    cases hone hm
    exact ⟨active, ha, rfl, hd⟩
  | kept active reason runner report backend output event waitFor ha hd hs hb hr he =>
    refine ⟨_, poll_calls hb, fun _ _ _ hm => ?_⟩
    cases hone hm
    exact ⟨active, ha, rfl, hd⟩
  | ended active reason runner report backend output event ha hd hs hb hr he =>
    refine ⟨_, poll_calls hb, fun _ _ _ hm => ?_⟩
    cases hone hm
    exact ⟨active, ha, rfl, hd⟩

/-- A start uses up the pending command. -/
theorem drive_counted (h : DriveOutcome driver scan ready result) :
    (startIds (trace (after result).driver)).length +
        (after result).driver.arbiter.pending.toList.length ≤
      (startIds (trace driver)).length + driver.arbiter.pending.toList.length := by
  have hstart : ∀ id request answer,
      trace (after result).driver = trace driver ++ [.start id request answer] →
      (startIds (trace (after result).driver)).length = (startIds (trace driver)).length + 1 := by
    intro id request answer he
    rw [he, startIds_concat, List.length_append]
    rfl
  have hother : ∀ call, startIds [call] = [] →
      trace (after result).driver = trace driver ++ [call] →
      (startIds (trace (after result).driver)).length = (startIds (trace driver)).length := by
    intro call hn he
    rw [he, startIds_concat, hn, List.append_nil]
  cases h with
  | idle ha hp => exact Nat.le_refl _
  | started held backend ha hp hb =>
    rw [hstart _ _ _ (start_calls hb), hp]
    exact Nat.le_refl _
  | startFailed held backend error ha hp hb =>
    rw [hstart _ _ _ (start_calls hb), hp]
    exact Nat.le_refl _
  | cancelDelivered active backend ha hd hb =>
    rw [hother _ rfl (cancel_calls hb)]
    exact Nat.le_refl _
  | cancelFailed active backend error ha hd hb =>
    rw [hother _ rfl (cancel_calls hb)]
    exact Nat.le_refl _
  | waiting active waitFor runner ha hd hs => exact Nat.le_refl _
  | commandReady active runner ha hd hs => exact Nat.le_refl _
  | pollFailed active reason runner error backend output ha hd hs hb =>
    rw [hother _ rfl (poll_calls hb)]
    exact Nat.le_refl _
  | staleReport active reason runner report backend output ha hd hs hb hr =>
    rw [hother _ rfl (poll_calls hb)]
    exact Nat.le_refl _
  | kept active reason runner report backend output event waitFor ha hd hs hb hr he =>
    rw [hother _ rfl (poll_calls hb)]
    exact Nat.le_refl _
  | ended active reason runner report backend output event ha hd hs hb hr he =>
    rw [hother _ rfl (poll_calls hb)]
    exact Nat.le_refl _

/-- A drive starts no identity twice, so a started operation keeps its sequence. -/
theorem drive_startedFor (ht : Traced driver) (h : DriveOutcome driver scan ready result)
    (hb : (startIds (trace (after result).driver)).length < 2 ^ 32 - 1)
    {sequence : CommandSequence} {id : OperationId} (hx : StartedFor sequence id driver) :
    StartedFor sequence id (after result).driver := by
  obtain ⟨hid, hown⟩ := hx
  obtain ⟨new, hnew, -⟩ := drive_polls h
  refine ⟨?_, fun other ho => ?_⟩
  · rw [hnew, startIds, List.filterMap_append]
    exact List.mem_append_left _ hid
  · rcases drive_activeOperation h with hsame | hnone | ⟨y, request, -, hstarted, htrace⟩
    · rw [hsame] at ho
      exact hown other ho
    · cases hnone.symm.trans ho
    · rw [hstarted] at ho
      cases ho
      rw [htrace, startIds_concat, List.length_append] at hb
      have hcount := ht.counted
      have hone : (startIds [BackendCall.start (freshId driver) request (.ok ())]).length = 1 := rfl
      exact (ht.fresh (by omega) rfl hid).elim

/-- A reported start is that of its sequence. -/
theorem drive_started {drive : DriverFrame (BackendRecorder B) n} {sequence : CommandSequence}
    {id : OperationId}
    (h : DriveOutcome driver scan ready (.ok (.started sequence id) drive)) :
    StartedFor sequence id drive.driver := by
  cases h with
  | started held backend ha hp hb =>
    refine ⟨?_, fun other ho => ?_⟩
    · rw [show trace _ = trace driver ++ [.start (freshId driver) held.command (.ok ())] from
        start_calls hb, startIds_concat]
      exact List.mem_append_right _ (List.mem_singleton.mpr rfl)
    · cases ho
      rfl
  | kept active reason runner report backend output event waitFor ha hd hs hb hr he =>
    cases hp : report.disposition <;> simp [keptEvent, hp] at he
  | ended active reason runner report backend output event ha hd hs hb hr he =>
    have ht := endedEvent_terminal he
    cases ht

end Drives

/-- Agreement of the recorded calls with the runner. -/
structure Observed (s : IncrementalSystem (BackendRecorder B) eventCapacity) : Prop where
  /-- The trace agrees with the driver. -/
  traced : Traced s.frame.runner.driver
  /-- Each start used up a received command. -/
  counted : (startIds (trace s.frame.runner.driver)).length +
      s.frame.runner.driver.arbiter.pending.toList.length + (entering s.phase).toList.length ≤
    s.frame.shared.commands.received.length
  /-- A reported start is that of its sequence. -/
  starting : ∀ sequence id, s.phase = .publishing (.started sequence id) →
    StartedFor sequence id s.frame.runner.driver

section Observed

variable {s : IncrementalSystem (BackendRecorder B) eventCapacity} {t : Service eventCapacity}

/-- With no report to publish the trace alone is kept. -/
theorem observed_of_driver {next : IncrementalSystem (BackendRecorder B) eventCapacity}
    (hp : ∀ event, next.phase ≠ .publishing event) (ht : Traced next.frame.runner.driver)
    (hc : (startIds (trace next.frame.runner.driver)).length +
        next.frame.runner.driver.arbiter.pending.toList.length +
        (entering next.phase).toList.length ≤ next.frame.shared.commands.received.length) :
    Observed next :=
  ⟨ht, hc, fun _ _ hx => (hp _ hx).elim⟩

/-- A step that touches neither the driver nor the commands leaves the observations as they
are. -/
theorem Observed.unmoved (h : Observed s)
    {next : IncrementalSystem (BackendRecorder B) eventCapacity}
    (hp : ∀ event, next.phase ≠ .publishing event)
    (hd : next.frame.runner.driver = s.frame.runner.driver)
    (hc : next.frame.shared.commands = s.frame.shared.commands)
    (he : entering next.phase = entering s.phase) : Observed next := by
  refine observed_of_driver hp ?_ ?_
  · rw [hd]
    exact h.traced
  · rw [hd, hc, he]
    exact h.counted

/-- A received command may be started once. -/
theorem Observed.received (h : Observed s) {command : Command} {rest : List Command}
    (ready : WaitSet) {frame : FacadeFrame (BackendRecorder B) eventCapacity}
    (hp : s.phase = .idle) (hq : s.frame.shared.commands.queued = command :: rest)
    (hdriver : frame.runner.driver = s.frame.runner.driver)
    (hcommands : frame.shared.commands = s.frame.shared.commands.tryReceive.2) :
    Observed {s with frame := frame, phase := .submitting command ready} := by
  have hreceived : frame.shared.commands.received =
      s.frame.shared.commands.received ++ [command] := by
    rw [hcommands]
    exact (tryReceive_of_cons hq).2.1
  have hcount := h.counted
  refine observed_of_driver (fun _ hx => by cases hx) ?_ ?_
  · rw [hdriver]
    exact h.traced
  · simp only [hp, entering, Option.toList_none, List.length_nil] at hcount
    simp only [hdriver, hreceived, entering, Option.toList_some, List.length_append,
      List.length_singleton]
    omega

/-- The entered command is the pending one. -/
theorem Observed.submitted (h : Observed s) {command : Command} {ready : WaitSet}
    {sequence : CommandSequence} {request : IncrementalRequest}
    {frame : FacadeFrame (BackendRecorder B) eventCapacity}
    (hp : s.phase = .submitting command ready)
    (hdriver : frame.runner.driver = submittedDriver sequence request s.frame.runner.driver)
    (hcommands : frame.shared.commands = s.frame.shared.commands) :
    Observed {s with frame := frame, phase := .sampling ready} := by
  have hcount := h.counted
  refine observed_of_driver (fun _ hx => by cases hx) ?_ ?_
  · rw [hdriver]
    exact h.traced
  · simp only [hp, entering, Option.toList_some, List.length_singleton] at hcount
    have htrace : trace frame.runner.driver = trace s.frame.runner.driver := by
      rw [hdriver]
      rfl
    have hone : frame.runner.driver.arbiter.pending.toList.length = 1 := by
      rw [hdriver]
      rfl
    simp only [htrace, hone, hcommands, entering, Option.toList_none, List.length_nil]
    omega

/-- A removed command is not started. -/
theorem Observed.removed (h : Observed s) {frame : FacadeFrame (BackendRecorder B) eventCapacity}
    (hdriver : frame.runner.driver = removedDriver s.frame.runner.driver)
    (hcommands : frame.shared.commands = s.frame.shared.commands) :
    Observed {s with frame := frame, phase := .idle} := by
  have hcount := h.counted
  have htrace : trace frame.runner.driver = trace s.frame.runner.driver := by
    rw [hdriver]
    rfl
  have hnone : frame.runner.driver.arbiter.pending = none := by
    rw [hdriver]
    rfl
  refine observed_of_driver (fun _ hx => by cases hx) ?_ ?_
  · rw [hdriver]
    exact h.traced
  · simp only [htrace, hnone, hcommands, entering, Option.toList_none, List.length_nil]
    omega

variable [IncrementalWifiBackend B]

/-- A forwarded cancellation makes no backend call. -/
theorem request_traced {driver : IncrementalBackendDriver (BackendRecorder B)}
    (ht : Traced driver) (sequence : CommandSequence) :
    Traced (after (IncrementalBackendDriver.requestCancel sequence driver)) ∧
      trace (after (IncrementalBackendDriver.requestCancel sequence driver)) = trace driver := by
  have hother : ∀ ready, ∀ {n : ℕ} (scan : Vector ScanResult n),
      (.requestCancel sequence : DriverCall Unit) ≠ .driveOnce ready scan := by simp
  exact ⟨other_traced (fun _ backend => backend) ht hother,
    other_trace (fun _ backend => backend) driver hother⟩

/-- A forwarded cancellation starts nothing. -/
theorem Observed.requested (h : Observed s) {sequence : CommandSequence} {ready : WaitSet}
    {frame : FacadeFrame (BackendRecorder B) eventCapacity}
    (hp : s.phase = .requesting sequence.get ready)
    (hk : s.frame.runner.driver.arbiter.activeSequence = some sequence ∨
      s.frame.runner.driver.arbiter.pendingSequence ≠ some sequence)
    (hdriver : frame.runner.driver =
      after (IncrementalBackendDriver.requestCancel sequence s.frame.runner.driver))
    (hcommands : frame.shared.commands = s.frame.shared.commands) :
    Observed {s with frame := frame, phase := .driving ready} := by
  have hcount := h.counted
  obtain ⟨htraced, htrace⟩ := request_traced h.traced sequence
  refine observed_of_driver (fun _ hx => by cases hx) ?_ ?_
  · rw [hdriver]
    exact htraced
  · simp only [hp] at hcount
    simp only [hdriver, hcommands, htrace, request_pending_kept hk]
    exact hcount

/-- Below the wrap a drive keeps the trace in agreement, and starts no more than was received. -/
theorem Observed.drive (h : Observed s) (hs : Simulates s t) (hd : Delivers t)
    (hb : s.plane.allocated < 2 ^ 32 - 1) {ready : WaitSet}
    {result : EStateM.Result IncrementalDriverError (DriverFrame (BackendRecorder B) maxScanResults)
      IncrementalDriverEvent} (hp : s.phase = .driving ready)
    (hdrive : DriveOutcome s.frame.runner.driver s.frame.shared.scanResults
      (ready.without .cancel) result) :
    Traced (after result).driver ∧
      (startIds (trace (after result).driver)).length +
        (after result).driver.arbiter.pending.toList.length ≤
          s.frame.shared.commands.received.length := by
  have hcount := h.counted
  have hcoherent : Coherent s.frame.runner.driver := by
    obtain ⟨held, -, hh⟩ := hs.inflight
    exact hh.coherent
  have hbound : s.frame.shared.commands.received.length < 2 ^ 32 - 1 := by
    have hl := hd.received_length
    rw [hs.shared, hs.plane] at hl
    omega
  have hless := drive_counted hdrive
  simp only [hp, entering, Option.toList_none, List.length_nil] at hcount
  exact ⟨drive_traced hcoherent h.traced hdrive (by omega), by omega⟩

/-- Below the wrap a call keeps the trace in agreement. -/
theorem observed_runner (ready : WaitSet) (hs : Simulates s t) (hd : Delivers t)
    (hb : s.plane.allocated < 2 ^ 32 - 1) (h : Observed s) :
    Observed (runnerStep ready s).1 := by
  have he := runnerStep_effect ready hs hd.bounded
  generalize runnerStep ready s = next at he
  cases he with
  | received command rest ready frame hp hc hq ho hm =>
    exact h.received ready hp hq (congrArg Owner.driver ho) (congrArg Mailbox.commands hm)
  | unreceived ready frame hp hn ho hm =>
    exact h.unmoved (fun _ hx => by cases hx) (congrArg Owner.driver ho)
      (congrArg Mailbox.commands hm) (by rw [hp]; rfl)
  | submitted command ready sequence request frame hp hseq ho hm =>
    exact h.submitted hp (congrArg Owner.driver ho) (congrArg Mailbox.commands hm)
  | sampled x rest ready frame hp hq ho hm =>
    exact h.unmoved (fun _ hx => by cases hx) (congrArg Owner.driver ho)
      (congrArg Mailbox.commands hm) (by rw [hp]; rfl)
  | unsampled ready hp hq =>
    exact h.unmoved (fun _ hx => by cases hx) rfl rfl (by rw [hp]; rfl)
  | requested sequence ready frame hp hk ho hm =>
    exact h.requested hp hk (congrArg Owner.driver ho) (congrArg Mailbox.commands hm)
  | removed sequence kind ready frame hp ha hpend hk ho hm =>
    exact h.removed (congrArg Owner.driver ho) (congrArg Mailbox.commands hm)
  | driven ready event drive frame hp hdrive ho hm =>
    have hdriver : frame.runner.driver = drive.driver := congrArg Owner.driver ho
    have hcommands : frame.shared.commands = s.frame.shared.commands :=
      congrArg Mailbox.commands hm
    obtain ⟨htraced, hcount⟩ := h.drive hs hd hb hp hdrive
    refine ⟨?_, ?_, ?_⟩
    · simp only [hdriver]
      exact htraced
    · simp only [hdriver, hcommands]
      exact hcount
    · intro sequence id hx
      cases hx
      simp only [hdriver]
      exact drive_started hdrive
  | failed ready error drive frame hp hdrive ho hm =>
    have hdriver : frame.runner.driver = drive.driver := congrArg Owner.driver ho
    have hcommands : frame.shared.commands = s.frame.shared.commands :=
      congrArg Mailbox.commands hm
    obtain ⟨htraced, hcount⟩ := h.drive hs hd hb hp hdrive
    refine observed_of_driver (fun _ hx => by cases hx) ?_ ?_
    · simp only [hdriver]
      exact htraced
    · simp only [hdriver, hcommands]
      exact hcount
  | published event sequence kind frame hp ht hk ho hm =>
    exact h.unmoved (fun _ hx => by cases hx) (congrArg Owner.driver ho)
      (congrArg Mailbox.commands hm) (by rw [hp]; rfl)
  | unpublished event hp ht =>
    exact h.unmoved (fun _ hx => by cases hx) rfl rfl (by rw [hp]; rfl)

end Observed

section Calling

variable {s : IncrementalSystem (BackendRecorder B) eventCapacity} {t : Service eventCapacity}
  {base : List BackendCall} {sequence : CommandSequence} {id : OperationId}

/-- Calls that poll the operation only if it was cancelled before. -/
def Covered (base : List BackendCall) (id : OperationId) (calls : List BackendCall) : Prop :=
  ∃ new, calls = base ++ new ∧
    ∀ reason answer, .poll id reason answer ∈ new → id ∈ cancelIds base

/-- The drive of the call is over. -/
def publishes : IncrementalPhase → Bool
  | .publishing _ => true
  | _ => false

/-- A call from a given trace, looked at for one started operation: before the drive
nothing is called, after it the calls are covered. -/
def Calling (base : List BackendCall) (sequence : CommandSequence) (id : OperationId)
    (s : IncrementalSystem (BackendRecorder B) eventCapacity) : Prop :=
  if publishes s.phase then Covered base id (trace s.frame.runner.driver)
  else trace s.frame.runner.driver = base ∧ StartedFor sequence id s.frame.runner.driver

variable [IncrementalWifiBackend B]

/-- A drive polls the operation of a marked sequence only after its cancellation. -/
theorem drive_covered {n : ℕ} {driver : IncrementalBackendDriver (BackendRecorder B)}
    {scan : Vector ScanResult n} {ready : WaitSet}
    {result : EStateM.Result IncrementalDriverError (DriverFrame (BackendRecorder B) n)
      IncrementalDriverEvent} (ht : Traced driver) (h : DriveOutcome driver scan ready result)
    (hx : StartedFor sequence id driver)
    (hm : driver.arbiter.activeSequence = some sequence → Marked sequence driver) :
    Covered (trace driver) id (trace (after result).driver) := by
  obtain ⟨new, hnew, hpolls⟩ := drive_polls h
  refine ⟨new, hnew, fun reason answer hp => ?_⟩
  obtain ⟨active, ha, hid, hdue⟩ := hpolls id reason answer hp
  have hsame : active.sequence = sequence := by
    refine hx.2 active.sequence ?_
    rw [CommandArbiter.activeOperation_of_active ha, hid]
  have hmarked := hm (by rw [CommandArbiter.activeSequence_of_active ha, hsame])
  rcases hmarked.due active ha hsame with hd | hr
  · rw [hd] at hdue
    cases hdue
  · rw [← hid]
    exact (ht.cancelled active ha).mpr hr

/-- The driver after one step of a call: the backend is called by the drive alone. -/
theorem runnerStep_driver (ready : WaitSet) (hs : Simulates s t) (hd : Delivers t)
    (ho : Observed s) :
    (trace (runnerStep ready s).1.frame.runner.driver = trace s.frame.runner.driver ∧
      (runnerStep ready s).1.frame.runner.driver.arbiter.activeOperation =
        s.frame.runner.driver.arbiter.activeOperation ∧
      (runnerStep ready s).1.frame.runner.driver.runner = s.frame.runner.driver.runner ∧
      publishes (runnerStep ready s).1.phase = false) ∨
    ∃ ready' result, s.phase = .driving ready' ∧
      DriveOutcome s.frame.runner.driver s.frame.shared.scanResults (ready'.without .cancel) result ∧
      (runnerStep ready s).1.frame.runner.driver = (after result).driver ∧
      ((runnerStep ready s).2 = none → publishes (runnerStep ready s).1.phase = true) := by
  have he := runnerStep_effect ready hs hd.bounded
  generalize runnerStep ready s = next at he
  cases he with
  | received command rest ready frame hp hc hq ho hm =>
    have hdriver : frame.runner.driver = s.frame.runner.driver := congrArg Owner.driver ho
    exact Or.inl ⟨by rw [hdriver], by rw [hdriver], by rw [hdriver], rfl⟩
  | unreceived ready frame hp hn ho hm =>
    have hdriver : frame.runner.driver = s.frame.runner.driver := congrArg Owner.driver ho
    exact Or.inl ⟨by rw [hdriver], by rw [hdriver], by rw [hdriver], rfl⟩
  | submitted command ready sequence request frame hp hseq ho hm =>
    have hdriver : frame.runner.driver = submittedDriver sequence request s.frame.runner.driver :=
      congrArg Owner.driver ho
    refine Or.inl ⟨?_, ?_, ?_, rfl⟩
    · rw [hdriver]
      rfl
    · rw [hdriver]
      rfl
    · rw [hdriver]
      rfl
  | sampled x rest ready frame hp hq ho hm =>
    have hdriver : frame.runner.driver = s.frame.runner.driver := congrArg Owner.driver ho
    exact Or.inl ⟨by rw [hdriver], by rw [hdriver], by rw [hdriver], rfl⟩
  | unsampled ready hp hq => exact Or.inl ⟨rfl, rfl, rfl, rfl⟩
  | requested x ready frame hp hk ho' hm =>
    have hdriver : frame.runner.driver =
        after (IncrementalBackendDriver.requestCancel x s.frame.runner.driver) :=
      congrArg Owner.driver ho'
    refine Or.inl ⟨?_, ?_, ?_, rfl⟩
    · rw [hdriver]
      exact (request_traced ho.traced x).2
    · rw [hdriver]
      exact requestCancel_live _
    · rw [hdriver, requestCancel_apply, after_ok]
  | removed x kind ready frame hp hslot hpend hk ho hm =>
    have hdriver : frame.runner.driver = removedDriver s.frame.runner.driver :=
      congrArg Owner.driver ho
    refine Or.inl ⟨?_, ?_, ?_, rfl⟩
    · rw [hdriver]
      rfl
    · rw [hdriver]
      rfl
    · rw [hdriver]
      rfl
  | driven ready' event drive frame hp hdrive ho' hm =>
    have hdriver : frame.runner.driver = drive.driver := congrArg Owner.driver ho'
    exact Or.inr ⟨ready', _, hp, hdrive, hdriver, fun _ => rfl⟩
  | failed ready' error drive frame hp hdrive ho' hm =>
    have hdriver : frame.runner.driver = drive.driver := congrArg Owner.driver ho'
    exact Or.inr ⟨ready', _, hp, hdrive, hdriver, fun hn => by cases hn⟩
  | published event x kind frame hp ht hk ho hm =>
    have hdriver : frame.runner.driver = s.frame.runner.driver := congrArg Owner.driver ho
    exact Or.inl ⟨by rw [hdriver], by rw [hdriver], by rw [hdriver], rfl⟩
  | unpublished event hp ht => exact Or.inl ⟨rfl, rfl, rfl, rfl⟩

/-- The publication is the last step of a call. -/
theorem publishing_returns (ready : WaitSet) (hp : publishes s.phase = true) :
    (runnerStep ready s).2 ≠ none := by
  cases hx : s.phase with
  | publishing event =>
    unfold runnerStep
    rw [hx]
    dsimp only
    split <;> exact Option.some_ne_none _
  | _ =>
    rw [hx] at hp
    cases hp

/-- Every step keeps a started operation started for its sequence. -/
theorem startedFor_runner (ready : WaitSet) (hs : Simulates s t) (hd : Delivers t)
    (ho : Observed s) (hn : Observed (runnerStep ready s).1)
    (hb : (runnerStep ready s).1.frame.shared.commands.received.length < 2 ^ 32 - 1)
    (h : StartedFor sequence id s.frame.runner.driver) :
    StartedFor sequence id (runnerStep ready s).1.frame.runner.driver := by
  rcases runnerStep_driver ready hs hd ho with
    ⟨htrace, hactive, -⟩ | ⟨ready', result, -, hdrive, hnext, -⟩
  · rw [StartedFor, htrace, hactive]
    exact h
  · have hcount := hn.counted
    rw [hnext] at hcount ⊢
    exact drive_startedFor ho.traced hdrive (by omega) h

/-- Every step of a call keeps a dropped command's operation covered. -/
theorem calling_runner (ready : WaitSet) (hs : Simulates s t) (hd : Delivers t)
    (ha : Attended s) (ho : Observed s) (hx : sequence.get ∈ s.plane.dropped)
    (h : Calling base sequence id s) :
    ((runnerStep ready s).2 = none → Calling base sequence id (runnerStep ready s).1) ∧
    ((runnerStep ready s).2 ≠ none →
      Covered base id (trace (runnerStep ready s).1.frame.runner.driver)) := by
  unfold Calling at h
  rcases runnerStep_driver ready hs hd ho with
    ⟨htrace, hactive, -, hphase⟩ | ⟨ready', result, hp, hdrive, hnext, hpublish⟩
  · cases hpub : publishes s.phase with
    | true =>
      rw [if_pos hpub] at h
      refine ⟨fun hn => (publishing_returns ready hpub hn).elim, fun _ => ?_⟩
      rw [htrace]
      exact h
    | false =>
      rw [if_neg (ne_true_of_eq_false hpub)] at h
      obtain ⟨hbase, hid, hown⟩ := h
      refine ⟨fun _ => ?_, fun _ => ⟨[], ?_, fun _ _ hm => by cases hm⟩⟩
      · rw [Calling, if_neg (ne_true_of_eq_false hphase), StartedFor, htrace, hactive]
        exact ⟨hbase, hid, hown⟩
      · rw [htrace, List.append_nil]
        exact hbase
  · have hpub : publishes s.phase = false := by
      rw [hp]
      rfl
    rw [if_neg (ne_true_of_eq_false hpub)] at h
    obtain ⟨hbase, hstarted⟩ := h
    have hcover := drive_covered ho.traced hdrive hstarted
      fun hslot => ha.marked hs hd hp hslot hx
    rw [hbase, ← hnext] at hcover
    refine ⟨fun hn => ?_, fun _ => hcover⟩
    rw [Calling, if_pos (hpublish hn)]
    exact hcover

end Calling

/-- A call returns the event it published, or the removal of a pending command. -/
theorem returned_event [IncrementalWifiBackend B] {s m : IncrementalSystem B eventCapacity}
    {t : Service eventCapacity} {ready : WaitSet} {event : IncrementalDriverEvent}
    (hs : Simulates s t) (hd : Delivers t) (h : runnerStep ready s = (m, some (.ok event))) :
    s.phase = .publishing event ∨ ∃ sequence, event = .cancelled sequence false := by
  have he := runnerStep_effect ready hs hd.bounded
  rw [h] at he
  generalize hx : ((m, some (.ok event)) :
    IncrementalSystem B eventCapacity × Option CallResult) = next at he
  cases he with
  | received command rest ready frame hp hc hq ho hm => cases hx
  | unreceived ready frame hp hn ho hm => cases hx
  | submitted command ready sequence request frame hp hseq ho hm => cases hx
  | sampled x rest ready frame hp hq ho hm => cases hx
  | unsampled ready hp hq => cases hx
  | requested x ready frame hp hk ho hm => cases hx
  | removed x kind ready frame hp hslot hpend hk ho hm =>
    cases hx
    exact Or.inr ⟨x, rfl⟩
  | driven ready' event drive frame hp hdrive ho hm => cases hx
  | failed ready' error drive frame hp hdrive ho hm => cases hx
  | published event x kind frame hp ht hk ho hm =>
    simp only [Prod.mk.injEq, Option.some.injEq] at hx
    obtain ⟨-, hx⟩ := hx
    split at hx
    · cases hx
    · cases hx
      exact Or.inl hp
  | unpublished event hp ht =>
    cases hx
    exact Or.inl hp

section Runs

variable [IncrementalWifiBackend B]

/-- What a run of whole calls keeps below the wrap. -/
def Steady (s : IncrementalSystem (BackendRecorder B) eventCapacity) : Prop :=
  s.plane.allocated < 2 ^ 32 - 1 →
    ∃ t, Simulates s t ∧ Delivers t ∧ Attended s ∧ Observed s

/-- Every step of a call keeps the system steady. -/
theorem steady_runner {s : IncrementalSystem (BackendRecorder B) eventCapacity} (ready : WaitSet)
    (h : Steady s) : Steady (runnerStep ready s).1 := by
  intro hb
  have hplane := runnerStep_plane ready s
  have hbound : s.plane.allocated < 2 ^ 32 - 1 := by
    rw [← hplane]
    exact hb
  obtain ⟨t, hs, hd, ha, ho⟩ := h hbound
  obtain ⟨u, hstep, hsim⟩ := simulates_runner ready hs hd.bounded
  refine ⟨u, hsim, service_delivers hd hstep ?_, attended_runner ready hs hd ha,
    observed_runner ready hs hd hbound ho⟩
  rw [hsim.plane]
  exact hb

/-- Between two calls every other step keeps the system steady. -/
theorem steady_other (interrupt : E → B → B)
    {s : IncrementalSystem (BackendRecorder B) eventCapacity} (hp : s.phase = .idle)
    {input : IncrementalInput E} (hi : ∀ ready, input ≠ .runner ready) (h : Steady s) :
    Steady ((incrementalMachine (recordedInterrupt interrupt)).next s input) := by
  intro hb
  have hbound := Nat.lt_of_le_of_lt (allocated_le_next (recordedInterrupt interrupt) input) hb
  obtain ⟨t, hs, hd, ha, ho⟩ := h hbound
  obtain ⟨u, hstep, hsim⟩ := simulates_step (recordedInterrupt interrupt) hs hd.bounded input
  have hf := forwarded_step (recordedInterrupt interrupt) hs hd ha.forwarded input
    fun _ ⟨⟨ready, hx⟩, _⟩ => by cases hp.symm.trans hx
  refine ⟨u, hsim, service_delivers hd hstep ?_, ?_, ?_⟩
  · rw [hsim.plane]
    exact hb
  · cases input with
    | control step => exact attended_idle hp hf
    | runner ready => exact (hi ready rfl).elim
    | backendEvent event => exact attended_idle hp hf
  · cases input with
    | control step =>
      have hreceived : (s.plane.step s.frame.shared step).2.commands.received =
          s.frame.shared.commands.received :=
        (control_forwards (step_effect s.plane s.frame.shared step)).commandsReceived
      refine ⟨ho.traced, ?_, ho.starting⟩
      simp only [Machine.next, incrementalMachine, hreceived]
      exact ho.counted
    | runner ready => exact (hi ready rfl).elim
    | backendEvent event => exact ⟨ho.traced, ho.counted, ho.starting⟩

variable (interrupt : E → B → B) (backend : B) (budget : WorkBudget) (config : WifiConfig)
  (hpos : 0 < eventCapacity)

/-- State between two calls of a run whose backend calls are recorded. -/
def recordedFacadeRun (inputs : List (FacadeInput E)) :
    FacadeSystem (BackendRecorder B) eventCapacity :=
  facadeRun (recordedInterrupt interrupt) ⟨backend, []⟩ budget config hpos inputs

/-- Inputs of the same run with the results of the calls. -/
def recordedResults (inputs : List (FacadeInput E)) : List (FacadeInput E × Option CallResult) :=
  (facadeMachine (recordedInterrupt interrupt)).transcript
    (⟨.new, ⟨.new ⟨backend, []⟩ budget config, .new hpos⟩⟩ :
      FacadeSystem (BackendRecorder B) eventCapacity) inputs

/-- Backend calls made so far. -/
def backendCalls (s : FacadeSystem (BackendRecorder B) eventCapacity) : List BackendCall :=
  trace s.frame.runner.driver

variable {interrupt backend budget config hpos}

variable (backend budget config hpos) in
omit [IncrementalWifiBackend B] in
/-- A claimed radio is steady before the first call. -/
theorem steady_start : Steady (incrementalStart (⟨backend, []⟩ : BackendRecorder B) budget config
    hpos) := by
  intro _
  refine ⟨_, simulates_start _ budget config hpos, delivers_new hpos, ?_, ?_⟩
  · exact attended_idle rfl (forwarded_start _ budget config hpos)
  · exact ⟨recorded_nil, Nat.zero_le _, fun _ _ hx => by cases hx⟩

/-- Every state between two calls is steady. -/
theorem run_steady (inputs : List (FacadeInput E)) :
    Steady (recordedFacadeRun interrupt backend budget config hpos inputs).between := by
  exact between_invariant (recordedInterrupt interrupt)
    (steady_start backend budget config hpos) (fun s ready h => steady_runner ready h)
    (fun s input hp hi h => steady_other interrupt hp hi h) inputs

/-- A run below the wrap is below the wrap at every earlier moment. -/
theorem facade_allocated {before after : List (FacadeInput E)}
    (hb : (recordedFacadeRun interrupt backend budget config hpos (before ++ after)).plane.allocated <
      2 ^ 32 - 1) :
    (recordedFacadeRun interrupt backend budget config hpos before).plane.allocated <
      2 ^ 32 - 1 := by
  refine bound_of_append (facadeMachine (recordedInterrupt interrupt))
    (B := fun s => s.plane.allocated < 2 ^ 32 - 1) ?_ hb
  intro earlier input hn
  refine Nat.lt_of_le_of_lt ?_ hn
  cases input with
  | control step => exact allocated_le_step _ _ step
  | runOnce ready => exact Nat.le_refl _
  | backendEvent event => exact Nat.le_refl _

/-- A call does not complete a dropped command. -/
theorem call_suppressed {s next : IncrementalSystem (BackendRecorder B) eventCapacity}
    {ready : WaitSet} {result : CallResult} (hr : Returns ready s result next) (h : Steady s)
    (hb : s.plane.allocated < 2 ^ 32 - 1) {sequence : CommandSequence}
    (hx : sequence.get ∈ s.plane.dropped) (completion : IncrementalCompletion) :
    result ≠ .ok (.completed sequence completion) := by
  refine returns_result ready
    (J := fun s => Steady s ∧ s.plane.allocated < 2 ^ 32 - 1 ∧ sequence.get ∈ s.plane.dropped)
    (F := fun result _ => result ≠ .ok (.completed sequence completion)) ?_ ?_ hr ⟨h, hb, hx⟩
  · rintro s m ⟨h, hb, hx⟩ hm
    have hplane := runnerStep_plane ready s
    have hnext := steady_runner ready h
    rw [hm] at hplane hnext
    simp only at hplane hnext
    rw [← hplane] at hb hx
    exact ⟨hnext, hb, hx⟩
  · rintro s m result ⟨h, hb, hx⟩ hm hresult
    obtain ⟨t, hs, hd, ha, ho⟩ := h hb
    rw [hresult] at hm
    rcases returned_event hs hd hm with hp | ⟨x, hc⟩
    · exact ha.completing sequence completion hp hx
    · cases hc

/-- A call polls the operation of a dropped command only if it was cancelled before. -/
theorem call_covered {s next : IncrementalSystem (BackendRecorder B) eventCapacity}
    {ready : WaitSet} {result : CallResult} (hr : Returns ready s result next) (h : Steady s)
    (hp : s.phase = .idle) (hb : s.plane.allocated < 2 ^ 32 - 1) {sequence : CommandSequence}
    (hx : sequence.get ∈ s.plane.dropped) {id : OperationId}
    (hid : StartedFor sequence id s.frame.runner.driver) :
    Covered (trace s.frame.runner.driver) id (trace next.frame.runner.driver) := by
  have hcalling : Calling (trace s.frame.runner.driver) sequence id s := by
    rw [Calling, hp, if_neg (by decide)]
    exact ⟨rfl, hid⟩
  generalize trace s.frame.runner.driver = base at hcalling
  refine returns_result ready
    (J := fun s => Steady s ∧ s.plane.allocated < 2 ^ 32 - 1 ∧ sequence.get ∈ s.plane.dropped ∧
      Calling base sequence id s)
    (F := fun _ next => Covered base id (trace next.frame.runner.driver)) ?_ ?_ hr
    ⟨h, hb, hx, hcalling⟩
  · rintro s m ⟨h, hb, hx, hc⟩ hm
    obtain ⟨t, hs, hd, ha, ho⟩ := h hb
    have hplane := runnerStep_plane ready s
    have hnext := steady_runner ready h
    have hcall := (calling_runner ready hs hd ha ho hx hc).1
    rw [hm] at hplane hnext hcall
    simp only at hplane hnext hcall
    rw [← hplane] at hb hx
    exact ⟨hnext, hb, hx, hcall trivial⟩
  · rintro s m result ⟨h, hb, hx, hc⟩ hm
    obtain ⟨t, hs, hd, ha, ho⟩ := h hb
    have hcall := (calling_runner ready hs hd ha ho hx hc).2
    rw [hm] at hcall
    exact hcall (Option.some_ne_none _)

/-- A call keeps a started operation started for its sequence. -/
theorem call_startedFor {s next : IncrementalSystem (BackendRecorder B) eventCapacity}
    {ready : WaitSet} {result : CallResult} (hr : Returns ready s result next) (h : Steady s)
    (hb : s.plane.allocated < 2 ^ 32 - 1) {sequence : CommandSequence} {id : OperationId}
    (hid : StartedFor sequence id s.frame.runner.driver ∨ result = .ok (.started sequence id)) :
    StartedFor sequence id next.frame.runner.driver := by
  have hkeep : ∀ s : IncrementalSystem (BackendRecorder B) eventCapacity,
      Steady s ∧ s.plane.allocated < 2 ^ 32 - 1 →
      (Steady (runnerStep ready s).1 ∧ (runnerStep ready s).1.plane.allocated < 2 ^ 32 - 1) ∧
      (StartedFor sequence id s.frame.runner.driver →
        StartedFor sequence id (runnerStep ready s).1.frame.runner.driver) := by
    rintro s ⟨h, hb⟩
    have hplane := runnerStep_plane ready s
    have hnext := steady_runner ready h
    have hbound : (runnerStep ready s).1.plane.allocated < 2 ^ 32 - 1 := by
      rw [hplane]
      exact hb
    obtain ⟨t, hs, hd, ha, ho⟩ := h hb
    obtain ⟨u, hsim, hdel, -, hobs⟩ := hnext hbound
    have hlen := hdel.received_length
    rw [hsim.shared, hsim.plane] at hlen
    exact ⟨⟨hnext, hbound⟩, startedFor_runner ready hs hd ho hobs (by omega)⟩
  refine returns_result ready
    (J := fun s => (Steady s ∧ s.plane.allocated < 2 ^ 32 - 1) ∧
      (StartedFor sequence id s.frame.runner.driver ∨ result = .ok (.started sequence id)))
    (F := fun x next => x = result → StartedFor sequence id next.frame.runner.driver)
    ?_ ?_ hr ⟨⟨h, hb⟩, hid⟩ rfl
  · rintro s m ⟨h, hid⟩ hm
    obtain ⟨hnext, hstarted⟩ := hkeep s h
    rw [hm] at hnext hstarted
    exact ⟨hnext, hid.imp_left hstarted⟩
  · rintro s m x ⟨h, hid⟩ hm hx
    have hstarted := (hkeep s h).2
    rw [hm] at hstarted
    rcases hid with hid | hid
    · exact hstarted hid
    · rw [hx, hid] at hm
      obtain ⟨t, hs, hd, -, ho⟩ := h.1 h.2
      rcases returned_event hs hd hm with hp | ⟨y, hc⟩
      · exact hstarted (ho.starting sequence id hp)
      · cases hc

/-- A reported start names the operation of its sequence for the rest of the run. -/
theorem run_startedFor (inputs : List (FacadeInput E))
    (hb : (recordedFacadeRun interrupt backend budget config hpos inputs).plane.allocated <
      2 ^ 32 - 1) {sequence : CommandSequence} {id : OperationId} {input : FacadeInput E}
    (hm : (input, some (.ok (.started sequence id))) ∈
      recordedResults interrupt backend budget config hpos inputs) :
    StartedFor sequence id
      (recordedFacadeRun interrupt backend budget config hpos inputs).frame.runner.driver := by
  induction inputs using List.reverseRecOn with
  | nil => cases hm
  | append_singleton before last ih =>
    have hbefore := facade_allocated hb
    have hsteady : Steady (recordedFacadeRun interrupt backend budget config hpos before).between :=
      run_steady before
    rw [recordedResults, transcript_concat] at hm
    rw [recordedFacadeRun, facadeRun, run_concat]
    have hold : (input, some (.ok (.started sequence id))) ∈
        recordedResults interrupt backend budget config hpos before →
        StartedFor sequence id
          (recordedFacadeRun interrupt backend budget config hpos before).frame.runner.driver :=
      ih hbefore
    cases last with
    | control step =>
      rcases List.mem_append.mp hm with hm | hm
      · exact hold hm
      · cases List.mem_singleton.mp hm
    | backendEvent event =>
      rcases List.mem_append.mp hm with hm | hm
      · exact hold hm
      · cases List.mem_singleton.mp hm
    | runOnce ready =>
      refine call_startedFor (runOnce_returns _ ready _) hsteady hbefore ?_
      rcases List.mem_append.mp hm with hm | hm
      · exact Or.inl (hold hm)
      · have hx := List.mem_singleton.mp hm
        simp only [Prod.mk.injEq, Machine.output, facadeMachine, Option.some.injEq] at hx
        exact Or.inr hx.2.symm

/-- After the drop of its future no call completes a command, and each call polls its
operation only after the cancellation call for it. -/
theorem dropped_command_cancelled (inputs : List (FacadeInput E))
    (hb : (recordedFacadeRun interrupt backend budget config hpos inputs).plane.allocated <
      2 ^ 32 - 1) :
    ∀ before ready after, inputs = before ++ .runOnce ready :: after →
    ∀ sequence : CommandSequence,
      sequence.get ∈ (recordedFacadeRun interrupt backend budget config hpos before).plane.dropped →
      (∀ completion, (facadeMachine (recordedInterrupt interrupt)).output
          (recordedFacadeRun interrupt backend budget config hpos before) (.runOnce ready) ≠
        some (.ok (.completed sequence completion))) ∧
      ∀ id, (∃ input, (input, some (.ok (.started sequence id))) ∈
          recordedResults interrupt backend budget config hpos before) →
        ∃ new, backendCalls (recordedFacadeRun interrupt backend budget config hpos
            (before ++ [.runOnce ready])) =
          backendCalls (recordedFacadeRun interrupt backend budget config hpos before) ++ new ∧
        ∀ reason answer, .poll id reason answer ∈ new →
          id ∈ cancelIds
            (backendCalls (recordedFacadeRun interrupt backend budget config hpos before)) := by
  rintro before ready after rfl sequence hx
  have hbefore := facade_allocated hb
  have hsteady : Steady (recordedFacadeRun interrupt backend budget config hpos before).between :=
    run_steady before
  have hreturns := runOnce_returns
    (recordedFacadeRun interrupt backend budget config hpos before).plane ready
    (recordedFacadeRun interrupt backend budget config hpos before).frame
  constructor
  · intro completion ho
    exact call_suppressed hreturns hsteady hbefore hx completion (Option.some.inj ho)
  · rintro id ⟨input, hm⟩
    rw [recordedFacadeRun, facadeRun, run_concat]
    exact call_covered hreturns hsteady rfl hbefore hx (run_startedFor before hbefore hm)

end Runs

/-- A replayed disconnection between whole calls. -/
def recordedReplay (inputs : List (FacadeInput Unit)) :
    FacadeSystem (BackendRecorder ReplayBackend) 1 :=
  recordedFacadeRun (fun _ backend => backend) completingBackend smallestBudget .default Nat.one_pos
    inputs

/-- A disconnection is started and dropped; the next call cancels it. -/
def startedDrop : List (FacadeInput Unit) :=
  [.control (.call .disconnect), .control .allocate, .control .send, .runOnce .empty,
    .control .drop, .runOnce .empty]

/-- Operation of that disconnection. -/
def firstOperation : OperationId := ⟨0, firstSequence.raw⟩

/-- The call after the cancellation polls the operation, and suppresses its success. -/
theorem dropped_command_cancelled_replay :
    (∀ completion, (facadeMachine (recordedInterrupt fun (_ : Unit) backend => backend)).output
        (recordedReplay startedDrop) (.runOnce .empty) ≠
      some (.ok (.completed firstSequence completion))) ∧
    ∃ new, backendCalls (recordedReplay (startedDrop ++ [.runOnce .empty])) =
        backendCalls (recordedReplay startedDrop) ++ new ∧
      ∀ reason answer, .poll firstOperation reason answer ∈ new →
        firstOperation ∈ cancelIds (backendCalls (recordedReplay startedDrop)) := by
  have hb : (recordedReplay (startedDrop ++ [.runOnce .empty])).plane.allocated < 2 ^ 32 - 1 := by
    decide +kernel
  have hx : firstSequence.get ∈ (recordedReplay startedDrop).plane.dropped := by decide +kernel
  have hstarted : (@recordedResults ReplayBackend Unit 1 _ (fun (_ : Unit) backend => backend)
      completingBackend smallestBudget .default Nat.one_pos startedDrop)[3]?.map Prod.snd =
      some (some (.ok (.started firstSequence firstOperation))) := by decide +kernel
  have h := dropped_command_cancelled _ hb startedDrop .empty [] rfl firstSequence hx
  refine ⟨h.1, h.2 firstOperation ?_⟩
  obtain ⟨⟨input, result⟩, hget, hresult⟩ := Option.map_eq_some_iff.mp hstarted
  cases hresult
  exact ⟨input, List.mem_of_getElem? hget⟩

end HisiRfCore.FacadeCancellation
