import HisiRfCore.BackendContract
import HisiRfCore.DriverOwnership

/-!
# Cancellation is never taken back

An explicit request and a pending replacement set two flags in the arbiter and
one lifecycle in the tracker. Once a sequence is marked by either, it stays out
of the pending slot and marked in the active slot, so its one terminal event
reports the cancellation, whatever the backend answers later.
-/

namespace HisiRfCore.DriverCancellation

open StateBorrow WifiTypes IncrementalContract CommandArbitration RunnerState
open BackendDriver DriverCoherence DriverCalls DriverOwnership InputOutputMachine
open IncrementalBackendDriver BackendTrace BackendContract

variable {B E : Type} {n : ℕ}

/-- The terminal events that report a cancellation. -/
def Suppressed (s : CommandSequence) (event : IncrementalDriverEvent) : Prop :=
  (∃ suppressed, event = .cancelled s suppressed) ∨ ∃ error, event = .failed s error true

/-- A sequence that can only end as cancelled: it is not pending, and its
active command is flagged. -/
structure Doomed (s : CommandSequence) (driver : IncrementalBackendDriver B) : Prop where
  /-- It cannot become active again. -/
  notPending : driver.arbiter.pendingSequence ≠ some s
  /-- Its cancellation was asked for, or already delivered. -/
  flagged : ∀ a, driver.arbiter.active = some a → a.sequence = s →
    a.cancelIntent = true ∨ a.cancelRequested = true

/-- The next drive of the sequence delivers a cancellation, or one was delivered. -/
structure Marked (s : CommandSequence) (driver : IncrementalBackendDriver B) : Prop where
  /-- It cannot become active again. -/
  notPending : driver.arbiter.pendingSequence ≠ some s
  /-- Its cancellation is due, or already delivered. -/
  due : ∀ a, driver.arbiter.active = some a → a.sequence = s →
    cancelDue driver a = true ∨ a.cancelRequested = true

section Steps

variable {driver : IncrementalBackendDriver B} {s : CommandSequence}

/-- A flagged sequence is marked. -/
theorem Doomed.marked (h : Doomed s driver) : Marked s driver := by
  refine ⟨h.notPending, fun a ha hs => ?_⟩
  cases hr : a.cancelRequested with
  | true => exact Or.inr rfl
  | false =>
    rcases h.flagged a ha hs with hi | hq
    · simp [cancelDue, hi, hr]
    · rw [hr] at hq
      cases hq

/-- A pending request marks the active sequence. -/
theorem marked_of_pending (hp : driver.arbiter.pendingSequence ≠ some s)
    (hr : driver.arbiter.pending.isSome = true) : Marked s driver := by
  refine ⟨hp, fun a _ _ => ?_⟩
  cases hq : a.cancelRequested with
  | true => exact Or.inr rfl
  | false => simp [cancelDue, hr, hq]

/-- An ended operation leaves a sequence doomed that is not pending. -/
theorem doomed_released (hp : driver.arbiter.pendingSequence ≠ some s)
    (runner : IncrementalRunnerState) (backend : B) :
    Doomed s (released driver runner backend) :=
  ⟨hp, fun _ ha _ => by cases ha⟩

/-- A terminal event names its own sequence. -/
theorem endedEvent_suppressed {active : ActiveCommand} {disposition : PollDisposition}
    {event : IncrementalDriverEvent} (hr : active.cancelRequested = true)
    (h : endedEvent active disposition = some event) : Suppressed active.sequence event := by
  cases disposition with
  | pending waitFor => cases h
  | budgetExhausted waitFor => cases h
  | complete completion =>
    simp only [endedEvent, hr, if_true, Option.some.injEq] at h
    exact Or.inl ⟨_, h.symm⟩
  | cancelled =>
    simp only [endedEvent, Option.some.injEq] at h
    exact Or.inl ⟨_, h.symm⟩

variable [IncrementalWifiBackend B]

/-- A drive of a marked sequence leaves it doomed, and ends it as cancelled only. -/
theorem drive_doomed {scan : Vector ScanResult n} {ready : WaitSet}
    {result : EStateM.Result IncrementalDriverError (DriverFrame B n) IncrementalDriverEvent}
    (hm : Marked s driver) (h : DriveOutcome driver scan ready result) :
    Doomed s (after result).driver ∧
      ∀ event, reply result = .ok event → event.terminal = some s → Suppressed s event := by
  have hkeep : ∀ a, driver.arbiter.active = some a → cancelDue driver a = false →
      a.sequence = s → a.cancelRequested = true := by
    intro a ha hd hs
    rcases hm.due a ha hs with hdue | hr
    · rw [hd] at hdue
      cases hdue
    · exact hr
  have hpoll : ∀ a, driver.arbiter.active = some a → cancelDue driver a = false →
      ∀ runner backend, Doomed s (polled driver runner backend) := by
    intro a ha hd runner backend
    refine ⟨hm.notPending, fun b hb hs => ?_⟩
    have hab : b = a := Option.some.inj (hb.symm.trans ha)
    rw [hab] at hs ⊢
    exact Or.inr (hkeep a ha hd hs)
  have hheld : ∀ held, driver.arbiter.pending = some held → held.sequence ≠ s := by
    intro held hp hs
    apply hm.notPending
    simp [CommandArbiter.pendingSequence, hp, hs]
  cases h with
  | idle ha hp =>
    refine ⟨⟨hm.notPending, fun a hb _ => ?_⟩, fun event he ht => ?_⟩
    · simp only [after_ok, ha] at hb
      cases hb
    · cases he
      cases ht
  | started held backend ha hp hb =>
    refine ⟨⟨by simp [begun, CommandArbiter.pendingSequence], fun a hb hs => ?_⟩,
      fun event he ht => ?_⟩
    · cases hb
      exact (hheld held hp hs).elim
    · cases he
      cases ht
  | startFailed held backend error ha hp hb =>
    refine ⟨⟨by simp [rejected, CommandArbiter.pendingSequence], fun a hb _ => by cases hb⟩,
      fun event he ht => ?_⟩
    cases he
    exact (hheld held hp (Option.some.inj ht)).elim
  | cancelDelivered active backend ha hd hb =>
    refine ⟨⟨hm.notPending, fun a hb _ => ?_⟩, fun event he ht => ?_⟩
    · cases hb
      exact Or.inr rfl
    · cases he
      cases ht
  | cancelFailed active backend error ha hd hb =>
    refine ⟨doomed_released hm.notPending _ _, fun event he ht => ?_⟩
    cases he
    cases ht
    exact Or.inr ⟨error, rfl⟩
  | waiting active waitFor runner ha hd hs =>
    refine ⟨hpoll active ha hd _ _, fun event he ht => ?_⟩
    cases he
    cases ht
  | commandReady active runner ha hd hs =>
    exact ⟨hpoll active ha hd _ _, fun event he _ => by cases he⟩
  | pollFailed active reason runner error backend output ha hd hs hb =>
    refine ⟨doomed_released hm.notPending _ _, fun event he ht => ?_⟩
    cases he
    have hseq : active.sequence = s := Option.some.inj ht
    rw [hkeep active ha hd hseq, hseq]
    exact Or.inr ⟨error, rfl⟩
  | staleReport active reason runner report backend output ha hd hs hb hr =>
    exact ⟨hpoll active ha hd _ _, fun event he _ => by cases he⟩
  | kept active reason runner report backend output event waitFor ha hd hs hb hr he =>
    refine ⟨hpoll active ha hd _ _, fun x hx ht => ?_⟩
    cases hx
    rw [(keptEvent_names he).1] at ht
    cases ht
  | ended active reason runner report backend output event ha hd hs hb hr he =>
    refine ⟨doomed_released hm.notPending _ _, fun x hx ht => ?_⟩
    cases hx
    have hseq : active.sequence = s := by
      rw [endedEvent_terminal he] at ht
      exact Option.some.inj ht
    have hreq := hkeep active ha hd hseq
    rw [← hseq]
    exact endedEvent_suppressed hreq he

omit [IncrementalWifiBackend B] in
/-- A cancellation request of the active sequence dooms it. -/
theorem doomed_of_request (ha : driver.arbiter.activeSequence = some s)
    (hp : driver.arbiter.pendingSequence ≠ some s) :
    Doomed s (after (IncrementalBackendDriver.requestCancel s driver)) := by
  rw [requestCancel_apply, after_ok]
  have he := CommandArbiter.requestCancel_effect s driver.arbiter
  generalize CommandArbiter.requestCancel s driver.arbiter = effect at he
  cases he with
  | requestActive active hact hs hr hi =>
    refine ⟨hp, fun a hb _ => ?_⟩
    cases hb
    exact Or.inl rfl
  | alreadyRequested active hact hs hr =>
    refine ⟨hp, fun a hb _ => ?_⟩
    have hab : a = active := Option.some.inj (hb.symm.trans hact)
    rw [hab]
    exact hr.symm
  | removePending hn hq => exact (hn ha).elim
  | notFound hn hq => exact (hn ha).elim

omit [IncrementalWifiBackend B] in
/-- A cancellation request of any sequence keeps a doomed one doomed. -/
theorem request_doomed (h : Doomed s driver) (x : CommandSequence) :
    Doomed s (after (IncrementalBackendDriver.requestCancel x driver)) := by
  rw [requestCancel_apply, after_ok]
  have he := CommandArbiter.requestCancel_effect x driver.arbiter
  generalize CommandArbiter.requestCancel x driver.arbiter = effect at he
  cases he with
  | requestActive active ha hs hr hi =>
    refine ⟨h.notPending, fun a hb _ => ?_⟩
    cases hb
    exact Or.inl rfl
  | alreadyRequested active ha hs hr => exact h
  | removePending hs hp => exact ⟨by simp [CommandArbiter.pendingSequence], h.flagged⟩
  | notFound hs hp => exact h

omit [IncrementalWifiBackend B] in
/-- The event of a cancellation request is a cancellation. -/
theorem request_suppressed (x : CommandSequence) {event : IncrementalDriverEvent}
    (he : reply (IncrementalBackendDriver.requestCancel x driver) = .ok (some event))
    (ht : event.terminal = some s) : Suppressed s event := by
  rw [requestCancel_apply, reply_ok, Except.ok.injEq] at he
  cases hq : (CommandArbiter.requestCancel x driver.arbiter).1 <;>
    simp only [hq, reduceCtorEq, Option.some.injEq] at he
  subst he
  cases ht
  exact Or.inl ⟨false, rfl⟩

omit [IncrementalWifiBackend B] in
/-- A request is ignored when it finds no command, or one that is already flagged. -/
theorem request_neutral
    (h : (driver.arbiter.activeSequence ≠ some s ∧ driver.arbiter.pendingSequence ≠ some s) ∨
      (driver.arbiter.activeSequence = some s ∧ Doomed s driver)) :
    IncrementalBackendDriver.requestCancel s driver = .ok none driver := by
  rw [requestCancel_apply]
  have he := CommandArbiter.requestCancel_effect s driver.arbiter
  generalize CommandArbiter.requestCancel s driver.arbiter = effect at he
  cases he with
  | requestActive active ha hs hr hi =>
    exfalso
    rcases h with ⟨hn, -⟩ | ⟨-, hd⟩
    · exact hn (by simp [CommandArbiter.activeSequence, ha, hs])
    · rcases hd.flagged active ha hs with hf | hf
      · rw [hi] at hf
        cases hf
      · rw [hr] at hf
        cases hf
  | alreadyRequested active ha hs hr => rfl
  | removePending hs hp =>
    exfalso
    rcases h with ⟨-, hn⟩ | ⟨ha, -⟩
    · exact hn hp
    · exact hs ha
  | notFound hs hp => rfl

end Steps

section Runs

variable {s : CommandSequence} [IncrementalWifiBackend B]

/-- A call that does not accept the sequence again keeps it doomed, and ends it
as cancelled only. -/
theorem call_doomed (interrupt : E → B → B) {driver : IncrementalBackendDriver B}
    (hc : Coherent driver) (h : Doomed s driver) (call : DriverCall E)
    (hn : acceptedBy (call, (driverMachine interrupt).output driver call) ≠ some s) :
    Doomed s ((driverMachine interrupt).next driver call) ∧
      ∀ event, ((driverMachine interrupt).output driver call).event = some event →
        event.terminal = some s → Suppressed s event := by
  cases call with
  | submit sequence request =>
    cases hp : driver.arbiter.pending with
    | none =>
      have hs := submit_of_free hp sequence request
      simp only [Machine.output, driverMachine, hs, reply_ok, acceptedBy] at hn
      simp only [Machine.next, Machine.output, driverMachine, hs]
      exact ⟨⟨hn, h.flagged⟩, fun event he => by cases he⟩
    | some held =>
      have hs := submit_of_held hp sequence request
      simp only [Machine.next, Machine.output, driverMachine, hs]
      exact ⟨h, fun event he => by cases he⟩
  | requestCancel x =>
    exact ⟨request_doomed h x, fun event he => request_suppressed x (cancelReply_event.mp he)⟩
  | driveOnce ready scan =>
    obtain ⟨hd, hx⟩ := drive_doomed h.marked (driveOnce_outcome hc scan ready)
    exact ⟨hd, fun event he => hx event (driven_event.mp he)⟩
  | waitIntent => exact ⟨h, fun event he => by cases he⟩
  | backendEvent event => exact ⟨⟨h.notPending, h.flagged⟩, fun event he => by cases he⟩

/-- A doomed sequence that is not accepted again stays doomed, and every
terminal event for it reports the cancellation. -/
theorem run_doomed (interrupt : E → B → B) (calls : List (DriverCall E))
    {driver : IncrementalBackendDriver B} (hc : Coherent driver) (h : Doomed s driver)
    (hn : s ∉ accepted ((driverMachine interrupt).transcript driver calls)) :
    Doomed s ((driverMachine interrupt).run driver calls) ∧
      ∀ x ∈ (driverMachine interrupt).transcript driver calls, ∀ event,
        x.2.event = some event → event.terminal = some s → Suppressed s event := by
  induction calls generalizing driver with
  | nil => exact ⟨h, fun x hx => by cases hx⟩
  | cons call rest ih =>
    have hfirst : acceptedBy (call, (driverMachine interrupt).output driver call) ≠ some s :=
      fun ha => hn (List.mem_filterMap.mpr ⟨_, List.mem_cons_self, ha⟩)
    have hrest : s ∉ accepted ((driverMachine interrupt).transcript
        ((driverMachine interrupt).next driver call) rest) := by
      intro hm
      obtain ⟨x, hx, ha⟩ := List.mem_filterMap.mp hm
      exact hn (List.mem_filterMap.mpr ⟨x, List.mem_cons_of_mem _ hx, ha⟩)
    obtain ⟨hd, hx⟩ := call_doomed interrupt hc h call hfirst
    obtain ⟨hrun, hall⟩ := ih (call_move interrupt hc call).1 hd hrest
    refine ⟨hrun, fun x hm => ?_⟩
    rcases List.mem_cons.mp hm with hm | hm
    · rw [hm]
      exact hx
    · exact hall x hm

/-- A driver call hands the sequence to the backend's `start`. -/
def StartsFor (interrupt : E → B → B) (s : CommandSequence)
    (driver : IncrementalBackendDriver (BackendRecorder B)) (call : DriverCall E) : Prop :=
  driver.arbiter.pendingSequence = some s ∧ ∃ id request result,
    trace ((recordedMachine interrupt).next driver call) =
      trace driver ++ [.start id request result]

/-- A drive that makes a start call had nothing active, and reports the pending sequence. -/
theorem drive_starts {driver : IncrementalBackendDriver (BackendRecorder B)}
    {scan : Vector ScanResult n} {ready : WaitSet}
    {result : EStateM.Result IncrementalDriverError (DriverFrame (BackendRecorder B) n)
      IncrementalDriverEvent} (h : DriveOutcome driver scan ready result) {id : OperationId}
    {request : IncrementalRequest} {answer : Except BackendError Unit}
    (ht : trace (after result).driver = trace driver ++ [.start id request answer])
    (hp : driver.arbiter.pendingSequence = some s) :
    (∃ operation, reply result = .ok (.started s operation)) ∨
      ∃ error, reply result = .ok (.failed s error false) := by
  have hlast : ∀ call, trace (after result).driver = trace driver ++ [call] →
      call = .start id request answer := by
    intro call hcall
    exact List.singleton_inj.mp (List.append_cancel_left (hcall.symm.trans ht))
  have hquiet : trace (after result).driver ≠ trace driver := by
    intro hq
    have hlen := congrArg List.length (hq.symm.trans ht)
    rw [List.length_append, List.length_singleton] at hlen
    omega
  have hheld : ∀ held, driver.arbiter.pending = some held → held.sequence = s := by
    intro held hh
    simpa [CommandArbiter.pendingSequence, hh] using hp
  cases h with
  | idle ha hn => exact (hquiet rfl).elim
  | started held backend ha hh hs =>
    rw [hheld held hh]
    exact Or.inl ⟨_, rfl⟩
  | startFailed held backend error ha hh hs =>
    rw [hheld held hh]
    exact Or.inr ⟨_, rfl⟩
  | cancelDelivered active backend ha hd hs => cases hlast _ (cancel_calls hs)
  | cancelFailed active backend error ha hd hs => cases hlast _ (cancel_calls hs)
  | waiting active waitFor runner ha hd hs => exact (hquiet rfl).elim
  | commandReady active runner ha hd hs => exact (hquiet rfl).elim
  | pollFailed active reason runner error backend output ha hd hs hb =>
    cases hlast _ (poll_calls hb)
  | staleReport active reason runner report backend output ha hd hs hb hr =>
    cases hlast _ (poll_calls hb)
  | kept active reason runner report backend output event waitFor ha hd hs hb hr he =>
    cases hlast _ (poll_calls hb)
  | ended active reason runner report backend output event ha hd hs hb hr he =>
    cases hlast _ (poll_calls hb)

/-- A call that starts a sequence reports its start or its failure. -/
theorem startsFor_reported (interrupt : E → B → B)
    {driver : IncrementalBackendDriver (BackendRecorder B)} (hc : Coherent driver)
    {call : DriverCall E} (h : StartsFor interrupt s driver call) :
    ((recordedMachine interrupt).output driver call).starts = some s ∨
      ((recordedMachine interrupt).output driver call).terminal = some s := by
  obtain ⟨hp, id, request, result, ht⟩ := h
  by_cases hdrive : ∀ ready, ∀ {n : ℕ} (scan : Vector ScanResult n), call ≠ .driveOnce ready scan
  · rw [other_trace interrupt driver hdrive] at ht
    simp at ht
  · push Not at hdrive
    obtain ⟨ready, m, scan, rfl⟩ := hdrive
    have ho := driveOnce_outcome hc scan ready
    have hout : (recordedMachine interrupt).output driver (.driveOnce ready scan) =
        .driven (reply (driveOnce ready ⟨driver, scan⟩)) := rfl
    rw [hout]
    rcases drive_starts ho ht hp with ⟨operation, hr⟩ | ⟨error, hr⟩
    · rw [hr]
      exact Or.inl rfl
    · rw [hr]
      exact Or.inr rfl

/-- A doomed successor and a suppressed first reply give suppressed replies throughout. -/
theorem suppressed_from (interrupt : E → B → B) {driver : IncrementalBackendDriver B}
    (hc : Coherent driver) {call : DriverCall E} {after : List (DriverCall E)}
    (hd : Doomed s ((driverMachine interrupt).next driver call))
    (hx : ∀ event, ((driverMachine interrupt).output driver call).event = some event →
      event.terminal = some s → Suppressed s event)
    (hn : s ∉ accepted ((driverMachine interrupt).transcript driver (call :: after))) :
    ∀ x ∈ (driverMachine interrupt).transcript driver (call :: after), ∀ event,
      x.2.event = some event → event.terminal = some s → Suppressed s event := by
  have hrest : s ∉ accepted ((driverMachine interrupt).transcript
      ((driverMachine interrupt).next driver call) after) := by
    intro hm
    obtain ⟨x, hx, ha⟩ := List.mem_filterMap.mp hm
    exact hn (List.mem_filterMap.mpr ⟨x, List.mem_cons_of_mem _ hx, ha⟩)
  intro x hm
  rcases List.mem_cons.mp hm with hm | hm
  · rw [hm]
    exact hx
  · exact (run_doomed interrupt after (call_move interrupt hc call).1 hd hrest).2 x hm

end Runs

section Claims

variable [IncrementalWifiBackend B] (interrupt : E → B → B) (backend : B) (budget : WorkBudget)
  {s : CommandSequence} {before after : List (DriverCall E)} {call : DriverCall E}

/-- A call after which a sequence in a slot is not accepted a second time. -/
theorem accepted_once
    (hd : (accepted (driverTranscript interrupt backend budget (before ++ after))).Nodup)
    (hs : s ∈ accepted (driverTranscript interrupt backend budget before)) :
    s ∉ accepted ((driverMachine interrupt).transcript (driverRun interrupt backend budget before)
      after) := by
  rw [driverTranscript, transcript_append] at hd
  simp only [accepted, List.filterMap_append] at hd
  exact fun hm => List.disjoint_of_nodup_append hd hs hm

/-- From the call that marks the active sequence on, its terminal event reports
the cancellation. -/
theorem marked_suppressed
    (hd : (accepted (driverTranscript interrupt backend budget (before ++ call :: after))).Nodup)
    (ha : (driverRun interrupt backend budget before).arbiter.activeSequence = some s)
    (hcall : call = .requestCancel s ∨
      (∃ ready, ∃ m : ℕ, ∃ scan : Vector ScanResult m, call = .driveOnce ready scan) ∧
        (driverRun interrupt backend budget before).arbiter.pending.isSome = true) :
    ∀ x ∈ (driverMachine interrupt).transcript (driverRun interrupt backend budget before)
        (call :: after), ∀ event, x.2.event = some event → event.terminal = some s →
      Suppressed s event := by
  have hn := nodup_of_split hd
  have ho := run_owned interrupt backend budget before hn
  have hc := run_coherent interrupt backend budget before
  have hp := ho.active_ne_pending hn ha
  have hacc := accepted_once interrupt backend budget hd (ho.accepted_of_slot (Or.inl ha))
  rcases hcall with rfl | ⟨⟨ready, m, scan, rfl⟩, hr⟩
  · exact suppressed_from interrupt hc (doomed_of_request ha hp)
      (fun event he => request_suppressed s (cancelReply_event.mp he)) hacc
  · obtain ⟨hdoom, hx⟩ :=
      drive_doomed (marked_of_pending hp hr) (driveOnce_outcome hc scan ready)
    exact suppressed_from interrupt hc hdoom (fun event he => hx event (driven_event.mp he)) hacc

/-- After a request for the active sequence, the sequence is doomed for the rest of the run. -/
theorem requested_doomed
    (hd : (accepted (driverTranscript interrupt backend budget
      (before ++ .requestCancel s :: after))).Nodup)
    (ha : (driverRun interrupt backend budget before).arbiter.activeSequence = some s) :
    Doomed s (driverRun interrupt backend budget (before ++ .requestCancel s :: after)) := by
  have hn := nodup_of_split hd
  have ho := run_owned interrupt backend budget before hn
  have hc := run_coherent interrupt backend budget before
  have hacc := accepted_once interrupt backend budget hd (ho.accepted_of_slot (Or.inl ha))
  have hrest : s ∉ accepted ((driverMachine interrupt).transcript
      ((driverMachine interrupt).next (driverRun interrupt backend budget before)
        (.requestCancel s)) after) := by
    intro hm
    obtain ⟨x, hx, hax⟩ := List.mem_filterMap.mp hm
    exact hacc (List.mem_filterMap.mpr ⟨x, List.mem_cons_of_mem _ hx, hax⟩)
  have hrun : driverRun interrupt backend budget (before ++ .requestCancel s :: after) =
      (driverMachine interrupt).run ((driverMachine interrupt).next
        (driverRun interrupt backend budget before) (.requestCancel s)) after :=
    run_append _ _ _ _
  rw [hrun]
  exact (run_doomed interrupt after (call_move interrupt hc _).1
    (doomed_of_request ha (ho.active_ne_pending hn ha)) hrest).1

/-- A pending sequence that is removed by a request is never handed to the backend's
`start`, before or after. -/
theorem removed_never_started
    (hd : (accepted (driverTranscript (recordedInterrupt interrupt) ⟨backend, []⟩ budget
      (before ++ .requestCancel s :: after))).Nodup)
    (hp : (recordedRun interrupt backend budget before).arbiter.pendingSequence = some s)
    (hx : ((recordedMachine interrupt).output (recordedRun interrupt backend budget before)
      (.requestCancel s)).terminal = some s)
    {b a : List (DriverCall E)} {c : DriverCall E}
    (he : before ++ .requestCancel s :: after = b ++ c :: a) :
    ¬ StartsFor interrupt s (recordedRun interrupt backend budget b) c := by
  intro hs
  have hc := recordedRun_coherent interrupt backend budget b
  rcases List.append_eq_append_iff.mp he with ⟨as, hb, ha⟩ | ⟨bs, hb, ha⟩
  · cases as with
    | nil =>
      -- The removing call itself makes no backend call.
      cases ha
      obtain ⟨-, id, request, result, ht⟩ := hs
      rw [other_trace interrupt _ (by simp)] at ht
      simp at ht
    | cons x rest =>
      obtain ⟨rfl, -⟩ := List.cons.inj ha
      subst hb
      rw [he] at hd
      have hn := nodup_of_split hd
      have ho := run_owned (recordedInterrupt interrupt) ⟨backend, []⟩ budget _ hn
      have hm : s ∈ terminals (driverTranscript (recordedInterrupt interrupt) ⟨backend, []⟩ budget
          (before ++ .requestCancel s :: rest)) :=
        List.mem_filterMap.mpr ⟨_, mem_driverTranscript _ _ _ before rest _, hx⟩
      exact (ho.terminated_slots hn hm).2 hs.1
  · cases bs with
    | nil =>
      cases ha
      obtain ⟨-, id, request, result, ht⟩ := hs
      rw [other_trace interrupt _ (by simp)] at ht
      simp at ht
    | cons x rest =>
      cases ha
      have hn := nodup_of_split hd
      have ho := run_owned (recordedInterrupt interrupt) ⟨backend, []⟩ budget before hn
      subst hb
      rcases startsFor_reported interrupt hc hs with hr | hr
      · exact ho.pending_not_started hn hp
          (List.mem_filterMap.mpr ⟨_, mem_driverTranscript _ _ _ b rest c, hr⟩)
      · exact (ho.terminated_slots hn
          (List.mem_filterMap.mpr ⟨_, mem_driverTranscript _ _ _ b rest c, hr⟩)).2 hp

omit [IncrementalWifiBackend B] in
/-- A request for the pending sequence returns its terminal event at once. -/
theorem request_pending {driver : IncrementalBackendDriver B}
    (hp : driver.arbiter.pendingSequence = some s)
    (ha : driver.arbiter.activeSequence ≠ some s) :
    reply (IncrementalBackendDriver.requestCancel s driver) = .ok (some (.cancelled s false)) := by
  rw [requestCancel_apply, reply_ok]
  have he := CommandArbiter.requestCancel_effect s driver.arbiter
  generalize CommandArbiter.requestCancel s driver.arbiter = effect at he
  cases he with
  | requestActive active hact hs hr hi =>
    exact (ha (by simp [CommandArbiter.activeSequence, hact, hs])).elim
  | alreadyRequested active hact hs hr =>
    exact (ha (by simp [CommandArbiter.activeSequence, hact, hs])).elim
  | removePending hn hq => rfl
  | notFound hn hq => exact (hq hp).elim

/-- A cancellation, by request or by replacement, is final: the marked sequence
never completes, a pending one is answered at once and never started, and a
request that finds nothing new to cancel changes nothing. -/
theorem cancellation_is_final (calls : List (DriverCall E))
    (hd : (accepted (driverTranscript (recordedInterrupt interrupt) ⟨backend, []⟩ budget
      calls)).Nodup) :
    (∀ before call after, calls = before ++ call :: after → ∀ s,
      (recordedRun interrupt backend budget before).arbiter.activeSequence = some s →
      (call = .requestCancel s ∨
        (∃ ready, ∃ m : ℕ, ∃ scan : Vector ScanResult m, call = .driveOnce ready scan) ∧
          (recordedRun interrupt backend budget before).arbiter.pending.isSome = true) →
      ∀ x ∈ (recordedMachine interrupt).transcript (recordedRun interrupt backend budget before)
          (call :: after), ∀ event, x.2.event = some event → event.terminal = some s →
        Suppressed s event) ∧
    (∀ before s after, calls = before ++ .requestCancel s :: after →
      (recordedRun interrupt backend budget before).arbiter.pendingSequence = some s →
      (recordedMachine interrupt).output (recordedRun interrupt backend budget before)
          (.requestCancel s) = .cancelReply (.ok (some (.cancelled s false))) ∧
        ∀ b c a, calls = b ++ c :: a →
          ¬ StartsFor interrupt s (recordedRun interrupt backend budget b) c) ∧
    ∀ before s after, calls = before ++ .requestCancel s :: after →
      (((recordedRun interrupt backend budget before).arbiter.activeSequence ≠ some s ∧
          (recordedRun interrupt backend budget before).arbiter.pendingSequence ≠ some s) ∨
        ((recordedRun interrupt backend budget before).arbiter.activeSequence = some s ∧
          ∃ first rest, before = first ++ .requestCancel s :: rest ∧
            (recordedRun interrupt backend budget first).arbiter.activeSequence = some s)) →
      (recordedMachine interrupt).step (recordedRun interrupt backend budget before)
          (.requestCancel s) =
        (recordedRun interrupt backend budget before, .cancelReply (.ok none)) := by
  refine ⟨?_, ?_, ?_⟩
  · rintro before call after rfl s ha hcall
    exact marked_suppressed (recordedInterrupt interrupt) ⟨backend, []⟩ budget hd ha hcall
  · rintro before s after rfl hp
    have hn := nodup_of_split hd
    have ho := run_owned (recordedInterrupt interrupt) ⟨backend, []⟩ budget before hn
    have ha : (recordedRun interrupt backend budget before).arbiter.activeSequence ≠ some s :=
      fun ha => ho.active_ne_pending hn ha hp
    have hout : (recordedMachine interrupt).output (recordedRun interrupt backend budget before)
        (.requestCancel s) = .cancelReply (.ok (some (.cancelled s false))) :=
      congrArg DriverReply.cancelReply (request_pending hp ha)
    refine ⟨hout, fun b c a he => removed_never_started interrupt backend budget hd hp ?_ he⟩
    rw [hout]
    rfl
  · rintro before s after rfl h
    have hneutral : IncrementalBackendDriver.requestCancel s
        (recordedRun interrupt backend budget before) =
          .ok none (recordedRun interrupt backend budget before) := by
      apply request_neutral
      rcases h with h | ⟨ha, first, rest, rfl, hf⟩
      · exact Or.inl h
      · exact Or.inr ⟨ha, requested_doomed (recordedInterrupt interrupt) ⟨backend, []⟩ budget
          (nodup_of_split hd) hf⟩
    simp only [recordedMachine, driverMachine, hneutral, after_ok, reply_ok]

/-- The run that removes a pending command never starts it. -/
theorem cancellation_is_final_removal :
    ¬ StartsFor (fun (_ : Unit) (b : ReplayBackend) => b) secondSequence
      (recordedRun (fun _ b => b) completingBackend smallestBudget (removalCalls.take 4))
      (.driveOnce .empty #v[]) :=
  ((cancellation_is_final (fun (_ : Unit) (b : ReplayBackend) => b) completingBackend
    smallestBudget removalCalls (by decide +kernel)).2.1 (removalCalls.take 3) secondSequence
      (removalCalls.drop 4) rfl (by decide +kernel)).2 (removalCalls.take 4) _ [] rfl

end Claims

end HisiRfCore.DriverCancellation
