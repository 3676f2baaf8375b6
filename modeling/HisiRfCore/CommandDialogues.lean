import HisiRfCore.BackendContract
import HisiRfCore.LedgerAgreement

/-!
# One dialogue for each command

Whatever interleaves, the backend sees the commands one after the other: the calls made on
it are the dialogues of the commands, put together in the order in which they ended. A
dialogue starts with the request of its command, goes on with polls and at most one
cancellation of the started operation, and determines the one completion that is signalled
for the command. A command that is removed before its start has no calls.
-/

namespace HisiRfCore.CommandDialogues

open StateBorrow BoundedChannel WifiTypes RadioStorage AsyncControl ServiceProtocol
open ServiceDelivery IncrementalContract CommandArbitration BackendDriver DriverCoherence
open DriverCalls IncrementalFacade IncrementalInterleaving IncrementalService
open BackendTrace hiding ended
open BackendContract LedgerAgreement InputOutputMachine

variable {B E : Type} {eventCapacity : ℕ}

/-- Where the dialogue of a command stands. -/
inductive Exchange
  | waiting
  | live (id : OperationId) (cancelled : Bool)
  | over (kind : CompletionKind)
  deriving DecidableEq

/-- Completion of a command that was cancelled. -/
def cancelledKind (tag : CommandKindTag) : CompletionKind := tag.failed (.new .cancelled 0)

/-- What a report of the operation's own identity does to the dialogue. A success after the
cancellation is suppressed; a success of another kind is a protocol failure. -/
def Exchange.report (tag : CommandKindTag) (id : OperationId) (cancelled : Bool) :
    PollDisposition → Exchange
  | .pending _ | .budgetExhausted _ => .live id cancelled
  | .cancelled => .over (cancelledKind tag)
  | .complete completion =>
    if cancelled then .over (cancelledKind tag)
    else
      match successfulCompletion tag completion with
      | some (kind, _) => .over kind
      | none => .over .protocol

/-- One more call of the dialogue of a command, if it is one of its calls. A report of
another identity is ignored. -/
def Exchange.hear (config : WifiConfig) (kind : CommandKind) : Exchange → BackendCall → Option Exchange
  | .waiting, .start id request result =>
    if request = requestOf config kind then
      match result with
      | .ok () => some (.live id false)
      | .error error => some (.over ((CommandKindTag.fromCommand kind).failed error))
    else none
  | .live id cancelled, .poll called _ result =>
    if called = id then
      match result with
      | .ok report =>
        if report.operation = id then
          some (.report (.fromCommand kind) id cancelled report.disposition)
        else some (.live id cancelled)
      | .error error => some (.over ((CommandKindTag.fromCommand kind).failed error))
    else none
  | .live id false, .cancel called result =>
    if called = id then
      match result with
      | .ok () => some (.live id true)
      | .error error => some (.over ((CommandKindTag.fromCommand kind).failed error))
    else none
  | _, _ => none

/-- Where a dialogue stands after its calls. -/
def talk (config : WifiConfig) (kind : CommandKind) (calls : List BackendCall) : Option Exchange :=
  calls.foldl (fun x call => x.bind fun exchange => exchange.hear config kind call) (some .waiting)

/-- A dialogue goes on. -/
theorem talk_concat (config : WifiConfig) (kind : CommandKind) (calls : List BackendCall)
    (call : BackendCall) :
    talk config kind (calls ++ [call]) =
      (talk config kind calls).bind fun exchange => exchange.hear config kind call :=
  List.foldl_concat ..

/-- A command that ended, with its calls on the backend and its completion. -/
structure Dialogue where
  /-- The command. -/
  command : Command
  /-- Calls made for it, oldest first. -/
  calls : List BackendCall
  /-- Completion that it ended with. -/
  kind : CompletionKind

/-- The calls lead to the completion, or the command was removed before its start. -/
def Dialogue.Served (config : WifiConfig) (d : Dialogue) : Prop :=
  talk config d.command.kind d.calls = some (.over d.kind) ∨
    d.calls = [] ∧ d.kind = cancelledKind (.fromCommand d.command.kind)

/-- Completion that is signalled for a command. -/
def Dialogue.completion (d : Dialogue) : Completion := ⟨d.command.sequence, d.kind⟩

/-- What the runner has done with the commands it received. -/
structure Minutes where
  /-- Ended dialogues, in the order they ended. -/
  log : List Dialogue
  /-- The command whose operation is live, with its calls so far. -/
  current : Option (Command × List BackendCall)
  /-- The command that waits for its start. -/
  pending : Option Command

namespace Minutes

/-- Nothing was done. -/
def new : Minutes := ⟨[], none, none⟩

/-- All calls on the backend, dialogue after dialogue. -/
def calls (m : Minutes) : List BackendCall :=
  m.log.flatMap Dialogue.calls ++ m.current.toList.flatMap Prod.snd

/-- All commands, in the order they ended, with the live and the waiting one behind. -/
def commands (m : Minutes) : List Command :=
  m.log.map Dialogue.command ++ (m.current.toList.map Prod.fst ++ m.pending.toList)

/-- Commands whose operation the backend was asked to start, and the waiting one, in order. -/
def opened (m : Minutes) : List Command :=
  (m.log.filter fun d => !d.calls.isEmpty).map Dialogue.command ++
    (m.current.toList.map Prod.fst ++ m.pending.toList)

end Minutes

/-- The active command is the one with a live dialogue. -/
inductive Speaks (config : WifiConfig) :
    Option ActiveCommand → Option (Command × List BackendCall) → Prop
  | silent : Speaks config none none
  | live {active : ActiveCommand} {command : Command} {calls : List BackendCall}
      (hs : active.sequence.get = command.sequence)
      (ht : talk config command.kind calls =
        some (.live active.operation active.cancelRequested)) :
      Speaks config (some active) (some (command, calls))

/-- The pending command waits with its request. -/
inductive Waits (config : WifiConfig) :
    Option (PendingCommand IncrementalRequest) → Option Command → Prop
  | nothing : Waits config none none
  | held {held : PendingCommand IncrementalRequest} {command : Command}
      (hs : held.sequence.get = command.sequence)
      (hr : held.command = requestOf config command.kind) :
      Waits config (some held) (some command)

/-- The driver has had the recorded dialogues with its backend. -/
structure Had (config : WifiConfig) (m : Minutes)
    (driver : IncrementalBackendDriver (BackendRecorder B)) : Prop where
  /-- The trace is made of the dialogues. -/
  calls : trace driver = m.calls
  /-- Each ended dialogue led to its completion. -/
  served : ∀ d ∈ m.log, d.Served config
  /-- The current dialogue is that of the active operation. -/
  current : Speaks config driver.arbiter.active m.current
  /-- The waiting command is pending. -/
  pending : Waits config driver.arbiter.pending m.pending

/-- How the minutes go on: all commands are kept, in the order of their starts, and a
terminal event ends one dialogue with its completion. -/
inductive GoesOn : Option IncrementalDriverEvent → Minutes → Minutes → Prop
  | still {event : Option IncrementalDriverEvent} {m next : Minutes}
      (he : ∀ x, event = some x → x.terminal = none) (hl : next.log = m.log)
      (hc : next.commands = m.commands) (ho : next.opened = m.opened) : GoesOn event m next
  | ended {event : IncrementalDriverEvent} {sequence : CommandSequence} {m next : Minutes}
      {d : Dialogue} (ht : event.terminal = some sequence) (hl : next.log = m.log ++ [d])
      (hs : d.command.sequence = sequence.get)
      (hk : d.kind = publishedKind (.fromCommand d.command.kind) event)
      (hc : next.commands = m.commands) (ho : next.opened = m.opened) :
      GoesOn (some event) m next

section Drives

variable {driver next : IncrementalBackendDriver (BackendRecorder B)} {config : WifiConfig}
  {m : Minutes} {active : ActiveCommand} {event : Option IncrementalDriverEvent}

/-- Without a call nothing is added. -/
theorem Had.silent (h : Had config m driver) (hb : trace next = trace driver)
    (ha : next.arbiter = driver.arbiter) (he : ∀ x, event = some x → x.terminal = none) :
    ∃ after, Had config after next ∧ GoesOn event m after := by
  refine ⟨m, ⟨hb.trans h.calls, h.served, ?_, ?_⟩, .still he rfl rfl rfl⟩
  · rw [ha]
    exact h.current
  · rw [ha]
    exact h.pending

/-- A call that leaves the operation live is added to the current dialogue. -/
theorem Had.says (h : Had config m driver) (ha : driver.arbiter.active = some active)
    {call : BackendCall} (hb : trace next = trace driver ++ [call]) {spoken : ActiveCommand}
    (hn : next.arbiter.active = some spoken) (hs : spoken.sequence = active.sequence)
    (hp : next.arbiter.pending = driver.arbiter.pending)
    (hh : ∀ kind, Exchange.hear config kind (.live active.operation active.cancelRequested) call =
      some (.live spoken.operation spoken.cancelRequested))
    (he : ∀ x, event = some x → x.terminal = none) :
    ∃ after, Had config after next ∧ GoesOn event m after := by
  obtain ⟨log, current, pending⟩ := m
  have hcurrent := h.current
  rw [ha] at hcurrent
  cases hcurrent with
  | @live _ command calls hseq ht =>
    have htalk : talk config command.kind (calls ++ [call]) =
        some (.live spoken.operation spoken.cancelRequested) := by
      rw [talk_concat, ht]
      exact hh command.kind
    have hcalls : trace next = Minutes.calls ⟨log, some (command, calls ++ [call]), pending⟩ := by
      have hold := h.calls
      simp only [Minutes.calls, Option.toList_some, List.flatMap_singleton] at hold ⊢
      rw [hb, hold, List.append_assoc]
    refine ⟨⟨log, some (command, calls ++ [call]), pending⟩, ⟨hcalls, h.served, ?_, ?_⟩,
      .still he rfl rfl rfl⟩
    · rw [hn]
      exact .live (by rw [hs]; exact hseq) htalk
    · rw [hp]
      exact h.pending

/-- The call that ends the operation ends the current dialogue. -/
theorem Had.ends (h : Had config m driver) (ha : driver.arbiter.active = some active)
    (next : IncrementalBackendDriver (BackendRecorder B)) (event : IncrementalDriverEvent)
    {call : BackendCall} (hb : trace next = trace driver ++ [call])
    (hn : next.arbiter.active = none) (hp : next.arbiter.pending = driver.arbiter.pending)
    (ht : event.terminal = some active.sequence)
    (hh : ∀ kind, Exchange.hear config kind (.live active.operation active.cancelRequested) call =
      some (.over (publishedKind (.fromCommand kind) event))) :
    ∃ after, Had config after next ∧ GoesOn (some event) m after := by
  obtain ⟨log, current, pending⟩ := m
  have hcurrent := h.current
  rw [ha] at hcurrent
  cases hcurrent with
  | @live _ command calls hseq htalk =>
    have hover : talk config command.kind (calls ++ [call]) =
        some (.over (publishedKind (.fromCommand command.kind) event)) := by
      rw [talk_concat, htalk]
      exact hh command.kind
    have hcalls : trace next = Minutes.calls ⟨log ++ [⟨command, calls ++ [call],
        publishedKind (.fromCommand command.kind) event⟩], none, pending⟩ := by
      have hold := h.calls
      simp only [Minutes.calls, Option.toList_some, List.flatMap_singleton, Option.toList_none,
        List.flatMap_append, List.flatMap_nil, List.append_nil] at hold ⊢
      rw [hb, hold, List.append_assoc]
    have hsome : (!(calls ++ [call]).isEmpty) = true := by simp
    refine ⟨⟨log ++ [⟨command, calls ++ [call], publishedKind (.fromCommand command.kind) event⟩],
      none, pending⟩, ⟨hcalls, ?_, ?_, ?_⟩, .ended ht rfl hseq.symm rfl ?_ ?_⟩
    · intro d hd
      rcases List.mem_append.mp hd with hold | hnew
      · exact h.served d hold
      · rw [List.mem_singleton.mp hnew]
        exact Or.inl hover
    · rw [hn]
      exact .silent
    · rw [hp]
      exact h.pending
    · simp [Minutes.commands]
    · simp [Minutes.opened]

/-- The start of the pending command begins a dialogue. -/
theorem Had.begins (h : Had config m driver) (ha : driver.arbiter.active = none)
    {held : PendingCommand IncrementalRequest} (hp : driver.arbiter.pending = some held)
    {id : OperationId} (hb : trace next = trace driver ++ [.start id held.command (.ok ())])
    {started : ActiveCommand} (hn : next.arbiter.active = some started)
    (hs : started.sequence = held.sequence) (hi : started.operation = id)
    (hc : started.cancelRequested = false) (hnone : next.arbiter.pending = none)
    (he : ∀ x, event = some x → x.terminal = none) :
    ∃ after, Had config after next ∧ GoesOn event m after := by
  obtain ⟨log, current, pending⟩ := m
  have hcurrent := h.current
  have hpending := h.pending
  rw [ha] at hcurrent
  rw [hp] at hpending
  cases hcurrent with
  | silent =>
    cases hpending with
    | @held _ command hseq hreq =>
      have htalk : talk config command.kind [.start id held.command (.ok ())] =
          some (.live started.operation started.cancelRequested) := by
        rw [hi, hc]
        exact if_pos hreq
      have hcalls : trace next = Minutes.calls
          ⟨log, some (command, [.start id held.command (.ok ())]), none⟩ := by
        have hold := h.calls
        simp only [Minutes.calls, Option.toList_some, List.flatMap_singleton, Option.toList_none,
          List.flatMap_nil, List.append_nil] at hold ⊢
        rw [hb, hold]
      refine ⟨⟨log, some (command, [.start id held.command (.ok ())]), none⟩,
        ⟨hcalls, h.served, ?_, ?_⟩, .still he rfl rfl rfl⟩
      · rw [hn]
        exact .live (by rw [hs]; exact hseq) htalk
      · rw [hnone]
        exact .nothing

/-- A refused start is a whole dialogue. -/
theorem Had.refused (h : Had config m driver) (ha : driver.arbiter.active = none)
    {held : PendingCommand IncrementalRequest} (hp : driver.arbiter.pending = some held)
    {id : OperationId} {error : BackendError}
    (hb : trace next = trace driver ++ [.start id held.command (.error error)])
    (hn : next.arbiter.active = none) (hnone : next.arbiter.pending = none) :
    ∃ after, Had config after next ∧ GoesOn (some (.failed held.sequence error false)) m after := by
  obtain ⟨log, current, pending⟩ := m
  have hcurrent := h.current
  have hpending := h.pending
  rw [ha] at hcurrent
  rw [hp] at hpending
  cases hcurrent with
  | silent =>
    cases hpending with
    | @held _ command hseq hreq =>
      have hover : talk config command.kind [.start id held.command (.error error)] =
          some (.over ((CommandKindTag.fromCommand command.kind).failed error)) := if_pos hreq
      have hcalls : trace next = Minutes.calls
          ⟨log ++ [⟨command, [.start id held.command (.error error)],
            (CommandKindTag.fromCommand command.kind).failed error⟩], none, none⟩ := by
        have hold := h.calls
        simp only [Minutes.calls, Option.toList_none, List.flatMap_append, List.flatMap_nil,
          List.flatMap_singleton, List.append_nil] at hold ⊢
        rw [hb, hold]
      refine ⟨_, ⟨hcalls, ?_, ?_, ?_⟩, .ended rfl rfl hseq.symm rfl ?_ ?_⟩
      · intro d hd
        rcases List.mem_append.mp hd with hold | hnew
        · exact h.served d hold
        · rw [List.mem_singleton.mp hnew]
          exact Or.inl hover
      · rw [hn]
        exact .silent
      · rw [hnone]
        exact .nothing
      · simp [Minutes.commands]
      · simp [Minutes.opened]

variable [IncrementalWifiBackend B] {n : ℕ} {scan : Vector ScanResult n} {ready : WaitSet}

/-- Event of a result. -/
def eventOf : EStateM.Result IncrementalDriverError
    (DriverFrame (BackendRecorder B) n) IncrementalDriverEvent → Option IncrementalDriverEvent
  | .ok event _ => some event
  | .error _ _ => none

omit [IncrementalWifiBackend B] in
/-- A final report ends the dialogue with what its event publishes. -/
theorem report_ended {disposition : PollDisposition} {event : IncrementalDriverEvent}
    (he : endedEvent active disposition = some event) (tag : CommandKindTag) :
    Exchange.report tag active.operation active.cancelRequested disposition =
      .over (publishedKind tag event) := by
  cases disposition with
  | complete completion =>
    cases he
    cases hc : active.cancelRequested with
    | true => rfl
    | false =>
      simp only [Exchange.report, Bool.false_eq_true, if_false, publishedKind]
      cases successfulCompletion tag completion <;> rfl
  | cancelled =>
    cases he
    rfl
  | pending waitFor => cases he
  | budgetExhausted waitFor => cases he

/-- Each outcome of a drive adds its call to one dialogue. -/
theorem Had.drive (h : Had config m driver)
    {result : EStateM.Result IncrementalDriverError (DriverFrame (BackendRecorder B) n)
      IncrementalDriverEvent}
    (hd : DriveOutcome driver scan ready result) :
    ∃ next, Had config next (after result).driver ∧ GoesOn (eventOf result) m next := by
  have hquiet : ∀ {event : IncrementalDriverEvent}, event.terminal = none →
      ∀ x, some event = some x → x.terminal = none := by
    rintro event ht x ⟨⟩
    exact ht
  cases hd with
  | idle ha hp => exact h.silent rfl rfl (hquiet rfl)
  | started held backend ha hp hb =>
    exact h.begins ha hp (start_calls hb) rfl rfl rfl rfl rfl (hquiet rfl)
  | startFailed held backend error ha hp hb => exact h.refused ha hp (start_calls hb) rfl rfl
  | cancelDelivered active backend ha hd hb =>
    refine h.says ha (cancel_calls hb) rfl rfl rfl (fun kind => ?_) (hquiet rfl)
    rw [not_requested_of_due hd]
    exact if_pos rfl
  | cancelFailed active backend error ha hd hb =>
    refine h.ends ha (released driver driver.runner backend) (.failed active.sequence error true)
      (cancel_calls hb) rfl rfl rfl fun kind => ?_
    rw [not_requested_of_due hd]
    exact if_pos rfl
  | waiting active waitFor runner ha hd hs => exact h.silent rfl rfl (hquiet rfl)
  | commandReady active runner ha hd hs => exact h.silent rfl rfl (fun _ hx => by cases hx)
  | pollFailed active reason runner error backend output ha hd hs hb =>
    exact h.ends ha (released driver runner backend)
      (.failed active.sequence error active.cancelRequested) (poll_calls hb) rfl rfl rfl
      fun kind => if_pos rfl
  | staleReport active reason runner report backend output ha hd hs hb hr =>
    refine h.says ha (poll_calls hb) ha rfl rfl (fun kind => ?_) (fun _ hx => by cases hx)
    exact (if_pos rfl).trans (if_neg hr)
  | kept active reason runner report backend output event waitFor ha hd hs hb hr he =>
    refine h.says ha (poll_calls hb) ha rfl rfl (fun kind => ?_) (hquiet (keptEvent_names he).1)
    refine (if_pos rfl).trans ((if_pos hr).trans ?_)
    cases hx : report.disposition <;> rw [hx] at he <;> cases he <;> rfl
  | ended active reason runner report backend output event ha hd hs hb hr he =>
    refine h.ends ha (released driver runner backend) event (poll_calls hb) rfl rfl
      (endedEvent_terminal he) fun kind => ?_
    refine (if_pos rfl).trans ((if_pos hr).trans (congrArg some ?_))
    exact report_ended he (.fromCommand kind)

end Drives

/-- The completions signalled so far are those of the ended dialogues, but for the one whose
terminal event waits to be published. -/
inductive Signalled : IncrementalPhase → List Dialogue → List Completion → Prop
  | all {phase : IncrementalPhase} {log : List Dialogue} (he : ended phase = none) :
      Signalled phase log (log.map Dialogue.completion)
  | owing {event : IncrementalDriverEvent} {sequence : CommandSequence} {before : List Dialogue}
      {d : Dialogue} (ht : event.terminal = some sequence)
      (hs : d.command.sequence = sequence.get)
      (hk : d.kind = publishedKind (.fromCommand d.command.kind) event) :
      Signalled (.publishing event) (before ++ [d]) (before.map Dialogue.completion)

/-- While no terminal event waits, all completions are signalled. -/
theorem Signalled.written {phase : IncrementalPhase} {log : List Dialogue}
    {written : List Completion} (h : Signalled phase log written) (he : ended phase = none) :
    written = log.map Dialogue.completion := by
  cases h with
  | all _ => rfl
  | owing ht hs hk =>
    rw [ended, ht] at he
    cases he

/-- A step without a terminal event on either side. -/
theorem Signalled.quiet {phase next : IncrementalPhase} {log : List Dialogue}
    {written after : List Completion} (h : Signalled phase log written) (he : ended phase = none)
    (hn : ended next = none) (hw : after = written) : Signalled next log after := by
  rw [hw, h.written he]
  exact .all hn

/-- The terminal event that waits is that of the last dialogue. -/
theorem Signalled.last {event : IncrementalDriverEvent} {sequence : CommandSequence}
    {log : List Dialogue} {written : List Completion}
    (h : Signalled (.publishing event) log written) (ht : event.terminal = some sequence) :
    ∃ before d, log = before ++ [d] ∧ written = before.map Dialogue.completion ∧
      d.command.sequence = sequence.get ∧
      d.kind = publishedKind (.fromCommand d.command.kind) event := by
  cases h with
  | all he =>
    rw [ended, ht] at he
    cases he
  | @owing _ x before d hx hs hk =>
    rw [ht] at hx
    cases hx
    exact ⟨before, d, rfl, rfl, hs, hk⟩

/-- No command is lost, and none overtakes another. -/
theorem GoesOn.kept {event : Option IncrementalDriverEvent} {m next : Minutes}
    (h : GoesOn event m next) : next.commands = m.commands ∧ next.opened = m.opened := by
  cases h with
  | still he hl hc ho => exact ⟨hc, ho⟩
  | ended ht hl hs hk hc ho => exact ⟨hc, ho⟩

/-- After a drive the completions so far are signalled. -/
theorem GoesOn.signalled {event : IncrementalDriverEvent} {m next : Minutes}
    (h : GoesOn (some event) m next) :
    Signalled (.publishing event) next.log (m.log.map Dialogue.completion) := by
  cases h with
  | still he hl hc ho =>
    rw [hl]
    exact .all (he event rfl)
  | ended ht hl hs hk hc ho =>
    rw [hl]
    exact .owing ht hs hk

/-- The minutes of a state: every received command is in them once, in the order of the
channel where the backend was called for it. -/
structure Kept (config : WifiConfig) (m : Minutes)
    (s : IncrementalSystem (BackendRecorder B) eventCapacity) : Prop where
  /-- The driver has had the dialogues. -/
  had : Had config m s.frame.runner.driver
  /-- The defaults of the runner. -/
  defaults : s.frame.runner.config = config
  /-- Every received command is recorded. -/
  received : (m.commands ++ (entering s.phase).toList).Perm s.frame.shared.commands.received
  /-- The dialogues began in the order of the commands. -/
  order : (m.opened ++ (entering s.phase).toList).Sublist s.frame.shared.commands.received
  /-- The completions are those of the dialogues. -/
  signalled : Signalled s.phase m.log s.frame.shared.completion.written

section Config

variable [IncrementalWifiBackend B] {s : IncrementalSystem B eventCapacity}
  {t : Service eventCapacity}

/-- A publication leaves the defaults alone. -/
theorem published_config (sequence : CommandSequence)
    (kind : CommandKindTag) (event : IncrementalDriverEvent) (frame : FacadeFrame B eventCapacity) :
    (published sequence kind event frame).runner.config = frame.runner.config := by
  unfold published
  split
  · split <;> rfl
  · rfl
  · rfl
  · rfl

/-- The runner keeps its defaults, and submits a command with the request made of them. -/
theorem runnerStep_config (ready : WaitSet) (hs : Simulates s t) (hb : Bounded t) :
    (runnerStep ready s).1.frame.runner.config = s.frame.runner.config ∧
    ∀ command ready', s.phase = .submitting command ready' →
      ∀ held, (runnerStep ready s).1.frame.runner.driver.arbiter.pending = some held →
        held.command = requestOf s.frame.runner.config command.kind := by
  obtain ⟨held, hi, hh⟩ := hs.inflight
  unfold runnerStep
  cases hp : s.phase with
  | idle =>
    refine ⟨?_, fun _ _ hx => by cases hx⟩
    by_cases hc : s.frame.runner.driver.canSubmit = true
    · cases hq : s.frame.shared.commands.queued with
      | nil =>
        have hn : receiveCommand (beginCall ready s.frame) = (none, beginCall ready s.frame) :=
          receiveCommand_none (Or.inl hq)
        simp only [hn]
        rfl
      | cons command rest =>
        have hn := @receiveCommand_some _ _ (beginCall ready s.frame) command rest hc hq
        simp only [hn]
        rfl
    · have hn : receiveCommand (beginCall ready s.frame) = (none, beginCall ready s.frame) :=
        receiveCommand_none (Or.inr (Bool.eq_false_iff.mpr hc))
      simp only [hn]
      rfl
  | submitting command ready' =>
    obtain ⟨sequence, hv, hg⟩ := entering_valid hs hb hp
    rw [hp] at hh
    simp only [acceptCommand_submitted hv (hh.room (hs.room command ready' hp))
      (hs.room command ready' hp)]
    refine ⟨trivial, ?_⟩
    rintro c r ⟨⟩ held' hheld
    cases hheld
    rfl
  | sampling ready' =>
    refine ⟨?_, fun _ _ hx => by cases hx⟩
    cases hq : s.frame.shared.cancellations.queued with
    | nil => simp only [receiveCancellation_none hq]
    | cons x rest => simp only [receiveCancellation_some hq]
  | requesting x ready' =>
    refine ⟨?_, fun _ _ hx => by cases hx⟩
    obtain ⟨sequence, rfl⟩ := taken_valid hs hb hp
    rw [hp] at hh
    by_cases hk : s.frame.runner.driver.arbiter.activeSequence = some sequence ∨
        s.frame.runner.driver.arbiter.pendingSequence ≠ some sequence
    · simp only [requestCancellation_kept hk]
      rfl
    · rw [not_or, not_not] at hk
      obtain ⟨before, command, kind, -, -, hkind, -⟩ := hh.remove hk.2
      simp only [requestCancellation_removed hk.1 hk.2 hkind]
      exact published_config ..
  | driving ready' =>
    refine ⟨?_, fun _ _ hx => by cases hx⟩
    cases hx : IncrementalBackendDriver.driveOnce (ready'.without .cancel)
      ⟨s.frame.runner.driver, s.frame.shared.scanResults⟩ with
    | ok event drive =>
      simp only [driveBackend_ok hx]
      rfl
    | error error drive =>
      simp only [driveBackend_error hx]
      rfl
  | publishing event =>
    refine ⟨?_, fun _ _ hx => by cases hx⟩
    rw [hp] at hh
    cases ht : event.terminal with
    | none =>
      have hn : publishDriven event s.frame = .ok () s.frame :=
        withCleanup_ok (publishTerminal_of_none ht)
      simp only [hn]
    | some sequence =>
      simp only [ended, ht] at hh
      obtain ⟨command, rest, kind, -, -, hk, -⟩ := hh.publish
      have hpub := publishTerminal_of_some ht hk
      by_cases hmis : mismatched kind event = true
      · rw [if_pos hmis] at hpub
        have hx : publishDriven event s.frame = .error .completionMismatch
            (FacadeFrame.countProtocolError (published sequence kind event
              (FacadeFrame.ledgerField.set (s.frame.runner.ledger.remove sequence).2 s.frame))) :=
          withCleanup_error hpub
        simp only [hx]
        exact published_config ..
      · rw [if_neg hmis] at hpub
        have hx : publishDriven event s.frame = .ok () (published sequence kind event
            (FacadeFrame.ledgerField.set (s.frame.runner.ledger.remove sequence).2 s.frame)) :=
          withCleanup_ok hpub
        simp only [hx]
        exact published_config ..

end Config

section Steps

variable {s : IncrementalSystem (BackendRecorder B) eventCapacity} {t : Service eventCapacity}
  {config : WifiConfig} {m : Minutes}

/-- The ledger has the kind of the received command. -/
theorem kind_of_ledger (hs : Simulates s t) (hd : Delivers t) (h : Kinds s)
    {sequence : CommandSequence} {kind : CommandKindTag}
    (hk : (s.frame.runner.ledger.remove sequence).1 = some kind) {command : Command}
    (hc : command ∈ s.frame.shared.commands.received) (hseq : command.sequence = sequence.get) :
    kind = .fromCommand command.kind := by
  obtain ⟨other, hreceived, hother, hkind⟩ := h _ (mem_of_remove hk)
  rw [← hs.shared] at hc hreceived
  have hsame : other = command := hd.traffic.sequence_inj (mem_sent_of_received hreceived)
    (mem_sent_of_received hc) (hother.trans hseq.symm)
  rw [← hsame]
  exact hkind

/-- The same driver has had the same dialogues. -/
theorem Had.of_driver {driver next : IncrementalBackendDriver (BackendRecorder B)}
    (h : Had config m driver) (hn : next = driver) : Had config m next := by
  rw [hn]
  exact h

/-- A submitted command waits behind the others. -/
theorem Had.submit {driver : IncrementalBackendDriver (BackendRecorder B)}
    (h : Had config m driver) (hp : driver.arbiter.pending = none) {command : Command}
    {sequence : CommandSequence} (hs : sequence.get = command.sequence) :
    ∃ next, Had config next
        (submittedDriver sequence (requestOf config command.kind) driver) ∧
      next.log = m.log ∧ next.commands = m.commands ++ [command] ∧
      next.opened = m.opened ++ [command] := by
  obtain ⟨log, current, pending⟩ := m
  have hpending := h.pending
  rw [hp] at hpending
  cases hpending with
  | nothing =>
    refine ⟨⟨log, current, some command⟩, ⟨h.calls, h.served, h.current, .held hs rfl⟩, rfl, ?_, ?_⟩
    · simp [Minutes.commands]
    · simp [Minutes.opened]

/-- A cancellation that removes no command is no call. -/
theorem Had.request {driver : IncrementalBackendDriver (BackendRecorder B)}
    (h : Had config m driver) {sequence : CommandSequence}
    (hk : driver.arbiter.activeSequence = some sequence ∨
      driver.arbiter.pendingSequence ≠ some sequence) :
    Had config m (after (IncrementalBackendDriver.requestCancel sequence driver)) := by
  rw [requestCancel_apply, after_ok]
  have he := CommandArbiter.requestCancel_effect sequence driver.arbiter
  have hcurrent := h.current
  generalize CommandArbiter.requestCancel sequence driver.arbiter = effect at he
  cases he with
  | requestActive active ha hs hr hi =>
    refine ⟨h.calls, h.served, ?_, h.pending⟩
    rw [ha] at hcurrent
    generalize m.current = current at hcurrent
    cases hcurrent with
    | live hseq ht => exact .live hseq ht
  | alreadyRequested active ha hs hr => exact ⟨h.calls, h.served, hcurrent, h.pending⟩
  | removePending hs hp =>
    rcases hk with hk | hk
    · exact (hs hk).elim
    · exact (hk hp).elim
  | notFound hs hp => exact ⟨h.calls, h.served, hcurrent, h.pending⟩

/-- A pending command that is removed ends without a call. -/
theorem Had.remove {driver : IncrementalBackendDriver (BackendRecorder B)}
    (h : Had config m driver) {sequence : CommandSequence}
    (hp : driver.arbiter.pendingSequence = some sequence) :
    ∃ command next, Had config next (removedDriver driver) ∧ command ∈ m.commands ∧
      command.sequence = sequence.get ∧
      next.log = m.log ++ [⟨command, [], cancelledKind (.fromCommand command.kind)⟩] ∧
      next.commands.Perm m.commands ∧ next.opened.Sublist m.opened := by
  obtain ⟨log, current, pending⟩ := m
  have hpending := h.pending
  unfold CommandArbiter.pendingSequence at hp
  obtain ⟨held, hheld, hsequence⟩ := Option.map_eq_some_iff.mp hp
  rw [hheld] at hpending
  cases hpending with
  | @held _ command hseq hr =>
    refine ⟨command, ⟨log ++ [⟨command, [], cancelledKind (.fromCommand command.kind)⟩], current,
      none⟩, ⟨?_, ?_, h.current, .nothing⟩, ?_, ?_, rfl, ?_, ?_⟩
    · have hold := h.calls
      simp only [Minutes.calls, List.flatMap_append, List.flatMap_singleton, List.append_nil]
        at hold ⊢
      exact hold
    · intro d hd
      rcases List.mem_append.mp hd with hold | hnew
      · exact h.served d hold
      · rw [List.mem_singleton.mp hnew]
        exact Or.inr ⟨rfl, rfl⟩
    · simp [Minutes.commands]
    · rw [← hseq, hsequence]
    · simp only [Minutes.commands, List.map_append, List.map_singleton, Option.toList_none,
        Option.toList_some, List.append_nil, List.append_assoc]
      exact List.Perm.append_left _ List.perm_append_comm
    · simp [Minutes.opened]

/-- A step that receives no command goes on with the minutes. -/
theorem Kept.go (h : Kept config m s) {frame : FacadeFrame (BackendRecorder B) eventCapacity}
    {phase : IncrementalPhase} {next : Minutes} (hhad : Had config next frame.runner.driver)
    (hconfig : frame.runner.config = s.frame.runner.config) (he : entering s.phase = none)
    (hn : entering phase = none) (hcommands : frame.shared.commands = s.frame.shared.commands)
    (hall : next.commands.Perm m.commands) (hopened : next.opened.Sublist m.opened)
    (hsignalled : Signalled phase next.log frame.shared.completion.written) :
    Kept config next {s with frame := frame, phase := phase} := by
  have hperm := h.received
  have horder := h.order
  rw [he, Option.toList_none, List.append_nil] at hperm horder
  refine ⟨hhad, hconfig.trans h.defaults, ?_, ?_, hsignalled⟩
  · show (next.commands ++ (entering phase).toList).Perm frame.shared.commands.received
    rw [hn, hcommands, Option.toList_none, List.append_nil]
    exact hall.trans hperm
  · show (next.opened ++ (entering phase).toList).Sublist frame.shared.commands.received
    rw [hn, hcommands, Option.toList_none, List.append_nil]
    exact hopened.trans horder

/-- A step that ends no command either leaves the minutes alone. -/
theorem Kept.pass (h : Kept config m s) {frame : FacadeFrame (BackendRecorder B) eventCapacity}
    {phase : IncrementalPhase} (hhad : Had config m frame.runner.driver)
    (hconfig : frame.runner.config = s.frame.runner.config) (he : entering s.phase = none)
    (hn : entering phase = none) (hx : ended s.phase = none) (hy : ended phase = none)
    (hcommands : frame.shared.commands = s.frame.shared.commands)
    (hwritten : frame.shared.completion.written = s.frame.shared.completion.written) :
    Kept config m {s with frame := frame, phase := phase} :=
  h.go hhad hconfig he hn hcommands (.refl _) (.refl _) (h.signalled.quiet hx hy hwritten)

/-- Commands of the minutes were received. -/
theorem Kept.mem_received (h : Kept config m s) {command : Command} (hc : command ∈ m.commands) :
    command ∈ s.frame.shared.commands.received :=
  h.received.mem_iff.mp (List.mem_append_left _ hc)

/-- A received command is recorded behind the others. -/
theorem Kept.receive (h : Kept config m s) {command : Command} {rest : List Command}
    (ready : WaitSet) {frame : FacadeFrame (BackendRecorder B) eventCapacity}
    (hp : s.phase = .idle) (hq : s.frame.shared.commands.queued = command :: rest)
    (hconfig : frame.runner.config = s.frame.runner.config) (ho : frame.owner = s.frame.owner)
    (hm : frame.shared.mailbox = {s.frame.shared.mailbox with
      commands := s.frame.shared.commands.tryReceive.2}) :
    Kept config m {s with frame := frame, phase := .submitting command ready} := by
  have hreceived : frame.shared.commands.received =
      s.frame.shared.commands.received ++ [command] :=
    (congrArg (fun x => x.commands.received) hm).trans (tryReceive_of_cons hq).2.1
  have hperm := h.received
  have horder := h.order
  simp only [hp, entering, Option.toList_none, List.append_nil] at hperm horder
  refine ⟨h.had.of_driver (congrArg Owner.driver ho), hconfig.trans h.defaults, ?_, ?_,
    h.signalled.quiet (by rw [hp]; rfl) rfl (congrArg (fun x => x.completion.written) hm)⟩
  · show (m.commands ++ [command]).Perm frame.shared.commands.received
    rw [hreceived]
    exact hperm.append_right _
  · show (m.opened ++ [command]).Sublist frame.shared.commands.received
    rw [hreceived]
    exact horder.append_right _

/-- The entered command waits behind the others, with the request made of the defaults. -/
theorem Kept.submit (h : Kept config m s) {command : Command} {ready : WaitSet}
    {sequence : CommandSequence} {ledger : CommandLedger}
    {frame : FacadeFrame (BackendRecorder B) eventCapacity}
    (hp : s.phase = .submitting command ready) (hroom : s.frame.runner.driver.canSubmit = true)
    (hseq : sequence.get = command.sequence)
    (hconfig : frame.runner.config = s.frame.runner.config)
    (ho : frame.owner =
      ⟨submittedDriver sequence (requestOf config command.kind) s.frame.runner.driver, ledger⟩)
    (hm : frame.shared.mailbox = s.frame.shared.mailbox) :
    ∃ next, Kept config next {s with frame := frame, phase := .sampling ready} := by
  have hfree : s.frame.runner.driver.arbiter.pending = none :=
    Option.isNone_iff_eq_none.mp hroom
  have hcommands : frame.shared.commands = s.frame.shared.commands :=
    congrArg Mailbox.commands hm
  have hperm := h.received
  have horder := h.order
  simp only [hp, entering, Option.toList_some] at hperm horder
  obtain ⟨next, hhad, hlog, hall, hopened⟩ := h.had.submit hfree hseq
  refine ⟨next, hhad.of_driver (congrArg Owner.driver ho), hconfig.trans h.defaults, ?_, ?_, ?_⟩
  · show (next.commands ++ []).Perm frame.shared.commands.received
    rw [List.append_nil, hall, hcommands]
    exact hperm
  · show (next.opened ++ []).Sublist frame.shared.commands.received
    rw [List.append_nil, hopened, hcommands]
    exact horder
  · rw [hlog]
    exact h.signalled.quiet (by rw [hp]; rfl) rfl (congrArg (fun x => x.completion.written) hm)

/-- A removed command ends with the completion that is signalled for it. -/
theorem Kept.removed (h : Kept config m s) (hs : Simulates s t) (hd : Delivers t) (hk : Kinds s)
    {sequence : CommandSequence} {kind : CommandKindTag} {ready : WaitSet} {ledger : CommandLedger}
    {frame : FacadeFrame (BackendRecorder B) eventCapacity}
    (hp : s.phase = .requesting sequence.get ready)
    (hpend : s.frame.runner.driver.arbiter.pendingSequence = some sequence)
    (hkind : (s.frame.runner.ledger.remove sequence).1 = some kind)
    (hconfig : frame.runner.config = s.frame.runner.config)
    (ho : frame.owner = ⟨removedDriver s.frame.runner.driver, ledger⟩)
    (hm : frame.shared.mailbox = {s.frame.shared.mailbox with
      completion := s.frame.shared.completion.signal
        ⟨sequence.get, publishedKind kind (.cancelled sequence false)⟩}) :
    ∃ next, Kept config next {s with frame := frame, phase := .idle} := by
  have hwritten : frame.shared.completion.written = s.frame.shared.completion.written ++
      [⟨sequence.get, publishedKind kind (.cancelled sequence false)⟩] :=
    congrArg (fun x => x.completion.written) hm
  have hold := h.signalled.written (by rw [hp]; rfl)
  obtain ⟨command, next, hhad, hmem, hseq, hlog, hall, hopened⟩ := h.had.remove hpend
  have htag := kind_of_ledger hs hd hk hkind (h.mem_received hmem) hseq
  have hnew : frame.shared.completion.written = next.log.map Dialogue.completion := by
    rw [hwritten, hold, hlog, htag, List.map_append, ← hseq]
    rfl
  refine ⟨next, h.go (hhad.of_driver (congrArg Owner.driver ho)) hconfig (by rw [hp]; rfl) rfl
    (congrArg Mailbox.commands hm) hall hopened ?_⟩
  rw [hnew]
  exact .all rfl

/-- A publication signals the completion of the last dialogue. -/
theorem Kept.published (h : Kept config m s) (hs : Simulates s t) (hd : Delivers t) (hk : Kinds s)
    {event : IncrementalDriverEvent} {sequence : CommandSequence} {kind : CommandKindTag}
    {ledger : CommandLedger} {frame : FacadeFrame (BackendRecorder B) eventCapacity}
    (hp : s.phase = .publishing event) (ht : event.terminal = some sequence)
    (hkind : (s.frame.runner.ledger.remove sequence).1 = some kind)
    (hconfig : frame.runner.config = s.frame.runner.config)
    (ho : frame.owner = ⟨s.frame.runner.driver, ledger⟩)
    (hm : frame.shared.mailbox = {s.frame.shared.mailbox with
      completion := s.frame.shared.completion.signal ⟨sequence.get, publishedKind kind event⟩}) :
    Kept config m {s with frame := frame, phase := .idle} := by
  have hwritten : frame.shared.completion.written = s.frame.shared.completion.written ++
      [⟨sequence.get, publishedKind kind event⟩] :=
    congrArg (fun x => x.completion.written) hm
  have hsignalled := h.signalled
  rw [hp] at hsignalled
  obtain ⟨before, d, hlog, hold, hseq, hpublished⟩ := hsignalled.last ht
  have hmem : d.command ∈ m.commands := by
    rw [Minutes.commands, hlog, List.map_append]
    simp
  have htag := kind_of_ledger hs hd hk hkind (h.mem_received hmem) hseq
  have hnew : frame.shared.completion.written = m.log.map Dialogue.completion := by
    rw [hwritten, hold, hlog, List.map_append, htag, ← hpublished, ← hseq]
    rfl
  refine h.go (h.had.of_driver (congrArg Owner.driver ho)) hconfig (by rw [hp]; rfl) rfl
    (congrArg Mailbox.commands hm) (.refl _) (.refl _) ?_
  rw [hnew]
  exact .all rfl

variable [IncrementalWifiBackend B]

/-- A drive adds to the current dialogue, or begins or ends one. -/
theorem Kept.driven (h : Kept config m s) {ready : WaitSet} {event : IncrementalDriverEvent}
    {drive : DriverFrame (BackendRecorder B) maxScanResults} {ledger : CommandLedger}
    {frame : FacadeFrame (BackendRecorder B) eventCapacity} (hp : s.phase = .driving ready)
    (hdrive : DriveOutcome s.frame.runner.driver s.frame.shared.scanResults
      (ready.without .cancel) (.ok event drive))
    (hconfig : frame.runner.config = s.frame.runner.config)
    (ho : frame.owner = ⟨drive.driver, ledger⟩)
    (hm : frame.shared.mailbox = {s.frame.shared.mailbox with scanResults := drive.scanOutput}) :
    ∃ next, Kept config next {s with frame := frame, phase := .publishing event} := by
  have hwritten : frame.shared.completion.written = s.frame.shared.completion.written :=
    congrArg (fun x => x.completion.written) hm
  have hold := h.signalled.written (by rw [hp]; rfl)
  obtain ⟨next, hhad, hgoes⟩ := h.had.drive hdrive
  obtain ⟨hall, hopened⟩ := hgoes.kept
  refine ⟨next, h.go (hhad.of_driver (congrArg Owner.driver ho)) hconfig (by rw [hp]; rfl) rfl
    (congrArg Mailbox.commands hm) (.of_eq hall) (hopened ▸ List.Sublist.refl _) ?_⟩
  rw [hwritten, hold]
  exact hgoes.signalled

/-- A failed drive ends no dialogue. -/
theorem Kept.failed (h : Kept config m s) {ready : WaitSet} {error : IncrementalDriverError}
    {drive : DriverFrame (BackendRecorder B) maxScanResults} {ledger : CommandLedger}
    {frame : FacadeFrame (BackendRecorder B) eventCapacity} (hp : s.phase = .driving ready)
    (hdrive : DriveOutcome s.frame.runner.driver s.frame.shared.scanResults
      (ready.without .cancel) (.error error drive))
    (hconfig : frame.runner.config = s.frame.runner.config)
    (ho : frame.owner = ⟨drive.driver, ledger⟩)
    (hm : frame.shared.mailbox = {s.frame.shared.mailbox with scanResults := drive.scanOutput}) :
    ∃ next, Kept config next {s with frame := frame, phase := .idle} := by
  obtain ⟨next, hhad, hgoes⟩ := h.had.drive hdrive
  obtain ⟨hall, hopened⟩ := hgoes.kept
  have hlog : next.log = m.log := by
    cases hgoes
    assumption
  refine ⟨next, h.go (hhad.of_driver (congrArg Owner.driver ho)) hconfig (by rw [hp]; rfl) rfl
    (congrArg Mailbox.commands hm) (.of_eq hall) (hopened ▸ List.Sublist.refl _) ?_⟩
  rw [hlog]
  exact h.signalled.quiet (by rw [hp]; rfl) rfl (congrArg (fun x => x.completion.written) hm)

/-- Every step of the runner keeps the minutes. -/
theorem Kept.runner (ready : WaitSet) (hs : Simulates s t) (hd : Delivers t) (hk : Kinds s)
    (h : Kept config m s) : ∃ next, Kept config next (runnerStep ready s).1 := by
  have hb := hd.bounded
  have he := runnerStep_effect ready hs hb
  obtain ⟨hconfig, hrequest⟩ := runnerStep_config ready hs hb
  generalize runnerStep ready s = next at he hconfig hrequest
  cases he with
  | received command rest ready' frame hp hc hq ho hm =>
    exact ⟨m, h.receive ready' hp hq hconfig ho hm⟩
  | unreceived ready' frame hp hn ho hm =>
    exact ⟨m, h.pass (h.had.of_driver (congrArg Owner.driver ho)) hconfig (by rw [hp]; rfl) rfl
      (by rw [hp]; rfl) rfl (congrArg Mailbox.commands hm)
      (congrArg (fun x => x.completion.written) hm)⟩
  | submitted command ready' sequence request frame hp hseq ho hm =>
    have hdriver : frame.runner.driver =
        submittedDriver sequence request s.frame.runner.driver := congrArg Owner.driver ho
    have hrequested : request = requestOf config command.kind := by
      rw [← h.defaults]
      refine hrequest command ready' hp ⟨sequence, request⟩ ?_
      show frame.runner.driver.arbiter.pending = _
      rw [hdriver]
      rfl
    subst hrequested
    exact h.submit hp (hs.room command ready' hp) hseq hconfig ho hm
  | sampled x rest ready' frame hp hq ho hm =>
    exact ⟨m, h.pass (h.had.of_driver (congrArg Owner.driver ho)) hconfig (by rw [hp]; rfl) rfl
      (by rw [hp]; rfl) rfl (congrArg Mailbox.commands hm)
      (congrArg (fun x => x.completion.written) hm)⟩
  | unsampled ready' hp hq =>
    exact ⟨m, h.pass h.had rfl (by rw [hp]; rfl) rfl (by rw [hp]; rfl) rfl rfl rfl⟩
  | requested sequence ready' frame hp hkept ho hm =>
    exact ⟨m, h.pass ((h.had.request hkept).of_driver (congrArg Owner.driver ho)) hconfig
      (by rw [hp]; rfl) rfl (by rw [hp]; rfl) rfl (congrArg Mailbox.commands hm)
      (congrArg (fun x => x.completion.written) hm)⟩
  | removed sequence kind ready' frame hp ha hpend hkind ho hm =>
    exact h.removed hs hd hk hp hpend hkind hconfig ho hm
  | driven ready' event drive frame hp hdrive ho hm => exact h.driven hp hdrive hconfig ho hm
  | failed ready' error drive frame hp hdrive ho hm => exact h.failed hp hdrive hconfig ho hm
  | published event sequence kind frame hp ht hkind ho hm =>
    exact ⟨m, h.published hs hd hk hp ht hkind hconfig ho hm⟩
  | unpublished event hp ht =>
    exact ⟨m, h.pass h.had rfl (by rw [hp]; rfl) rfl (by rw [hp]; exact ht) rfl rfl rfl⟩

/-- Every step of the system keeps the minutes. -/
theorem Kept.next (interrupt : E → B → B) (hs : Simulates s t) (hd : Delivers t) (hk : Kinds s)
    (h : Kept config m s) (input : IncrementalInput E) : ∃ next, Kept config next
      ((incrementalMachine (recordedInterrupt interrupt)).next s input) := by
  cases input with
  | control step =>
    have hf := control_forwards (step_effect s.plane s.frame.shared step)
    refine ⟨m, h.had, h.defaults, ?_, ?_, ?_⟩
    · show (m.commands ++ _).Perm (s.plane.step s.frame.shared step).2.mailbox.commands.received
      rw [hf.commandsReceived]
      exact h.received
    · show (m.opened ++ _).Sublist (s.plane.step s.frame.shared step).2.mailbox.commands.received
      rw [hf.commandsReceived]
      exact h.order
    · show Signalled s.phase m.log (s.plane.step s.frame.shared step).2.mailbox.completion.written
      rw [hf.written]
      exact h.signalled
  | runner ready => exact h.runner ready hs hd hk
  | backendEvent event =>
    exact ⟨m, ⟨h.had.calls, h.had.served, h.had.current, h.had.pending⟩, h.defaults, h.received,
      h.order, h.signalled⟩

end Steps

section Runs

variable [IncrementalWifiBackend B] (interrupt : E → B → B) (backend : B) (budget : WorkBudget)
  (config : WifiConfig) (hpos : 0 < eventCapacity)

/-- A run of the incremental runner over a recorded backend. -/
def dialogueRun (inputs : List (IncrementalInput E)) :
    IncrementalSystem (BackendRecorder B) eventCapacity :=
  incrementalRun (recordedInterrupt interrupt) ⟨backend, []⟩ budget config hpos inputs

/-- Every state of a run below the wrap has its minutes. -/
theorem run_kept (inputs : List (IncrementalInput E))
    (hb : (dialogueRun interrupt backend budget config hpos inputs).plane.allocated < 2 ^ 32 - 1) :
    ∃ t m, Simulates (dialogueRun interrupt backend budget config hpos inputs) t ∧ Delivers t ∧
      Kinds (dialogueRun interrupt backend budget config hpos inputs) ∧
      Kept config m (dialogueRun interrupt backend budget config hpos inputs) := by
  refine run_invariant_below (incrementalMachine (recordedInterrupt interrupt))
    (I := fun s => ∃ t m, Simulates s t ∧ Delivers t ∧ Kinds s ∧ Kept config m s)
    (B := fun s => s.plane.allocated < 2 ^ 32 - 1) ?_ ?_ ?_ inputs hb
  · have hkept : Kept config .new (incrementalStart (⟨backend, []⟩ : BackendRecorder B) budget
        config hpos) :=
      ⟨⟨rfl, fun d hd => (by cases hd), .silent, .nothing⟩, rfl, .refl _, .refl _, .all rfl⟩
    exact ⟨_, _, simulates_start _ budget config hpos, delivers_new hpos,
      fun _ he => (by cases he), hkept⟩
  · exact fun before input hlt =>
      Nat.lt_of_le_of_lt (allocated_le_next (recordedInterrupt interrupt) input) hlt
  · rintro s input hlt ⟨t, m, hs, hd, hk, h⟩
    obtain ⟨u, hstep, hu⟩ := simulates_step (recordedInterrupt interrupt) hs hd.bounded input
    obtain ⟨next, hnext⟩ := h.next interrupt hs hd hk input
    refine ⟨u, next, hu, service_delivers hd hstep ?_,
      kinds_step (recordedInterrupt interrupt) hs hd.bounded hk input, hnext⟩
    rw [hu.plane]
    exact hlt

/-- Whatever interleaves, the trace of the backend is made of one dialogue for each command,
with the request of that command and in the order of the channel, each ended before the next
begins; every received command is in the minutes once, and the completions signalled are
exactly those that the ended dialogues determine. -/
theorem commands_dialogue (inputs : List (IncrementalInput E))
    (hb : (dialogueRun interrupt backend budget config hpos inputs).plane.allocated < 2 ^ 32 - 1) :
    ∃ m : Minutes,
      let s := dialogueRun interrupt backend budget config hpos inputs
      trace s.frame.runner.driver = m.calls ∧
      (∀ d ∈ m.log, d.Served config) ∧
      (∀ command calls, m.current = some (command, calls) →
        ∃ id cancelled, talk config command.kind calls = some (.live id cancelled)) ∧
      (m.commands ++ (entering s.phase).toList).Perm s.frame.shared.commands.received ∧
      (m.opened ++ (entering s.phase).toList).Sublist s.frame.shared.commands.sent ∧
      Signalled s.phase m.log s.frame.shared.completion.written ∧
      (s.phase = .idle → s.frame.shared.completion.written = m.log.map Dialogue.completion) := by
  obtain ⟨t, m, hs, hd, hk, h⟩ := run_kept interrupt backend budget config hpos inputs hb
  refine ⟨m, h.had.calls, h.had.served, ?_, h.received, ?_, h.signalled, ?_⟩
  · intro command calls hc
    have hcurrent := h.had.current
    rw [hc] at hcurrent
    generalize (dialogueRun interrupt backend budget config hpos
      inputs).frame.runner.driver.arbiter.active = active at hcurrent
    cases hcurrent with
    | live hseq ht => exact ⟨_, _, ht⟩
  · exact h.order.trans (List.sublist_append_left _ _)
  · intro hp
    refine h.signalled.written ?_
    rw [hp]
    rfl

end Runs

/-- A disconnection that is sent and served. -/
def servedDisconnection : List (IncrementalInput Unit) :=
  [.control (.call .disconnect), .control .allocate, .control .send] ++
    List.replicate 9 (.runner .backend)

/-- A run over a recorded backend that completes a disconnection. -/
def completedRun : IncrementalSystem (BackendRecorder ReplayBackend) 1 :=
  dialogueRun (fun _ backend => backend) completingBackend smallestBudget .default Nat.one_pos
    servedDisconnection

/-- The disconnection has one dialogue. -/
theorem commands_dialogue_disconnection :
    ∃ m : Minutes, trace completedRun.frame.runner.driver = m.calls ∧ m.log.length = 1 := by
  have hb : completedRun.plane.allocated < 2 ^ 32 - 1 := by decide +kernel
  have hidle : completedRun.phase = .idle := by decide +kernel
  have hwritten : completedRun.frame.shared.completion.written.length = 1 := by decide +kernel
  obtain ⟨m, hcalls, -, -, -, -, -, hsignalled⟩ := commands_dialogue (fun _ backend => backend)
    completingBackend smallestBudget .default Nat.one_pos servedDisconnection hb
  refine ⟨m, hcalls, ?_⟩
  have hlength := congrArg List.length (hsignalled hidle)
  rw [List.length_map] at hlength
  exact hlength.symm.trans hwritten

end HisiRfCore.CommandDialogues
