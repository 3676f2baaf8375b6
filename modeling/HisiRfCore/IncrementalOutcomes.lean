import HisiRfCore.AwaitedCalls
import HisiRfCore.IncrementalService

/-!
# The incremental runner serves the outcomes

An incremental backend that reaches the given outcomes, one for each operation: a
start may fail with the error of the outcome, and any number of polls may leave the
operation pending before one of them ends it. The runner owns the one command it was
given, and publishes the outcome with the completion that it signals.
-/

namespace HisiRfCore.IncrementalOutcomes

open StateBorrow BoundedChannel WifiTypes RadioStorage AsyncControl IncrementalContract
open CommandArbitration BackendDriver DriverCoherence DriverCalls IncrementalFacade
open IncrementalInterleaving IncrementalService AwaitedCalls InputOutputMachine

variable {B E : Type} {eventCapacity : ℕ}

/-- What a backend is doing for the outcomes. -/
inductive Activity
  | waiting (left : List Outcome)
  | running (id : OperationId) (o : Outcome) (rest : List Outcome)
  | finished (o : Outcome) (rest : List Outcome)

section Backend

/-- A report of the running operation keeps it running or ends it with its outcome. -/
def Reaches (Q : Activity → B → Prop) (id : OperationId) (o : Outcome) (rest : List Outcome)
    (next : B) (output : ScanBuffer) : PollDisposition → Prop
  | .pending _ | .budgetExhausted _ => Q (.running id o rest) next
  | .complete completion =>
    o.answer = .ok completion ∧ o.Leaves output ∧ Q (.finished o rest) next
  | .cancelled => False

variable [IncrementalWifiBackend B]

/-- A backend whose states with outcomes left reach the next outcome by the next
operation, after any number of polls. -/
structure Answers (interrupt : E → B → B) (config : WifiConfig) (budget : WorkBudget)
    (Q : Activity → B → Prop) : Prop where
  /-- Outside events change no outcome. -/
  interrupted : ∀ {activity backend} (event : E), Q activity backend →
    Q activity (interrupt event backend)
  /-- A start is accepted, or fails with the error of the outcome. -/
  started : ∀ {o rest backend} (id : OperationId), Q (.waiting (o :: rest)) backend →
    match IncrementalWifiBackend.start backend id (requestOf config o.call.command) with
    | (.ok (), next) => Q (.running id o rest) next
    | (.error error, next) => o.answer = .error error ∧ Q (.finished o rest) next
  /-- A poll reports the operation, or fails with the error of the outcome. -/
  polled : ∀ {id o rest backend} (reason : WakeReason) (buffer : ScanBuffer),
    Q (.running id o rest) backend →
    match IncrementalWifiBackend.poll backend id reason budget buffer with
    | (.ok report, next, output) =>
      report.operation = id ∧ Reaches Q id o rest next output report.disposition
    | (.error error, next, _) => o.answer = .error error ∧ Q (.finished o rest) next
  /-- After a successful initialization the identity is that of the outcome. -/
  identified : ∀ {o rest backend}, Q (.finished o rest) backend →
    o.answer = .ok .initialized → IncrementalWifiBackend.l2Capabilities backend = o.capabilities
  /-- An ended operation gives way to the next one. -/
  released : ∀ {o rest backend}, Q (.finished o rest) backend → Q (.waiting rest) backend

end Backend

/-- What a runner owns: two command slots and the entries of its ledger. -/
structure Owns (owner : Owner B) (active : Option ActiveCommand)
    (pending : Option (PendingCommand IncrementalRequest))
    (entries : List (CommandSequence × CommandKindTag)) : Prop where
  /-- The driver is between two calls. -/
  coherent : Coherent owner.driver
  /-- The active slot. -/
  active : owner.driver.arbiter.active = active
  /-- The pending slot. -/
  pending : owner.driver.arbiter.pending = pending
  /-- The entries of the ledger. -/
  entries : owner.ledger.entries = entries

/-- The backend has no operation, or runs that of the next outcome. -/
inductive Held (Q : Activity → B → Prop) (left : List Outcome) (owner : Owner B) :
    Option Command → Prop
  | free (ho : Owns owner none none []) (hq : Q (.waiting left) owner.driver.backend) :
      Held Q left owner none
  | active (command : Command) (active : ActiveCommand) (o : Outcome) (rest : List Outcome)
      (hs : active.sequence.get = command.sequence) (hi : active.cancelIntent = false)
      (hr : active.cancelRequested = false)
      (ho : Owns owner (some active) none [(active.sequence, .fromCommand command.kind)])
      (hl : left = o :: rest)
      (hq : Q (.running active.operation o rest) owner.driver.backend) :
      Held Q left owner (some command)

/-- Terminal event of an operation that ends with the outcome. -/
def terminalEvent (sequence : CommandSequence) (o : Outcome) : IncrementalDriverEvent :=
  match o.answer with
  | .ok completion => .completed sequence completion
  | .error error => .failed sequence error false

/-- An operation that ends with an error leaves nothing in the scan buffer. -/
theorem leaves_of_error {o : Outcome} {error : BackendError} (h : o.answer = .error error)
    (buffer : ScanBuffer) : o.Leaves buffer := by
  intro outcome hx
  rw [h] at hx
  cases hx

/-- Phases between a command's submission and its terminal event. -/
def passes : IncrementalPhase → Bool
  | .submitting _ _ | .requesting _ _ => false
  | .publishing event => event.terminal.isNone
  | .idle | .sampling _ | .driving _ => true

/-- Where the runner stands with the command it was given. -/
inductive Place (Q : Activity → B → Prop) (config : WifiConfig) (left : List Outcome)
    (owner : Owner B) (buffer : ScanBuffer) : Option Command → IncrementalPhase → Prop
  | held (busy : Option Command) (phase : IncrementalPhase) (hn : passes phase = true)
      (h : Held Q left owner busy) : Place Q config left owner buffer busy phase
  | entering (command : Command) (ready : WaitSet) (ho : Owns owner none none [])
      (hq : Q (.waiting left) owner.driver.backend) :
      Place Q config left owner buffer (some command) (.submitting command ready)
  | pending (command : Command) (sequence : CommandSequence) (phase : IncrementalPhase)
      (hn : ∃ ready, phase = .sampling ready ∨ phase = .driving ready)
      (hs : sequence.get = command.sequence)
      (ho : Owns owner none (some ⟨sequence, requestOf config command.kind⟩)
        [(sequence, .fromCommand command.kind)])
      (hq : Q (.waiting left) owner.driver.backend) :
      Place Q config left owner buffer (some command) phase
  | ended (command : Command) (sequence : CommandSequence) (o : Outcome) (rest : List Outcome)
      (event : IncrementalDriverEvent) (hs : sequence.get = command.sequence)
      (ho : Owns owner none none [(sequence, .fromCommand command.kind)]) (hl : left = o :: rest)
      (hq : Q (.finished o rest) owner.driver.backend) (hb : o.Leaves buffer)
      (he : event = terminalEvent sequence o) :
      Place Q config left owner buffer (some command) (.publishing event)

/-- What the incremental runner keeps about the outcomes. -/
structure Work (config : WifiConfig) (budget : WorkBudget) (Q : Activity → B → Prop)
    (served left : List Outcome) (busy : Option Command)
    (s : IncrementalSystem B eventCapacity) : Prop where
  /-- The defaults of the runner. -/
  defaults : s.frame.runner.config = config
  /-- The grant of each poll. -/
  grant : s.frame.runner.driver.budget = budget
  /-- The served outcomes are published. -/
  published : Published served s.frame.shared
  /-- The command it was given. -/
  place : Place Q config left s.frame.owner s.frame.shared.scanResults busy s.phase

/-- Controller step that an input is. -/
def controlStep : IncrementalInput E → Option ControlStep
  | .control step => some step
  | _ => none

section Drives

variable [IncrementalWifiBackend B] {interrupt : E → B → B} {config : WifiConfig}
  {budget : WorkBudget} {Q : Activity → B → Prop} {left : List Outcome} {busy : Option Command}
  {owner : Owner B} {buffer : ScanBuffer} {ready : WaitSet}
  {result : EStateM.Result IncrementalDriverError (DriverFrame B maxScanResults)
    IncrementalDriverEvent}

/-- What a drive leaves behind: its event has a place, and the scan buffer is written only
for a command. -/
def Driven (config : WifiConfig) (budget : WorkBudget) (Q : Activity → B → Prop)
    (left : List Outcome) (busy : Option Command) (ledger : CommandLedger) (buffer : ScanBuffer)
    (result : EStateM.Result IncrementalDriverError (DriverFrame B maxScanResults)
      IncrementalDriverEvent) : Prop :=
  (after result).driver.budget = budget ∧
  ((after result).scanOutput = buffer ∨ busy ≠ none) ∧
  Place Q config left ⟨(after result).driver, ledger⟩ (after result).scanOutput busy
    (match result with
      | .ok event _ => .publishing event
      | .error _ _ => .idle)

/-- A drive without a command does nothing. -/
theorem driven_free (hb : owner.driver.budget = budget) (ho : Owns owner none none [])
    (hq : Q (.waiting left) owner.driver.backend)
    (hd : DriveOutcome owner.driver buffer ready result) :
    Driven config budget Q left none owner.ledger buffer result := by
  rcases hd.of_inactive ho.active with ⟨-, rfl⟩ | ⟨held, hp, -⟩
  · exact ⟨hb, Or.inl rfl, .held none _ rfl (.free ho hq)⟩
  · cases ho.pending.symm.trans hp

/-- A drive starts the pending command, or ends it with the error of its outcome. -/
theorem driven_pending (hA : Answers interrupt config budget Q) {command : Command}
    {sequence : CommandSequence} {o : Outcome} {rest : List Outcome}
    (hs : sequence.get = command.sequence) (hk : o.call.command = command.kind)
    (hb : owner.driver.budget = budget)
    (ho : Owns owner none (some ⟨sequence, requestOf config command.kind⟩)
      [(sequence, .fromCommand command.kind)])
    (hq : Q (.waiting (o :: rest)) owner.driver.backend)
    (hd : DriveOutcome owner.driver buffer ready result) :
    Driven config budget Q (o :: rest) (some command) owner.ledger buffer result := by
  have hcoherent := (drive_move ho.coherent hd).1
  have hstart := hA.started (freshId owner.driver) hq
  rcases hd.of_inactive ho.active with ⟨hp, -⟩ | ⟨held, hp, hbackend⟩
  · cases ho.pending.symm.trans hp
  cases ho.pending.symm.trans hp
  rcases hbackend with ⟨backend, hx, rfl⟩ | ⟨backend, error, hx, rfl⟩
  · rw [hk, hx] at hstart
    refine ⟨hb, Or.inr (Option.some_ne_none _), .held _ _ rfl ?_⟩
    exact .active command _ o rest hs rfl rfl ⟨hcoherent, rfl, rfl, ho.entries⟩ rfl hstart
  · rw [hk, hx] at hstart
    obtain ⟨herror, hfinished⟩ := hstart
    refine ⟨hb, Or.inr (Option.some_ne_none _), ?_⟩
    refine .ended command sequence o rest _ hs ⟨hcoherent, rfl, rfl, ho.entries⟩ rfl hfinished
      (leaves_of_error herror _) ?_
    rw [terminalEvent, herror]

/-- A drive polls the active operation at most, and only its outcome ends it. -/
theorem driven_active (hA : Answers interrupt config budget Q) {command : Command}
    {active : ActiveCommand} {o : Outcome} {rest : List Outcome}
    (hs : active.sequence.get = command.sequence) (hi : active.cancelIntent = false)
    (hr : active.cancelRequested = false) (hb : owner.driver.budget = budget)
    (ho : Owns owner (some active) none [(active.sequence, .fromCommand command.kind)])
    (hq : Q (.running active.operation o rest) owner.driver.backend)
    (hd : DriveOutcome owner.driver buffer ready result) :
    Driven config budget Q (o :: rest) (some command) owner.ledger buffer result := by
  have hactive := ho.active
  have hpending := ho.pending
  have hcoherent := (drive_move ho.coherent hd).1
  have hdue : cancelDue owner.driver active = false := by
    simp [cancelDue, hpending, hi]
  have hpoll := fun reason => hA.polled reason buffer hq
  rw [← hb] at hpoll
  cases hd with
  | idle ha hp => cases hactive.symm.trans ha
  | started held backend ha hp hx => cases hactive.symm.trans ha
  | startFailed held backend error ha hp hx => cases hactive.symm.trans ha
  | cancelDelivered active' backend ha hd hx =>
    cases hactive.symm.trans ha
    cases hdue.symm.trans hd
  | cancelFailed active' backend error ha hd hx =>
    cases hactive.symm.trans ha
    cases hdue.symm.trans hd
  | waiting active' waitFor runner ha hd hsel =>
    refine ⟨hb, Or.inl rfl, .held _ _ rfl ?_⟩
    exact .active command active o rest hs hi hr ⟨hcoherent, hactive, hpending, ho.entries⟩ rfl hq
  | commandReady active' runner ha hd hsel =>
    refine ⟨hb, Or.inl rfl, .held _ _ rfl ?_⟩
    exact .active command active o rest hs hi hr ⟨hcoherent, hactive, hpending, ho.entries⟩ rfl hq
  | pollFailed active' reason runner error backend output ha hd hsel hx =>
    cases hactive.symm.trans ha
    have hanswer := hpoll reason
    rw [hx] at hanswer
    obtain ⟨herror, hfinished⟩ := hanswer
    refine ⟨hb, Or.inr (Option.some_ne_none _), ?_⟩
    refine .ended command active.sequence o rest _ hs ⟨hcoherent, rfl, hpending, ho.entries⟩ rfl
      hfinished (leaves_of_error herror _) ?_
    rw [terminalEvent, herror, hr]
  | staleReport active' reason runner report backend output ha hd hsel hx hrep =>
    cases hactive.symm.trans ha
    have hanswer := hpoll reason
    rw [hx] at hanswer
    exact (hrep hanswer.1).elim
  | kept active' reason runner report backend output event waitFor ha hd hsel hx hrep he =>
    cases hactive.symm.trans ha
    have hanswer := hpoll reason
    rw [hx] at hanswer
    have hrunning : Q (.running active.operation o rest) backend := by
      cases hdisposition : report.disposition with
      | pending waitFor' => simpa only [hdisposition, Reaches] using hanswer.2
      | budgetExhausted waitFor' => simpa only [hdisposition, Reaches] using hanswer.2
      | _ =>
        rw [hdisposition] at he
        cases he
    refine ⟨hb, Or.inr (Option.some_ne_none _), .held _ _ ?_ ?_⟩
    · show event.terminal.isNone = true
      rw [(keptEvent_names he).1]
      rfl
    · exact .active command active o rest hs hi hr ⟨hcoherent, hactive, hpending, ho.entries⟩ rfl
        hrunning
  | ended active' reason runner report backend output event ha hd hsel hx hrep he =>
    cases hactive.symm.trans ha
    have hanswer := hpoll reason
    rw [hx] at hanswer
    obtain ⟨-, hreaches⟩ := hanswer
    cases hdisposition : report.disposition with
    | complete completion =>
      rw [hdisposition] at hreaches he
      obtain ⟨hsuccess, hleaves, hfinished⟩ := hreaches
      simp only [endedEvent, hr, Bool.false_eq_true, if_false, Option.some.injEq] at he
      refine ⟨hb, Or.inr (Option.some_ne_none _), ?_⟩
      refine .ended command active.sequence o rest _ hs ⟨hcoherent, rfl, hpending, ho.entries⟩
        rfl hfinished hleaves ?_
      rw [← he, terminalEvent, hsuccess]
    | cancelled =>
      rw [hdisposition] at hreaches
      exact hreaches.elim
    | _ =>
      rw [hdisposition] at he
      cases he

end Drives

section Ledger

variable {ledger : CommandLedger} {sequence : CommandSequence} {kind : CommandKindTag}

/-- An empty ledger takes the entry. -/
theorem entries_insert (h : ledger.entries = []) :
    (ledger.insert sequence kind).2.entries = [(sequence, kind)] := by
  have hroom : ledger.entries.length < 2 := by
    rw [h]
    exact Nat.zero_lt_two
  have hperm := (CommandLedger.insert_of_length hroom sequence kind).2
  rw [h, List.nil_append] at hperm
  exact List.perm_singleton.mp hperm

/-- A ledger of one entry returns its kind and is empty afterwards. -/
theorem entries_remove (h : ledger.entries = [(sequence, kind)]) :
    (ledger.remove sequence).1 = some kind ∧ (ledger.remove sequence).2.entries = [] := by
  have hmem : sequence ∈ ledger.entries.map Prod.fst := by
    rw [h]
    exact List.mem_singleton.mpr rfl
  obtain ⟨held, hk, hperm⟩ := CommandLedger.remove_of_mem hmem
  rw [h] at hperm
  have hsame := List.singleton_perm.mp hperm
  rw [List.cons.injEq, Prod.mk.injEq] at hsame
  rw [hk, ← hsame.1.2]
  exact ⟨rfl, hsame.2.symm⟩

end Ledger

section Publication

variable [IncrementalWifiBackend B] {sequence : CommandSequence} {o : Outcome}
  {frame : FacadeFrame B eventCapacity}

/-- A success of the call's own kind is published with its completion and its event. -/
theorem successfulCompletion_own (completion : IncrementalCompletion) :
    successfulCompletion completion.tag completion = some (successOf completion) := by
  cases completion <;> rfl

/-- The terminal event of an outcome publishes its identity, its event and its completion. -/
theorem published_outcome
    (hi : o.answer = .ok .initialized →
      IncrementalWifiBackend.l2Capabilities frame.runner.driver.backend = o.capabilities) :
    mismatched (.fromCommand o.call.command) (terminalEvent sequence o) = false ∧
    published sequence (.fromCommand o.call.command) (terminalEvent sequence o) frame =
      {frame with shared := ((frame.shared.publishCapabilities o.identity).publishEvent
        o.event).signalCompletion sequence.get o.completion} := by
  cases ha : o.answer with
  | error error =>
    have hevent : terminalEvent sequence o = .failed sequence error false := by
      rw [terminalEvent, ha]
    rw [hevent]
    refine ⟨rfl, ?_⟩
    simp only [published, FacadeFrame.publishFailed, Outcome.identity, Outcome.event,
      Outcome.completion, ha]
    rfl
  | ok completion =>
    have hevent : terminalEvent sequence o = .completed sequence completion := by
      rw [terminalEvent, ha]
    have hown := successfulCompletion_own completion
    rw [o.own completion ha] at hown
    rw [hevent]
    refine ⟨by simp only [mismatched, hown, Option.isNone_some], ?_⟩
    have hidentity : (if CommandKindTag.fromCommand o.call.command = .initialise then
        IncrementalWifiBackend.l2Capabilities frame.runner.driver.backend else none) =
        o.identity := by
      rw [← o.own completion ha, Outcome.identity, ha]
      cases completion with
      | initialized => exact hi ha
      | _ => rfl
    simp only [published, hown, publishSuccess, hidentity, Outcome.event, Outcome.completion, ha]

end Publication

section Steps

variable [IncrementalWifiBackend B] {interrupt : E → B → B} {config : WifiConfig}
  {budget : WorkBudget} {Q : Activity → B → Prop} {served left : List Outcome}
  {busy : Option Command} {s : IncrementalSystem B eventCapacity}

/-- The outcomes are served up to a state whose runner keeps them. -/
def Serving (config : WifiConfig) (budget : WorkBudget) (Q : Activity → B → Prop)
    (outcomes : List Outcome) (plane : ControlPlane) (s : IncrementalSystem B eventCapacity) :
    Prop :=
  ∃ served left busy, served ++ left = outcomes ∧
    Awaits served left busy plane s.frame.shared.mailbox ∧ Work config budget Q served left busy s

omit [IncrementalWifiBackend B] in
/-- A runner with an empty pending slot has room for a command. -/
theorem Owns.canSubmit {owner : Owner B} {active : Option ActiveCommand}
    {entries : List (CommandSequence × CommandKindTag)} (h : Owns owner active none entries) :
    owner.driver.canSubmit = true := by
  rw [IncrementalBackendDriver.canSubmit, CommandArbiter.canSubmit, h.pending]
  rfl

omit [IncrementalWifiBackend B] in
/-- Between two calls the runner takes the queued command, if there is one. -/
theorem serving_idle (ready : WaitSet)
    (hw : Awaits served left busy s.plane s.frame.shared.mailbox)
    (hdefaults : s.frame.runner.config = config)
    (hgrant : s.frame.runner.driver.budget = budget) (hp : Published served s.frame.shared)
    (h : Held Q left s.frame.owner busy) :
    ∃ received frame, receiveCommand (beginCall ready s.frame) = (received, frame) ∧
      Serving config budget Q (served ++ left) s.plane {s with
        frame := frame
        phase := match received with
          | some command => .submitting command ready
          | none => .sampling ready} := by
  cases hq : s.frame.shared.commands.queued with
  | nil =>
    have hnone : receiveCommand (beginCall ready s.frame) = (none, beginCall ready s.frame) :=
      receiveCommand_none (Or.inl hq)
    exact ⟨_, _, hnone, served, left, busy, rfl, hw, hdefaults, hgrant,
      ⟨hp.events, hp.identity⟩, .held _ _ rfl h⟩
  | cons command commands =>
    have hfree := hw.queued hq
    subst hfree
    cases h with
    | free ho hleft =>
      have hsome := @receiveCommand_some _ _ (beginCall ready s.frame) command commands
        ho.canSubmit hq
      exact ⟨_, _, hsome, served, left, some command, rfl, hw.take hq, hdefaults, hgrant,
        ⟨hp.events, hp.identity⟩, .entering command ready ho hleft⟩

omit [IncrementalWifiBackend B] in
/-- A received command becomes the pending one. -/
theorem serving_submitting {command : Command} (ready : WaitSet)
    (hw : Awaits served left (some command) s.plane s.frame.shared.mailbox)
    (hdefaults : s.frame.runner.config = config)
    (hgrant : s.frame.runner.driver.budget = budget) (hp : Published served s.frame.shared)
    (ho : Owns s.frame.owner none none []) (hq : Q (.waiting left) s.frame.owner.driver.backend) :
    ∃ frame, acceptCommand command s.frame = .ok () frame ∧
      Serving config budget Q (served ++ left) s.plane
        {s with frame := frame, phase := .sampling ready} := by
  obtain ⟨hz, -⟩ := hw.working
  obtain ⟨sequence, hv, hs⟩ := CommandSequence.tryFromRaw_of_ne_zero hz
  have hroom : s.frame.runner.ledger.entries.length < 2 := by
    have hentries : s.frame.runner.ledger.entries = [] := ho.entries
    rw [hentries]
    exact Nat.zero_lt_two
  refine ⟨_, acceptCommand_submitted hv hroom ho.canSubmit, served, left, some command, rfl, hw,
    hdefaults, hgrant, ⟨hp.events, hp.identity⟩, ?_⟩
  refine .pending command sequence _ ⟨ready, Or.inl rfl⟩ hs ?_ hq
  refine ⟨⟨ho.coherent.notStarting, ho.coherent.tracked⟩, ho.active, ?_, entries_insert ho.entries⟩
  rw [← hdefaults]
  rfl

/-- A drive keeps the outcomes, whatever its result. -/
theorem serving_driving (ready : WaitSet)
    (hw : Awaits served left busy s.plane s.frame.shared.mailbox)
    (hdefaults : s.frame.runner.config = config) (hp : Published served s.frame.shared)
    (hc : Coherent s.frame.runner.driver)
    (hd : ∀ result, DriveOutcome s.frame.runner.driver s.frame.shared.scanResults
        (ready.without .cancel) result →
      Driven config budget Q left busy s.frame.runner.ledger s.frame.shared.scanResults result) :
    (∃ event frame, driveBackend ready s.frame = .ok event frame ∧
      Serving config budget Q (served ++ left) s.plane
        {s with frame := frame, phase := .publishing event}) ∨
    ∃ error frame, driveBackend ready s.frame = .error error frame ∧
      Serving config budget Q (served ++ left) s.plane
        {s with frame := frame, phase := .idle} := by
  have houtcome := hd _ (driveOnce_outcome hc s.frame.shared.scanResults (ready.without .cancel))
  have hawait : ∀ output : ScanBuffer, (output = s.frame.shared.scanResults ∨ busy ≠ none) →
      Awaits served left busy s.plane {s.frame.shared.mailbox with scanResults := output} := by
    intro output ho
    cases busy with
    | some command => exact hw.write output
    | none =>
      rcases ho with rfl | hne
      · exact hw
      · exact (hne rfl).elim
  cases hx : IncrementalBackendDriver.driveOnce (ready.without .cancel)
    ⟨s.frame.runner.driver, s.frame.shared.scanResults⟩ with
  | ok event drive =>
    rw [hx] at houtcome
    obtain ⟨hgrant, hwrite, hplace⟩ := houtcome
    exact Or.inl ⟨_, _, driveBackend_ok hx, served, left, busy, rfl, hawait _ hwrite, hdefaults,
      hgrant, ⟨hp.events, hp.identity⟩, hplace⟩
  | error error drive =>
    rw [hx] at houtcome
    obtain ⟨hgrant, hwrite, hplace⟩ := houtcome
    exact Or.inr ⟨_, _, driveBackend_error hx, served, left, busy, rfl, hawait _ hwrite, hdefaults,
      hgrant, ⟨hp.events, hp.identity⟩, hplace⟩

/-- The terminal event of an operation serves the next outcome. -/
theorem serving_ended (hA : Answers interrupt config budget Q) {command : Command}
    {sequence : CommandSequence} {o : Outcome} {rest : List Outcome}
    (hw : Awaits served (o :: rest) (some command) s.plane s.frame.shared.mailbox)
    (hdefaults : s.frame.runner.config = config)
    (hgrant : s.frame.runner.driver.budget = budget) (hp : Published served s.frame.shared)
    (hs : sequence.get = command.sequence)
    (ho : Owns s.frame.owner none none [(sequence, .fromCommand command.kind)])
    (hq : Q (.finished o rest) s.frame.owner.driver.backend)
    (hb : o.Leaves s.frame.shared.scanResults) :
    ∃ frame, publishDriven (terminalEvent sequence o) s.frame = .ok () frame ∧
      Serving config budget Q (served ++ o :: rest) s.plane
        {s with frame := frame, phase := .idle} := by
  obtain ⟨-, x, later, hx, hk⟩ := hw.working
  cases hx
  obtain ⟨hremoved, hempty⟩ := entries_remove ho.entries
  have ht : (terminalEvent sequence o).terminal = some sequence := by
    unfold terminalEvent
    cases o.answer <;> rfl
  rw [← hk] at hremoved
  have hpublish := @publishTerminal_of_some _ _ _ s.frame _ sequence _ ht hremoved
  obtain ⟨hmatch, hframe⟩ := @published_outcome _ _ _ sequence o
    (FacadeFrame.ledgerField.set (s.frame.runner.ledger.remove sequence).2 s.frame)
    (hA.identified hq)
  rw [hmatch, if_neg Bool.false_ne_true, hframe] at hpublish
  refine ⟨_, withCleanup_ok hpublish, served ++ [o], rest, none, ?_, ?_, hdefaults, hgrant, ?_, ?_⟩
  · rw [List.append_assoc]
    rfl
  · have hreply := hw.reply hb
    have hm := SharedState.publishEvent_mailbox o.event
      (s.frame.shared.publishCapabilities o.identity)
    rw [SharedState.publishCapabilities_mailbox] at hm
    have hsignal : ∀ shared : SharedState eventCapacity, shared.mailbox = s.frame.shared.mailbox →
        Awaits (served ++ [o]) rest none s.plane
          (shared.signalCompletion sequence.get o.completion).mailbox := by
      intro shared he
      rw [← he, ← hs] at hreply
      exact hreply
    exact hsignal _ hm
  · exact ⟨(hp.publish o).events, (hp.publish o).identity⟩
  · exact .held none _ rfl (.free ⟨ho.coherent, ho.active, ho.pending, hempty⟩
      (hA.released hq))

/-- Every runner step serves the outcomes in order. -/
theorem serving_runner (hA : Answers interrupt config budget Q) (ready : WaitSet)
    (hw : Awaits served left busy s.plane s.frame.shared.mailbox)
    (h : Work config budget Q served left busy s) :
    Serving config budget Q (served ++ left) s.plane (runnerStep ready s).1 := by
  obtain ⟨hdefaults, hgrant, hp, hplace⟩ := h
  have hcancel : s.frame.shared.cancellations.queued = [] := hw.cancellations
  unfold runnerStep
  generalize s.phase = phase at hplace
  cases hplace with
  | held _ _ hn h =>
    cases phase with
    | idle =>
      obtain ⟨received, frame, hx, hserving⟩ := serving_idle ready hw hdefaults hgrant hp h
      simp only [hx]
      cases received <;> exact hserving
    | submitting command ready' => cases hn
    | sampling ready' =>
      simp only [receiveCancellation_none hcancel]
      exact ⟨served, left, busy, rfl, hw, hdefaults, hgrant, hp, .held _ _ rfl h⟩
    | requesting taken ready' => cases hn
    | driving ready' =>
      have hdrive : Coherent s.frame.runner.driver ∧ ∀ result,
          DriveOutcome s.frame.runner.driver s.frame.shared.scanResults
            (ready'.without .cancel) result →
          Driven config budget Q left busy s.frame.runner.ledger s.frame.shared.scanResults
            result := by
        cases h with
        | free ho hq => exact ⟨ho.coherent, fun _ hd => driven_free hgrant ho hq hd⟩
        | active command active o rest hs hi hr ho hl hq =>
          subst hl
          exact ⟨ho.coherent, fun _ hd => driven_active hA hs hi hr hgrant ho hq hd⟩
      rcases serving_driving ready' hw hdefaults hp hdrive.1 hdrive.2 with
        ⟨event, frame, hx, hserving⟩ | ⟨error, frame, hx, hserving⟩
      · simp only [hx]
        exact hserving
      · simp only [hx]
        exact hserving
    | publishing event =>
      have hnone : publishDriven event s.frame = .ok () s.frame :=
        withCleanup_ok (publishTerminal_of_none (Option.isNone_iff_eq_none.mp hn))
      simp only [hnone]
      exact ⟨served, left, busy, rfl, hw, hdefaults, hgrant, hp, .held _ _ rfl h⟩
  | entering command ready' ho hq =>
    obtain ⟨frame, haccept, hserving⟩ := serving_submitting ready' hw hdefaults hgrant hp ho hq
    simp only [haccept]
    exact hserving
  | pending command sequence _ hn hs ho hq =>
    obtain ⟨ready', rfl | rfl⟩ := hn
    · simp only [receiveCancellation_none hcancel]
      exact ⟨served, left, some command, rfl, hw, hdefaults, hgrant, hp,
        .pending command sequence _ ⟨ready', Or.inr rfl⟩ hs ho hq⟩
    · obtain ⟨-, o, rest, rfl, hk⟩ := hw.working
      rcases serving_driving ready' hw hdefaults hp ho.coherent
        (fun _ hd => driven_pending hA hs hk hgrant ho hq hd) with
        ⟨event, frame, hx, hserving⟩ | ⟨error, frame, hx, hserving⟩
      · simp only [hx]
        exact hserving
      · simp only [hx]
        exact hserving
  | ended command sequence o rest event hs ho hl hq hb he =>
    subst hl he
    obtain ⟨frame, hpublish, hserving⟩ := serving_ended hA hw hdefaults hgrant hp hs ho hq hb
    simp only [hpublish]
    exact hserving

/-- An outside event takes no outcome away. -/
theorem Place.interrupted (hA : Answers interrupt config budget Q) (event : E) {owner : Owner B}
    {buffer : ScanBuffer} {phase : IncrementalPhase}
    (h : Place Q config left owner buffer busy phase) :
    Place Q config left
      {owner with driver := {owner.driver with backend := interrupt event owner.driver.backend}}
      buffer busy phase := by
  have howns : ∀ {active pending entries}, Owns owner active pending entries →
      Owns {owner with driver := {owner.driver with
        backend := interrupt event owner.driver.backend}} active pending entries :=
    fun ho => ⟨⟨ho.coherent.notStarting, ho.coherent.tracked⟩, ho.active, ho.pending, ho.entries⟩
  cases h with
  | held _ _ hn h =>
    refine .held busy phase hn ?_
    cases h with
    | free ho hq => exact .free (howns ho) (hA.interrupted event hq)
    | active command active o rest hs hi hr ho hl hq =>
      exact .active command active o rest hs hi hr (howns ho) hl (hA.interrupted event hq)
  | entering command ready ho hq =>
    exact .entering command ready (howns ho) (hA.interrupted event hq)
  | pending command sequence _ hn hs ho hq =>
    exact .pending command sequence phase hn hs (howns ho) (hA.interrupted event hq)
  | ended command sequence o rest event' hs ho hl hq hb he =>
    exact .ended command sequence o rest event' hs (howns ho) hl (hA.interrupted event hq) hb he

/-- The incremental runner serves the outcomes of its backend. -/
theorem serves_outcomes (hA : Answers interrupt config budget Q) :
    Serves (incrementalMachine interrupt) (fun s : IncrementalSystem B eventCapacity => s.plane)
      (fun s => s.frame.shared) controlStep (Work config budget Q) := by
  constructor
  · intro served left busy s i step hi h
    cases i with
    | control step' =>
      have hscan : (s.plane.step s.frame.shared step').2.scanResults = s.frame.shared.scanResults :=
        (control_forwards (step_effect s.plane s.frame.shared step')).scanResults
      refine ⟨h.defaults, h.grant, h.published.control s.plane step', ?_⟩
      have hplace := h.place
      rw [← hscan] at hplace
      exact hplace
    | _ => cases hi
  · intro served left busy s i hi hw h
    cases i with
    | control step => cases hi
    | runner ready => exact serving_runner hA ready hw h
    | backendEvent event =>
      exact ⟨served, left, busy, rfl, hw, h.defaults, h.grant, h.published,
        h.place.interrupted hA event⟩

/-- Only the controller's inputs move its side of the incremental system. -/
theorem hosts_controller (interrupt : E → B → B) :
    Hosts (incrementalMachine interrupt) (fun s : IncrementalSystem B eventCapacity => s.plane)
      (fun s => s.frame.shared) controlStep := by
  constructor
  · intro s i step hi
    cases i with
    | control step' =>
      cases hi
      rfl
    | _ => cases hi
  · intro s i hi
    cases i with
    | control step => cases hi
    | runner ready => exact runnerStep_plane ready s
    | backendEvent event => rfl

end Steps

section Runs

variable [IncrementalWifiBackend B] {interrupt : E → B → B} {config : WifiConfig}
  {budget : WorkBudget} {backend : B} {outcomes : List Outcome} {hpos : 0 < eventCapacity}
  {inputs : List (IncrementalInput E)}

/-- The backend reaches the outcomes by its next operations. -/
def Plays (interrupt : E → B → B) (config : WifiConfig) (budget : WorkBudget)
    (outcomes : List Outcome) (backend : B) : Prop :=
  ∃ Q, Answers interrupt config budget Q ∧ Q (.waiting outcomes) backend

/-- Awaited calls resolve with the outcomes, and the runner publishes them in order. -/
theorem run_outcomes (hb : Plays interrupt config budget outcomes backend)
    (hr : Resolves outcomes (issuedCalls controlStep inputs)
      (incrementalRun interrupt backend budget config hpos inputs).plane) :
    results (incrementalRun interrupt backend budget config hpos inputs).plane =
        outcomes.map Outcome.result ∧
      Published outcomes
        (incrementalRun interrupt backend budget config hpos inputs).frame.shared := by
  obtain ⟨Q, hA, hstart⟩ := hb
  obtain ⟨hresults, hwork⟩ := awaited_run (hosts_controller interrupt) (serves_outcomes hA)
    rfl (awaits_new outcomes hpos)
    ⟨rfl, rfl, published_new hpos, .held none .idle rfl
      (.free ⟨new_coherent backend budget, rfl, rfl, rfl⟩ hstart)⟩ hr
  exact ⟨hresults, hwork.published⟩

end Runs

end HisiRfCore.IncrementalOutcomes
