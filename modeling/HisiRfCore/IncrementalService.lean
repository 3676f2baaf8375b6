import HisiRfCore.IncrementalInterleaving
import HisiRfCore.ServiceDelivery

/-!
# The incremental runner provides the command service

The commands in flight are the active and the pending command of the driver,
with a received command behind them and an ended one in front. The ledger holds
the same sequences. Each atomic step of the runner has one of the effects listed
here, and is one step of the service; no step needs the sequences to be distinct.
-/

namespace HisiRfCore.IncrementalService

open StateBorrow BoundedChannel WifiTypes RadioStorage AsyncControl ServiceProtocol
open ServiceDelivery IncrementalContract CommandArbitration BackendDriver DriverCoherence
open DriverCalls IncrementalFacade IncrementalInterleaving InputOutputMachine

variable {B E : Type} {eventCapacity : ℕ}

/-- Sequence of a terminal event that waits to be published. -/
def ended : IncrementalPhase → Option CommandSequence
  | .publishing event => event.terminal
  | _ => none

/-- Command received and not yet submitted. -/
def entering : IncrementalPhase → Option Command
  | .submitting command _ => some command
  | _ => none

/-- Driver and ledger own the given commands, with an ended sequence in front. -/
structure Holds (owner : Owner B) (ended : Option CommandSequence) (held : List Command) :
    Prop where
  /-- The driver is between two calls. -/
  coherent : Coherent owner.driver
  /-- The commands are those of the driver, in order. -/
  sequences : held.map Command.sequence =
    (ended.toList ++ owner.driver.arbiter.owned).map CommandSequence.get
  /-- The ledger holds the same sequences. -/
  ledger : (owner.ledger.entries.map Prod.fst).Perm (ended.toList ++ owner.driver.arbiter.owned)

section Holds

variable {owner : Owner B} {held : List Command}

/-- A driver with room owns at most the active command. -/
theorem owned_of_canSubmit {driver : IncrementalBackendDriver B} (h : driver.canSubmit = true) :
    driver.arbiter.owned = driver.arbiter.activeSequence.toList := by
  have hp : driver.arbiter.pending = none := Option.isNone_iff_eq_none.mp h
  simp [CommandArbiter.owned, CommandArbiter.pendingSequence, hp]

/-- A driver with room leaves room in the ledger. -/
theorem Holds.room (h : Holds owner none held) (hc : owner.driver.canSubmit = true) :
    owner.ledger.entries.length < 2 := by
  have hl := h.ledger.length_eq
  rw [List.length_map, owned_of_canSubmit hc] at hl
  cases ha : owner.driver.arbiter.activeSequence with
  | none =>
    simp only [ha, Option.toList_none, List.append_nil, List.length_nil] at hl
    omega
  | some x =>
    simp only [ha, Option.toList_none, Option.toList_some, List.nil_append,
      List.length_singleton] at hl
    omega

/-- A submitted command is owned last. -/
theorem Holds.submit (h : Holds owner none held) (hc : owner.driver.canSubmit = true)
    {command : Command} {sequence : CommandSequence} (hs : sequence.get = command.sequence)
    (request : IncrementalRequest) :
    Holds ⟨submittedDriver sequence request owner.driver,
      (owner.ledger.insert sequence (.fromCommand command.kind)).2⟩ none (held ++ [command]) := by
  have howned : (submittedDriver sequence request owner.driver).arbiter.owned =
      owner.driver.arbiter.owned ++ [sequence] := by
    rw [owned_of_canSubmit hc]
    rfl
  obtain ⟨-, hp⟩ := CommandLedger.insert_of_length (h.room hc) sequence (.fromCommand command.kind)
  refine ⟨⟨h.coherent.notStarting, h.coherent.tracked⟩, ?_, ?_⟩
  · rw [howned]
    have hseq := h.sequences
    simp only [Option.toList_none, List.nil_append] at hseq ⊢
    rw [List.map_append, List.map_append, hseq, List.map_singleton, List.map_singleton, hs]
  · rw [howned]
    have hm := hp.map Prod.fst
    rw [List.map_append] at hm
    simp only [Option.toList_none, List.nil_append]
    exact hm.trans (h.ledger.append_right [sequence])

/-- The ended command is in front and in the ledger; its publication releases it. -/
theorem Holds.publish {sequence : CommandSequence} (h : Holds owner (some sequence) held) :
    ∃ command rest kind, held = command :: rest ∧ command.sequence = sequence.get ∧
      (owner.ledger.remove sequence).1 = some kind ∧
      Holds ⟨owner.driver, (owner.ledger.remove sequence).2⟩ none rest := by
  have hmem : sequence ∈ owner.ledger.entries.map Prod.fst := by
    refine h.ledger.mem_iff.mpr ?_
    exact List.mem_append_left _ (List.mem_singleton.mpr rfl)
  obtain ⟨kind, hk, hp⟩ := CommandLedger.remove_of_mem hmem
  have hseq := h.sequences
  simp only [Option.toList_some, List.singleton_append, List.map_cons] at hseq
  obtain ⟨command, rest, rfl, hc, hr⟩ := List.map_eq_cons_iff.mp hseq
  refine ⟨command, rest, kind, rfl, hc, hk, h.coherent, ?_, ?_⟩
  · simpa only [Option.toList_none, List.nil_append] using hr
  · have hm := (hp.map Prod.fst).symm.trans h.ledger
    simp only [List.map_cons, Option.toList_some, List.singleton_append] at hm
    simpa only [Option.toList_none, List.nil_append] using hm.cons_inv

/-- A cancellation that removes no command only flags the active one. -/
theorem Holds.request {sequence : CommandSequence} (h : Holds owner none held)
    (hk : owner.driver.arbiter.activeSequence = some sequence ∨
      owner.driver.arbiter.pendingSequence ≠ some sequence) :
    Holds ⟨after (IncrementalBackendDriver.requestCancel sequence owner.driver), owner.ledger⟩
      none held := by
  have hc := (cancel_move h.coherent sequence).1
  have howned : (after (IncrementalBackendDriver.requestCancel sequence
      owner.driver)).arbiter.owned = owner.driver.arbiter.owned := by
    rw [requestCancel_apply, after_ok]
    have he := CommandArbiter.requestCancel_effect sequence owner.driver.arbiter
    generalize CommandArbiter.requestCancel sequence owner.driver.arbiter = effect at he
    cases he with
    | requestActive active ha hs hr hi =>
      simp [CommandArbiter.owned, CommandArbiter.activeSequence, CommandArbiter.pendingSequence, ha]
    | alreadyRequested active ha hs hr => rfl
    | removePending hs hp =>
      rcases hk with hk | hk
      · exact (hs hk).elim
      · exact (hk hp).elim
    | notFound hs hp => rfl
  refine ⟨hc, ?_, ?_⟩
  · rw [howned]
    exact h.sequences
  · rw [howned]
    exact h.ledger

/-- The pending command is last and in the ledger; its removal releases it. -/
theorem Holds.remove {sequence : CommandSequence} (h : Holds owner none held)
    (hp : owner.driver.arbiter.pendingSequence = some sequence) :
    ∃ before command kind, held = before ++ [command] ∧ command.sequence = sequence.get ∧
      (owner.ledger.remove sequence).1 = some kind ∧
      Holds ⟨removedDriver owner.driver, (owner.ledger.remove sequence).2⟩ none before := by
  have howned : owner.driver.arbiter.owned =
      owner.driver.arbiter.activeSequence.toList ++ [sequence] := by
    rw [CommandArbiter.owned, hp]
    rfl
  have hremoved : (removedDriver owner.driver).arbiter.owned =
      owner.driver.arbiter.activeSequence.toList := by
    simp [removedDriver, CommandArbiter.owned, CommandArbiter.activeSequence,
      CommandArbiter.pendingSequence]
  have hmem : sequence ∈ owner.ledger.entries.map Prod.fst := by
    refine h.ledger.mem_iff.mpr ?_
    rw [howned]
    simp
  obtain ⟨kind, hk, hperm⟩ := CommandLedger.remove_of_mem hmem
  have hseq := h.sequences
  simp only [Option.toList_none, List.nil_append, howned, List.map_append, List.map_singleton]
    at hseq
  obtain ⟨before, last, rfl, hb, hl⟩ := List.map_eq_append_iff.mp hseq
  obtain ⟨command, rfl, hc⟩ := List.map_eq_singleton_iff.mp hl
  refine ⟨before, command, kind, rfl, hc, hk, ⟨h.coherent.notStarting, h.coherent.tracked⟩, ?_, ?_⟩
  · rw [hremoved]
    simpa only [Option.toList_none, List.nil_append] using hb
  · have hm := (hperm.map Prod.fst).symm.trans h.ledger
    rw [hremoved]
    simp only [List.map_cons, Option.toList_none, List.nil_append, howned] at hm ⊢
    exact (hm.trans List.perm_append_comm).cons_inv

variable [IncrementalWifiBackend B]

/-- A drive moves the sequence of a terminal event in front of those still owned. -/
theorem drive_owned {n : ℕ} {driver : IncrementalBackendDriver B} {scan : Vector ScanResult n}
    {ready : WaitSet} {event : IncrementalDriverEvent} {drive : DriverFrame B n}
    (h : DriveOutcome driver scan ready (.ok event drive)) :
    event.terminal.toList ++ drive.driver.arbiter.owned = driver.arbiter.owned := by
  have hactive : ∀ active, driver.arbiter.active = some active →
      driver.arbiter.owned = active.sequence :: driver.arbiter.pendingSequence.toList := by
    intro active ha
    simp [CommandArbiter.owned, CommandArbiter.activeSequence, ha]
  cases h with
  | idle ha hp => rfl
  | started held backend ha hp hb =>
    simp [begun, CommandArbiter.owned, CommandArbiter.activeSequence,
      CommandArbiter.pendingSequence, ha, hp, IncrementalDriverEvent.terminal]
  | startFailed held backend error ha hp hb =>
    simp [rejected, CommandArbiter.owned, CommandArbiter.activeSequence,
      CommandArbiter.pendingSequence, ha, hp, IncrementalDriverEvent.terminal]
  | cancelDelivered active backend ha hd hb =>
    rw [hactive active ha]
    rfl
  | cancelFailed active backend error ha hd hb =>
    rw [hactive active ha]
    rfl
  | waiting active waitFor runner ha hd hs => rfl
  | pollFailed active reason runner error backend output ha hd hs hb =>
    rw [hactive active ha]
    rfl
  | kept active reason runner report backend output event waitFor ha hd hs hb hr he =>
    rw [(keptEvent_names he).1]
    rfl
  | ended active reason runner report backend output event ha hd hs hb hr he =>
    rw [hactive active ha, endedEvent_terminal he]
    rfl

/-- A failed drive leaves the owned sequences alone. -/
theorem drive_owned_error {n : ℕ} {driver : IncrementalBackendDriver B}
    {scan : Vector ScanResult n} {ready : WaitSet} {error : IncrementalDriverError}
    {drive : DriverFrame B n} (h : DriveOutcome driver scan ready (.error error drive)) :
    drive.driver.arbiter.owned = driver.arbiter.owned := by
  cases h <;> rfl

/-- A drive writes the scan buffer only while a command is active. -/
theorem drive_scan {n : ℕ} {driver : IncrementalBackendDriver B} {scan : Vector ScanResult n}
    {ready : WaitSet}
    {result : EStateM.Result IncrementalDriverError (DriverFrame B n) IncrementalDriverEvent}
    (h : DriveOutcome driver scan ready result) :
    (after result).scanOutput = scan ∨ driver.arbiter.activeSequence ≠ none := by
  cases h with
  | pollFailed active reason runner error backend output ha hd hs hb =>
    exact Or.inr (by simp [CommandArbiter.activeSequence, ha])
  | staleReport active reason runner report backend output ha hd hs hb hr =>
    exact Or.inr (by simp [CommandArbiter.activeSequence, ha])
  | kept active reason runner report backend output event waitFor ha hd hs hb hr he =>
    exact Or.inr (by simp [CommandArbiter.activeSequence, ha])
  | ended active reason runner report backend output event ha hd hs hb hr he =>
    exact Or.inr (by simp [CommandArbiter.activeSequence, ha])
  | _ => exact Or.inl rfl

/-- A drive keeps the commands, with the sequence of a terminal event in front. -/
theorem Holds.drive {n : ℕ} {scan : Vector ScanResult n} {ready : WaitSet}
    {event : IncrementalDriverEvent} {drive : DriverFrame B n} (h : Holds owner none held)
    (hd : DriveOutcome owner.driver scan ready (.ok event drive)) :
    Holds ⟨drive.driver, owner.ledger⟩ event.terminal held := by
  have howned := drive_owned hd
  have hseq := h.sequences
  have hledger := h.ledger
  simp only [Option.toList_none, List.nil_append, ← howned] at hseq hledger
  exact ⟨(drive_move h.coherent hd).1, hseq, hledger⟩

/-- A failed drive keeps the commands. -/
theorem Holds.drive_error {n : ℕ} {scan : Vector ScanResult n} {ready : WaitSet}
    {error : IncrementalDriverError} {drive : DriverFrame B n} (h : Holds owner none held)
    (hd : DriveOutcome owner.driver scan ready (.error error drive)) :
    Holds ⟨drive.driver, owner.ledger⟩ none held := by
  have howned := drive_owned_error hd
  refine ⟨(drive_move h.coherent hd).1, ?_, ?_⟩
  · rw [howned]
    exact h.sequences
  · rw [howned]
    exact h.ledger

omit [IncrementalWifiBackend B] in
/-- The active command is held. -/
theorem Holds.nonempty {x : Option CommandSequence} (h : Holds owner x held)
    (ha : owner.driver.arbiter.activeSequence ≠ none) : held ≠ [] := by
  rintro rfl
  obtain ⟨sequence, hs⟩ := Option.ne_none_iff_exists'.mp ha
  have hseq := h.sequences
  simp [CommandArbiter.owned, hs] at hseq

omit [IncrementalWifiBackend B] in
/-- A drive writes the scan buffer only for a command in flight. -/
theorem Holds.write {x : Option CommandSequence} (h : Holds owner x held) {mailbox : Mailbox}
    {owing : Bool} {answered : List (Command × CompletionKind)} {output : ScanBuffer}
    (ho : output = mailbox.scanResults ∨ owner.driver.arbiter.activeSequence ≠ none) :
    RunnerMove ⟨mailbox, held, owing, answered⟩
      ⟨{mailbox with scanResults := output}, held, owing, answered⟩ := by
  rcases ho with rfl | ha
  · exact .stay _
  · exact .write _ output (h.nonempty ha)

end Holds

/-- The service state that a state of the incremental system stands for. -/
structure Simulates (s : IncrementalSystem B eventCapacity) (t : Service eventCapacity) : Prop where
  /-- The controller's side is the same. -/
  plane : t.plane = s.plane
  /-- The shared state is the same. -/
  shared : t.shared = s.frame.shared
  /-- The commands in flight are those the runner owns, and the one it is entering. -/
  inflight : ∃ held, t.inflight = held ++ (entering s.phase).toList ∧
    Holds s.frame.owner (ended s.phase) held
  /-- A command is only entered while the driver has room. -/
  room : ∀ command ready, s.phase = .submitting command ready →
    s.frame.runner.driver.canSubmit = true
  /-- A command being entered was received. -/
  entered : ∀ command ready, s.phase = .submitting command ready →
    command ∈ s.frame.shared.commands.received
  /-- A cancellation being forwarded was taken. -/
  taken : ∀ x ready, s.phase = .requesting x ready → x ∈ s.frame.shared.cancellations.received
  /-- A cancellation is owed only before the call looks for one. -/
  debt : t.owing = true → (∃ command ready, s.phase = .submitting command ready) ∨
    ∃ ready, s.phase = .sampling ready

/-- The start of the system is the start of the service. -/
theorem simulates_start (backend : B) (budget : WorkBudget) (config : WifiConfig)
    (h : 0 < eventCapacity) :
    Simulates (incrementalStart backend budget config h) (Service.new h) where
  plane := rfl
  shared := rfl
  inflight := ⟨[], rfl, new_coherent backend budget, rfl, .nil⟩
  room := fun _ _ hp => by cases hp
  entered := fun _ _ hp => by cases hp
  taken := fun _ _ hp => by cases hp
  debt := fun ho => by cases ho

variable [IncrementalWifiBackend B]

/-- The effects of a runner step on the owner, the mailbox and the phase. -/
inductive RunnerEffect (s : IncrementalSystem B eventCapacity) :
    IncrementalSystem B eventCapacity × Option CallResult → Prop
  | received (command : Command) (rest : List Command) (ready : WaitSet)
      (frame : FacadeFrame B eventCapacity) (hp : s.phase = .idle)
      (hc : s.frame.runner.driver.canSubmit = true)
      (hq : s.frame.shared.commands.queued = command :: rest)
      (ho : frame.owner = s.frame.owner)
      (hm : frame.shared.mailbox = {s.frame.shared.mailbox with
        commands := s.frame.shared.commands.tryReceive.2}) :
      RunnerEffect s ({s with frame := frame, phase := .submitting command ready}, none)
  | unreceived (ready : WaitSet) (frame : FacadeFrame B eventCapacity) (hp : s.phase = .idle)
      (hn : s.frame.shared.commands.queued = [] ∨ s.frame.runner.driver.canSubmit = false)
      (ho : frame.owner = s.frame.owner)
      (hm : frame.shared.mailbox = s.frame.shared.mailbox) :
      RunnerEffect s ({s with frame := frame, phase := .sampling ready}, none)
  | submitted (command : Command) (ready : WaitSet) (sequence : CommandSequence)
      (request : IncrementalRequest) (frame : FacadeFrame B eventCapacity)
      (hp : s.phase = .submitting command ready) (hs : sequence.get = command.sequence)
      (ho : frame.owner = ⟨submittedDriver sequence request s.frame.runner.driver,
        (s.frame.runner.ledger.insert sequence (.fromCommand command.kind)).2⟩)
      (hm : frame.shared.mailbox = s.frame.shared.mailbox) :
      RunnerEffect s ({s with frame := frame, phase := .sampling ready}, none)
  | sampled (x : UInt32) (rest : List UInt32) (ready : WaitSet)
      (frame : FacadeFrame B eventCapacity) (hp : s.phase = .sampling ready)
      (hq : s.frame.shared.cancellations.queued = x :: rest)
      (ho : frame.owner = s.frame.owner)
      (hm : frame.shared.mailbox = {s.frame.shared.mailbox with
        cancellations := s.frame.shared.cancellations.tryReceive.2}) :
      RunnerEffect s ({s with frame := frame, phase := .requesting x ready}, none)
  | unsampled (ready : WaitSet) (hp : s.phase = .sampling ready)
      (hq : s.frame.shared.cancellations.queued = []) :
      RunnerEffect s ({s with phase := .driving ready}, none)
  | requested (sequence : CommandSequence) (ready : WaitSet)
      (frame : FacadeFrame B eventCapacity) (hp : s.phase = .requesting sequence.get ready)
      (hk : s.frame.runner.driver.arbiter.activeSequence = some sequence ∨
        s.frame.runner.driver.arbiter.pendingSequence ≠ some sequence)
      (ho : frame.owner =
        ⟨after (IncrementalBackendDriver.requestCancel sequence s.frame.runner.driver),
          s.frame.runner.ledger⟩)
      (hm : frame.shared.mailbox = s.frame.shared.mailbox) :
      RunnerEffect s ({s with frame := frame, phase := .driving ready}, none)
  | removed (sequence : CommandSequence) (kind : CommandKindTag) (ready : WaitSet)
      (frame : FacadeFrame B eventCapacity) (hp : s.phase = .requesting sequence.get ready)
      (ha : s.frame.runner.driver.arbiter.activeSequence ≠ some sequence)
      (hh : s.frame.runner.driver.arbiter.pendingSequence = some sequence)
      (hk : (s.frame.runner.ledger.remove sequence).1 = some kind)
      (ho : frame.owner = ⟨removedDriver s.frame.runner.driver,
        (s.frame.runner.ledger.remove sequence).2⟩)
      (hm : frame.shared.mailbox = {s.frame.shared.mailbox with
        completion := s.frame.shared.completion.signal
          ⟨sequence.get, publishedKind kind (.cancelled sequence false)⟩}) :
      RunnerEffect s ({s with frame := frame, phase := .idle},
        some (.ok (.cancelled sequence false)))
  | driven (ready : WaitSet) (event : IncrementalDriverEvent) (drive : DriverFrame B maxScanResults)
      (frame : FacadeFrame B eventCapacity) (hp : s.phase = .driving ready)
      (hd : DriveOutcome s.frame.runner.driver s.frame.shared.scanResults
        (ready.without .cancel) (.ok event drive))
      (ho : frame.owner = ⟨drive.driver, s.frame.runner.ledger⟩)
      (hm : frame.shared.mailbox = {s.frame.shared.mailbox with
        scanResults := drive.scanOutput}) :
      RunnerEffect s ({s with frame := frame, phase := .publishing event}, none)
  | failed (ready : WaitSet) (error : IncrementalDriverError)
      (drive : DriverFrame B maxScanResults) (frame : FacadeFrame B eventCapacity)
      (hp : s.phase = .driving ready)
      (hd : DriveOutcome s.frame.runner.driver s.frame.shared.scanResults
        (ready.without .cancel) (.error error drive))
      (ho : frame.owner = ⟨drive.driver, s.frame.runner.ledger⟩)
      (hm : frame.shared.mailbox = {s.frame.shared.mailbox with
        scanResults := drive.scanOutput}) :
      RunnerEffect s ({s with frame := frame, phase := .idle}, some (.error (.driver error)))
  | published (event : IncrementalDriverEvent) (sequence : CommandSequence)
      (kind : CommandKindTag) (frame : FacadeFrame B eventCapacity)
      (hp : s.phase = .publishing event) (ht : event.terminal = some sequence)
      (hk : (s.frame.runner.ledger.remove sequence).1 = some kind)
      (ho : frame.owner = ⟨s.frame.runner.driver, (s.frame.runner.ledger.remove sequence).2⟩)
      (hm : frame.shared.mailbox = {s.frame.shared.mailbox with
        completion := s.frame.shared.completion.signal
          ⟨sequence.get, publishedKind kind event⟩}) :
      RunnerEffect s ({s with frame := frame, phase := .idle},
        some (if mismatched kind event then .error .completionMismatch else .ok event))
  | unpublished (event : IncrementalDriverEvent) (hp : s.phase = .publishing event)
      (ht : event.terminal = none) :
      RunnerEffect s ({s with phase := .idle}, some (.ok event))

section Steps

variable {s : IncrementalSystem B eventCapacity} {t : Service eventCapacity}

omit [IncrementalWifiBackend B] in
/-- Nothing is received while the channel is empty or the driver is full. -/
theorem receiveCommand_none {frame : FacadeFrame B eventCapacity}
    (hn : frame.shared.commands.queued = [] ∨ frame.runner.driver.canSubmit = false) :
    receiveCommand frame = (none, frame) := by
  unfold receiveCommand
  rcases hn with hn | hn
  · rw [tryReceive_of_nil hn]
    split <;> rfl
  · rw [if_neg (ne_true_of_eq_false hn)]

omit [IncrementalWifiBackend B] in
/-- The oldest queued command is received while the driver has room. -/
theorem receiveCommand_some {frame : FacadeFrame B eventCapacity} {command : Command}
    {rest : List Command} (hc : frame.runner.driver.canSubmit = true)
    (hq : frame.shared.commands.queued = command :: rest) :
    receiveCommand frame = (some command, {frame with
      shared := {frame.shared with commands := frame.shared.commands.tryReceive.2}}) := by
  obtain ⟨commands, hx, -⟩ := tryReceive_taken hq
  unfold receiveCommand
  rw [if_pos hc, hx]

omit [IncrementalWifiBackend B] in
/-- The oldest cancellation is taken. -/
theorem receiveCancellation_some {frame : FacadeFrame B eventCapacity} {x : UInt32}
    {rest : List UInt32} (hq : frame.shared.cancellations.queued = x :: rest) :
    receiveCancellation frame = (some x, {frame with
      shared := {frame.shared with
        cancellations := frame.shared.cancellations.tryReceive.2}}) := by
  obtain ⟨cancellations, hx, -⟩ := tryReceive_taken hq
  unfold receiveCancellation
  rw [hx]

omit [IncrementalWifiBackend B] in
/-- Nothing is taken from an empty cancellation channel. -/
theorem receiveCancellation_none {frame : FacadeFrame B eventCapacity}
    (hq : frame.shared.cancellations.queued = []) :
    receiveCancellation frame = (none, frame) := by
  unfold receiveCancellation
  rw [tryReceive_of_nil hq]

omit [IncrementalWifiBackend B] in
/-- A command being entered has a valid sequence. -/
theorem entering_valid (hs : Simulates s t) (hb : Bounded t) {command : Command}
    {ready : WaitSet} (hp : s.phase = .submitting command ready) :
    ∃ sequence, CommandSequence.tryFromRaw command.sequence = some sequence ∧
      sequence.get = command.sequence := by
  have hr := hs.entered command ready hp
  rw [← hs.shared] at hr
  exact CommandSequence.tryFromRaw_of_ne_zero (hb.nonZero.sent command (mem_sent_of_received hr))

omit [IncrementalWifiBackend B] in
/-- A taken cancellation has a valid sequence. -/
theorem taken_valid (hs : Simulates s t) (hb : Bounded t) {x : UInt32} {ready : WaitSet}
    (hp : s.phase = .requesting x ready) :
    ∃ sequence : CommandSequence, sequence.get = x := by
  have hr := hs.taken x ready hp
  rw [← hs.shared] at hr
  have hd : t.shared.cancellations.sent = t.plane.dropped := hb.counted.delivered
  have hm : x ∈ t.plane.dropped := by
    rw [← hd]
    exact mem_sent_of_received hr
  obtain ⟨sequence, -, he⟩ := CommandSequence.tryFromRaw_of_ne_zero (hb.nonZero.dropped x hm)
  exact ⟨sequence, he⟩

/-- Every runner step of a reachable state has one of the listed effects. -/
theorem runnerStep_effect (ready : WaitSet) (hs : Simulates s t) (hb : Bounded t) :
    RunnerEffect s (runnerStep ready s) := by
  obtain ⟨held, hi, hh⟩ := hs.inflight
  unfold runnerStep
  cases hp : s.phase with
  | idle =>
    by_cases hc : s.frame.runner.driver.canSubmit = true
    · cases hq : s.frame.shared.commands.queued with
      | nil =>
        have hn : receiveCommand (beginCall ready s.frame) = (none, beginCall ready s.frame) :=
          receiveCommand_none (Or.inl hq)
        simp only [hn]
        exact .unreceived ready _ hp (Or.inl hq) rfl rfl
      | cons command rest =>
        have hn := @receiveCommand_some _ _ (beginCall ready s.frame) command rest hc hq
        simp only [hn]
        exact .received command rest ready _ hp hc hq rfl rfl
    · have hf := Bool.eq_false_iff.mpr hc
      have hn : receiveCommand (beginCall ready s.frame) = (none, beginCall ready s.frame) :=
        receiveCommand_none (Or.inr hf)
      simp only [hn]
      exact .unreceived ready _ hp (Or.inr hf) rfl rfl
  | submitting command ready' =>
    obtain ⟨sequence, hv, hg⟩ := entering_valid hs hb hp
    rw [hp] at hh
    have hc := hs.room command ready' hp
    simp only [acceptCommand_submitted hv (hh.room hc) hc]
    exact .submitted command ready' sequence _ _ hp hg rfl rfl
  | sampling ready' =>
    cases hq : s.frame.shared.cancellations.queued with
    | nil =>
      simp only [receiveCancellation_none hq]
      exact .unsampled ready' hp hq
    | cons x rest =>
      simp only [receiveCancellation_some hq]
      exact .sampled x rest ready' _ hp hq rfl rfl
  | requesting x ready' =>
    obtain ⟨sequence, rfl⟩ := taken_valid hs hb hp
    rw [hp] at hh
    by_cases hk : s.frame.runner.driver.arbiter.activeSequence = some sequence ∨
        s.frame.runner.driver.arbiter.pendingSequence ≠ some sequence
    · simp only [requestCancellation_kept hk]
      exact .requested sequence ready' _ hp hk rfl rfl
    · rw [not_or, not_not] at hk
      obtain ⟨before, command, kind, -, -, hkind, -⟩ := hh.remove hk.2
      simp only [requestCancellation_removed hk.1 hk.2 hkind]
      exact .removed sequence kind ready' _ hp hk.1 hk.2 hkind (published_owner _ _ _)
        (published_mailbox kind rfl)
  | driving ready' =>
    have hd := driveOnce_outcome hh.coherent s.frame.shared.scanResults (ready'.without .cancel)
    cases hx : IncrementalBackendDriver.driveOnce (ready'.without .cancel)
      ⟨s.frame.runner.driver, s.frame.shared.scanResults⟩ with
    | ok event drive =>
      simp only [driveBackend_ok hx]
      have hx' : IncrementalBackendDriver.driveOnce (ready'.without .cancel)
        ⟨s.frame.owner.driver, s.frame.shared.scanResults⟩ = .ok event drive := hx
      rw [hx'] at hd
      exact .driven ready' event drive _ hp hd rfl rfl
    | error error drive =>
      simp only [driveBackend_error hx]
      have hx' : IncrementalBackendDriver.driveOnce (ready'.without .cancel)
        ⟨s.frame.owner.driver, s.frame.shared.scanResults⟩ = .error error drive := hx
      rw [hx'] at hd
      exact .failed ready' error drive _ hp hd rfl rfl
  | publishing event =>
    rw [hp] at hh
    cases ht : event.terminal with
    | none =>
      have hn : publishDriven event s.frame = .ok () s.frame :=
        withCleanup_ok (publishTerminal_of_none ht)
      simp only [hn]
      exact .unpublished event hp ht
    | some sequence =>
      simp only [ended, ht] at hh
      obtain ⟨command, rest, kind, -, -, hk, -⟩ := hh.publish
      have hpub := publishTerminal_of_some ht hk
      have he : ∀ frame : FacadeFrame B eventCapacity,
          frame.owner = (published sequence kind event (FacadeFrame.ledgerField.set
            (s.frame.runner.ledger.remove sequence).2 s.frame)).owner →
          frame.shared.mailbox = (published sequence kind event (FacadeFrame.ledgerField.set
            (s.frame.runner.ledger.remove sequence).2 s.frame)).shared.mailbox →
          RunnerEffect s ({s with frame := frame, phase := .idle},
            some (if mismatched kind event then .error .completionMismatch else .ok event)) :=
        fun frame ho hm => .published event sequence kind frame hp ht hk
          (ho.trans (published_owner _ _ _)) (hm.trans (published_mailbox kind ht))
      by_cases hmis : mismatched kind event = true
      · rw [if_pos hmis] at hpub he
        have hx : publishDriven event s.frame = .error .completionMismatch
            (FacadeFrame.countProtocolError (published sequence kind event
              (FacadeFrame.ledgerField.set (s.frame.runner.ledger.remove sequence).2 s.frame))) :=
          withCleanup_error hpub
        simp only [hx]
        exact he _ rfl rfl
      · rw [if_neg hmis] at hpub he
        have hx : publishDriven event s.frame = .ok () (published sequence kind event
            (FacadeFrame.ledgerField.set (s.frame.runner.ledger.remove sequence).2 s.frame)) :=
          withCleanup_ok hpub
        simp only [hx]
        exact he _ rfl rfl

omit [IncrementalWifiBackend B] in
/-- A state that neither enters a command nor forwards a cancellation stands for the
service whose commands it holds. -/
theorem simulates_of_holds {held : List Command} {owing : Bool}
    {answered : List (Command × CompletionKind)} (hn : ∀ command ready,
      s.phase ≠ .submitting command ready) (hr : ∀ x ready, s.phase ≠ .requesting x ready)
    (hd : owing = true → ∃ ready, s.phase = .sampling ready)
    (hh : Holds s.frame.owner (ended s.phase) held) :
    Simulates s ⟨s.plane, s.frame.shared, held, owing, answered⟩ := by
  have hnone : entering s.phase = none := by
    cases hp : s.phase with
    | submitting command ready => exact (hn command ready hp).elim
    | _ => rfl
  refine ⟨rfl, rfl, ⟨held, ?_, hh⟩, ?_, ?_, ?_, fun ho => Or.inr (hd ho)⟩
  · rw [hnone]
    exact (List.append_nil held).symm
  · exact fun command ready hp => (hn command ready hp).elim
  · exact fun command ready hp => (hn command ready hp).elim
  · exact fun x ready hp => (hr x ready hp).elim

omit [IncrementalWifiBackend B] in
/-- The same where no cancellation is owed. -/
theorem simulates_unowed {held : List Command} {owing : Bool}
    {answered : List (Command × CompletionKind)} (hn : ∀ command ready,
      s.phase ≠ .submitting command ready) (hr : ∀ x ready, s.phase ≠ .requesting x ready)
    (howing : owing = false) (hh : Holds s.frame.owner (ended s.phase) held) :
    Simulates s ⟨s.plane, s.frame.shared, held, owing, answered⟩ :=
  simulates_of_holds hn hr (fun ho => by cases howing.symm.trans ho) hh

omit [IncrementalWifiBackend B] in
/-- A move of the runner is a step of the service. -/
theorem Simulates.move (hs : Simulates s t) {inflight : List Command} {v : RunnerView}
    (hi : t.inflight = inflight)
    (hm : RunnerMove ⟨s.frame.shared.mailbox, inflight, t.owing, t.answered⟩ v)
    (next : SharedState eventCapacity) (hn : next.mailbox = v.mailbox) :
    ServiceStep t ⟨s.plane, next, v.inflight, v.owing, v.answered⟩ := by
  refine .runner _ _ hs.plane.symm ?_
  rw [Service.view, hs.shared, hi]
  rcases v with ⟨mailbox, inflight, owing, answered⟩
  cases hn
  exact hm

omit [IncrementalWifiBackend B] in
/-- Outside the two phases that look for a cancellation none is owed. -/
theorem Simulates.unowed (hs : Simulates s t) {phase : IncrementalPhase} (hp : s.phase = phase)
    (hn : ∀ command ready, phase ≠ .submitting command ready)
    (hm : ∀ ready, phase ≠ .sampling ready) : t.owing = false := by
  rw [Bool.eq_false_iff]
  intro ho
  rcases hs.debt ho with ⟨command, ready, hx⟩ | ⟨ready, hx⟩
  · exact hn command ready (hp.symm.trans hx)
  · exact hm ready (hp.symm.trans hx)

section Kinds

variable {frame : FacadeFrame B eventCapacity} {command : Command} {sequence : CommandSequence}
  {kind : CommandKindTag} {event : IncrementalDriverEvent} {x : UInt32} {ready : WaitSet}

omit [IncrementalWifiBackend B] in
/-- A command that is received is in flight before the driver has entered it. -/
theorem Simulates.received {rest : List Command} (hs : Simulates s t) (hp : s.phase = .idle)
    (hc : s.frame.runner.driver.canSubmit = true)
    (hq : s.frame.shared.commands.queued = command :: rest)
    (ho : frame.owner = s.frame.owner)
    (hm : frame.shared.mailbox = {s.frame.shared.mailbox with
      commands := s.frame.shared.commands.tryReceive.2}) :
    ∃ u, ServiceStep t u ∧
      Simulates {s with frame := frame, phase := .submitting command ready} u := by
  have howing := hs.unowed hp nofun nofun
  obtain ⟨held, hi, hh⟩ := hs.inflight
  rw [hp] at hi hh
  have hreceived : frame.shared.commands.received =
      s.frame.shared.commands.received ++ [command] :=
    (congrArg (fun m => m.commands.received) hm).trans (tryReceive_of_cons hq).2.1
  refine ⟨_, hs.move hi (.take _ command rest hq howing) frame.shared hm,
    rfl, rfl, ⟨held, ?_, ?_⟩, ?_, ?_, ?_, ?_⟩
  · simp [entering]
  · rw [ho]
    exact hh
  · intro _ _ _
    have hd : frame.runner.driver = s.frame.runner.driver := congrArg Owner.driver ho
    simp only [hd]
    exact hc
  · intro c r hx
    cases hx
    simp only [hreceived]
    exact List.mem_append_right _ (List.mem_singleton.mpr rfl)
  · intro x r hx
    cases hx
  · exact fun _ => Or.inl ⟨command, ready, rfl⟩

omit [IncrementalWifiBackend B] in
/-- A cancellation that is taken pays what the call owed. -/
theorem Simulates.sampled {ready' : WaitSet} {rest : List UInt32} (hs : Simulates s t)
    (hp : s.phase = .sampling ready) (hq : s.frame.shared.cancellations.queued = x :: rest)
    (ho : frame.owner = s.frame.owner)
    (hm : frame.shared.mailbox = {s.frame.shared.mailbox with
      cancellations := s.frame.shared.cancellations.tryReceive.2}) :
    ∃ u, ServiceStep t u ∧
      Simulates {s with frame := frame, phase := .requesting x ready'} u := by
  obtain ⟨held, hi, hh⟩ := hs.inflight
  rw [hp] at hi hh
  have hreceived : frame.shared.cancellations.received =
      s.frame.shared.cancellations.received ++ [x] :=
    (congrArg (fun m => m.cancellations.received) hm).trans (tryReceive_of_cons hq).2.1
  refine ⟨_, hs.move hi (.takeCancellation _ x rest hq) frame.shared hm, rfl, rfl,
    ⟨held, rfl, ?_⟩, ?_, ?_, ?_, ?_⟩
  · rw [ho]
    exact hh
  · intro _ _ hx
    cases hx
  · intro _ _ hx
    cases hx
  · intro y r hx
    cases hx
    simp only [hreceived]
    exact List.mem_append_right _ (List.mem_singleton.mpr rfl)
  · exact fun hx => by cases hx

omit [IncrementalWifiBackend B] in
/-- A removed command completes last of those in flight: it was the pending one. -/
theorem Simulates.removed (hs : Simulates s t) (hp : s.phase = .requesting sequence.get ready)
    (hpend : s.frame.runner.driver.arbiter.pendingSequence = some sequence)
    (ho : frame.owner = ⟨removedDriver s.frame.runner.driver,
      (s.frame.runner.ledger.remove sequence).2⟩)
    (hm : frame.shared.mailbox = {s.frame.shared.mailbox with
      completion := s.frame.shared.completion.signal
        ⟨sequence.get, publishedKind kind (.cancelled sequence false)⟩}) :
    ∃ u, ServiceStep t u ∧ Simulates {s with frame := frame, phase := .idle} u := by
  have howing := hs.unowed hp nofun nofun
  have hx := hs.taken _ _ hp
  obtain ⟨held, hi, hh⟩ := hs.inflight
  rw [hp] at hi hh
  obtain ⟨before, command, kind', rfl, hc, -, hrest⟩ := hh.remove hpend
  rw [← hc] at hx hm
  have hmove := hs.move hi (.complete _ before [] command _ (by simp [entering]) (Or.inr hx))
    frame.shared hm
  rw [List.append_nil] at hmove
  refine ⟨_, hmove, simulates_unowed nofun nofun howing ?_⟩
  rw [ho]
  exact hrest

omit [IncrementalWifiBackend B] in
/-- A published command completes first of those in flight: it was the active one. -/
theorem Simulates.published (hs : Simulates s t) (hp : s.phase = .publishing event)
    (ht : event.terminal = some sequence)
    (ho : frame.owner = ⟨s.frame.runner.driver, (s.frame.runner.ledger.remove sequence).2⟩)
    (hm : frame.shared.mailbox = {s.frame.shared.mailbox with
      completion := s.frame.shared.completion.signal
        ⟨sequence.get, publishedKind kind event⟩}) :
    ∃ u, ServiceStep t u ∧ Simulates {s with frame := frame, phase := .idle} u := by
  have howing := hs.unowed hp nofun nofun
  obtain ⟨held, hi, hh⟩ := hs.inflight
  rw [hp] at hi hh
  simp only [ended, ht] at hh
  obtain ⟨command, rest, kind', rfl, hc, -, hrest⟩ := hh.publish
  rw [← hc] at hm
  have hmove := hs.move hi (.complete _ [] rest command _ (by simp [entering]) (Or.inl rfl))
    frame.shared hm
  refine ⟨_, hmove, simulates_unowed nofun nofun howing ?_⟩
  rw [ho]
  exact hrest

end Kinds

/-- Each atomic step of a call is one step of the service. -/
theorem simulates_runner (ready : WaitSet) (hs : Simulates s t) (hb : Bounded t) :
    ∃ u, ServiceStep t u ∧ Simulates (runnerStep ready s).1 u := by
  have he := runnerStep_effect ready hs hb
  obtain ⟨held, hi, hh⟩ := hs.inflight
  generalize runnerStep ready s = next at he
  cases he with
  | received command rest ready' frame hp hc hq ho hm => exact hs.received hp hc hq ho hm
  | sampled x rest ready' frame hp hq ho hm => exact hs.sampled hp hq ho hm
  | removed sequence kind ready' frame hp ha hpend hk ho hm => exact hs.removed hp hpend ho hm
  | published event sequence kind frame hp ht hk ho hm => exact hs.published hp ht ho hm
  | unreceived ready' frame hp hn ho hm =>
    rw [hp] at hi hh
    simp only [entering, Option.toList_none, List.append_nil] at hi
    refine ⟨_, hs.move hi (.stay _) frame.shared hm,
      simulates_of_holds nofun nofun (fun _ => ⟨ready', rfl⟩) ?_⟩
    rw [ho]
    exact hh
  | submitted command ready' sequence request frame hp hseq ho hm =>
    have hc := hs.room command ready' hp
    rw [hp] at hi hh
    refine ⟨_, hs.move hi (.stay _) frame.shared hm,
      simulates_of_holds nofun nofun (fun _ => ⟨ready', rfl⟩) ?_⟩
    rw [ho]
    exact hh.submit hc hseq request
  | unsampled ready' hp hq =>
    rw [hp] at hi hh
    simp only [entering, Option.toList_none, List.append_nil] at hi
    exact ⟨_, hs.move hi (.noCancellation _ hq) _ rfl,
      simulates_of_holds nofun nofun (fun hx => by cases hx) hh⟩
  | requested sequence ready' frame hp hk ho hm =>
    have howing := hs.unowed hp nofun nofun
    rw [hp] at hi hh
    simp only [entering, Option.toList_none, List.append_nil] at hi
    refine ⟨_, hs.move hi (.stay _) frame.shared hm, simulates_unowed nofun nofun howing ?_⟩
    rw [ho]
    exact hh.request hk
  | driven ready' event drive frame hp hd ho hm =>
    have howing := hs.unowed hp nofun nofun
    rw [hp] at hi hh
    simp only [entering, Option.toList_none, List.append_nil] at hi
    refine ⟨_, hs.move hi (hh.write (drive_scan hd)) frame.shared hm,
      simulates_unowed nofun nofun howing ?_⟩
    rw [ho]
    exact hh.drive hd
  | failed ready' error drive frame hp hd ho hm =>
    have howing := hs.unowed hp nofun nofun
    rw [hp] at hi hh
    simp only [entering, Option.toList_none, List.append_nil] at hi
    refine ⟨_, hs.move hi (hh.write (drive_scan hd)) frame.shared hm,
      simulates_unowed nofun nofun howing ?_⟩
    rw [ho]
    exact hh.drive_error hd
  | unpublished event hp ht =>
    have howing := hs.unowed hp nofun nofun
    rw [hp] at hi hh
    simp only [ended, ht, entering, Option.toList_none, List.append_nil] at hi hh
    exact ⟨_, hs.move hi (.stay _) s.frame.shared rfl, simulates_unowed nofun nofun howing hh⟩

/-- Each atomic step of the incremental system is one step of the service. -/
theorem simulates_step (interrupt : E → B → B) (hs : Simulates s t) (hb : Bounded t)
    (input : IncrementalInput E) :
    ∃ u, ServiceStep t u ∧ Simulates ((incrementalMachine interrupt).next s input) u := by
  cases input with
  | control step =>
    have hf := control_forwards (step_effect s.plane s.frame.shared step)
    have hstep := ServiceStep.control t step
    rw [hs.plane, hs.shared] at hstep
    refine ⟨_, hstep, rfl, rfl, hs.inflight, hs.room, ?_, ?_, hs.debt⟩
    · intro command ready hp
      simp only [Machine.next, incrementalMachine]
      rw [show (s.plane.step s.frame.shared step).2.commands.received = _ from hf.commandsReceived]
      exact hs.entered command ready hp
    · intro x ready hp
      simp only [Machine.next, incrementalMachine]
      rw [show (s.plane.step s.frame.shared step).2.cancellations.received = _ from
        hf.cancellationsReceived]
      exact hs.taken x ready hp
  | backendEvent event =>
    obtain ⟨held, hi, hh⟩ := hs.inflight
    refine ⟨_, hs.move rfl (.stay _) s.frame.shared rfl, rfl, rfl, ⟨held, hi, ?_⟩, hs.room,
      hs.entered, hs.taken, hs.debt⟩
    exact ⟨⟨hh.coherent.notStarting, hh.coherent.tracked⟩, hh.sequences, hh.ledger⟩
  | runner ready => exact simulates_runner ready hs hb

/-- A runner step leaves the controller alone. -/
theorem runnerStep_plane (ready : WaitSet) (s : IncrementalSystem B eventCapacity) :
    (runnerStep ready s).1.plane = s.plane := by
  unfold runnerStep
  cases s.phase with
  | idle => dsimp only; split <;> rfl
  | submitting command ready => dsimp only; split <;> rfl
  | sampling ready => dsimp only; split <;> rfl
  | requesting taken ready => dsimp only; split <;> rfl
  | driving ready => dsimp only; split <;> rfl
  | publishing event => dsimp only; split <;> rfl

/-- No step takes an allocation back. -/
theorem allocated_le_next (interrupt : E → B → B) (input : IncrementalInput E) :
    s.plane.allocated ≤ ((incrementalMachine interrupt).next s input).plane.allocated := by
  cases input with
  | control step => exact allocated_le_step s.plane s.frame.shared step
  | runner ready =>
    exact Nat.le_of_eq (congrArg ControlPlane.allocated (runnerStep_plane ready s).symm)
  | backendEvent event => exact Nat.le_refl _

end Steps

section Runs

variable (interrupt : E → B → B) (backend : B) (budget : WorkBudget) (config : WifiConfig)
  (hpos : 0 < eventCapacity)

/-- State of the interleaving after a schedule. -/
def incrementalRun (inputs : List (IncrementalInput E)) : IncrementalSystem B eventCapacity :=
  (incrementalMachine interrupt).run (incrementalStart backend budget config hpos) inputs

/-- State between two whole calls after a schedule. -/
def facadeRun (inputs : List (FacadeInput E)) : FacadeSystem B eventCapacity :=
  (facadeMachine interrupt).run ⟨.new, ⟨.new backend budget config, .new hpos⟩⟩ inputs

variable {interrupt backend budget config hpos}

/-- What the runner's own steps keep, and every other step between two calls keeps,
holds between two calls of every run of whole calls. -/
theorem between_invariant (interrupt : E → B → B)
    {I : IncrementalSystem B eventCapacity → Prop}
    (h0 : I (incrementalStart backend budget config hpos))
    (hrunner : ∀ s ready, I s → I (runnerStep ready s).1)
    (hother : ∀ s input, s.phase = .idle → (∀ ready, input ≠ .runner ready) → I s →
      I ((incrementalMachine interrupt).next s input))
    (inputs : List (FacadeInput E)) :
    I (facadeRun interrupt backend budget config hpos inputs).between := by
  refine run_invariant (facadeMachine interrupt) (I := fun s => I s.between)
    (s := ⟨.new, ⟨.new backend budget config, .new hpos⟩⟩) h0 ?_ inputs
  intro s input h
  cases input with
  | control step => exact hother s.between (.control step) rfl (fun _ hx => by cases hx) h
  | backendEvent event => exact hother s.between (.backendEvent event) rfl (fun _ hx => by cases hx) h
  | runOnce ready =>
    exact returns_invariant (fun s => hrunner s ready) (runOnce_returns s.plane ready s.frame) h

/-- Every reachable state stands for a service with its unbounded invariants. -/
theorem run_bounded (inputs : List (IncrementalInput E)) :
    ∃ t, Simulates (incrementalRun interrupt backend budget config hpos inputs) t ∧ Bounded t :=
  simulated_bounded (incrementalMachine interrupt) (R := Simulates)
    (fun _ _ i hs hb => simulates_step interrupt hs hb i)
    (simulates_start backend budget config hpos) inputs

/-- Below the wrap it also has the invariants about the order of sequences. -/
def Reached (s : IncrementalSystem B eventCapacity) : Prop :=
  s.plane.allocated < 2 ^ 32 - 1 → ∃ t, Simulates s t ∧ Delivers t

/-- Every step keeps a reached state reached. -/
theorem reached_step (interrupt : E → B → B) {s : IncrementalSystem B eventCapacity}
    (h : Reached s) (input : IncrementalInput E) :
    Reached ((incrementalMachine interrupt).next s input) := by
  intro hb
  obtain ⟨t, hs, hd⟩ := h (Nat.lt_of_le_of_lt (allocated_le_next interrupt input) hb)
  obtain ⟨u, hstep, hsim⟩ := simulates_step interrupt hs hd.bounded input
  refine ⟨u, hsim, service_delivers hd hstep ?_⟩
  rw [hsim.plane]
  exact hb

omit [IncrementalWifiBackend B] in
/-- The start is reached. -/
theorem reached_start (backend : B) (budget : WorkBudget) (config : WifiConfig)
    (hpos : 0 < eventCapacity) : Reached (incrementalStart backend budget config hpos) :=
  fun _ => ⟨_, simulates_start backend budget config hpos, delivers_new hpos⟩

/-- Every state of a run is reached. -/
theorem run_reached (inputs : List (IncrementalInput E)) :
    Reached (incrementalRun interrupt backend budget config hpos inputs) :=
  run_invariant (incrementalMachine interrupt) (reached_start backend budget config hpos)
    (fun _ input h => reached_step interrupt h input) inputs

/-- A run below the wrap is below the wrap at every earlier moment. -/
theorem allocated_before {before after : List (IncrementalInput E)}
    (hb : (incrementalRun interrupt backend budget config hpos (before ++ after)).plane.allocated <
      2 ^ 32 - 1) :
    (incrementalRun interrupt backend budget config hpos before).plane.allocated < 2 ^ 32 - 1 :=
  bound_of_append (incrementalMachine interrupt)
    (B := fun s => s.plane.allocated < 2 ^ 32 - 1)
    (fun _ input hn => Nat.lt_of_le_of_lt (allocated_le_next interrupt input) hn) hb

end Runs

/-- A run with a replayed backend that completes a disconnection. -/
def replayRun (inputs : List (IncrementalInput Unit)) : IncrementalSystem ReplayBackend 1 :=
  incrementalRun (fun _ backend => backend) completingBackend smallestBudget .default Nat.one_pos
    inputs

end HisiRfCore.IncrementalService
