import HisiRfCore.ProgressRank

/-!
# Every command is answered

A backend that needs at most so many polls for an operation, and that waits only for what
can come, brings every command to its completion: the runner needs a bounded number of
steps for it, when each of its calls is told that all sources are ready. A command sent
meanwhile may cost one more call, because a call that removes a cancelled command from the
driver returns without a drive.
-/

namespace HisiRfCore.CommandProgress

open StateBorrow BoundedChannel WifiTypes RadioStorage ServiceProtocol ServiceDelivery
open IncrementalContract CommandArbitration BackendDriver DriverCoherence DriverCalls
open IncrementalFacade IncrementalInterleaving IncrementalService InputOutputMachine FacadeFrame
open AttentiveBackends ProgressRank

variable {B E : Type} {eventCapacity : ℕ} [IncrementalWifiBackend B] {interrupt : E → B → B}

section Runner

variable {d : Attentive B E interrupt} {cost : B → ℕ} {s : IncrementalSystem B eventCapacity}
  {t : Service eventCapacity} {ready : WaitSet}

/-- Progress of a state of the incremental system. -/
def progress (cost : B → ℕ) (s : IncrementalSystem B eventCapacity) : Progress :=
  ⟨load cost s.frame.runner.driver, s.phase, s.frame.shared.commands.queued,
    s.frame.shared.completion.written.map Completion.sequence⟩

omit [IncrementalWifiBackend B] in
/-- Progress after a step, from what the step did to the driver, the channel and the signal. -/
theorem progress_eq {frame : FacadeFrame B eventCapacity} {phase : IncrementalPhase} {v : Load}
    {queued : List Command} {written : List Completion}
    (hv : load cost frame.runner.driver = v) (hq : frame.shared.commands.queued = queued)
    (hw : frame.shared.completion.written = written) :
    progress cost {s with frame := frame, phase := phase} =
      ⟨v, phase, queued, written.map Completion.sequence⟩ := by
  rw [← hv, ← hq, ← hw]
  rfl

omit [IncrementalWifiBackend B] in
/-- A driver that keeps its active command and its backend keeps their part of the load. -/
theorem load_congr {driver other : IncrementalBackendDriver B}
    (ha : other.arbiter.active = driver.arbiter.active) (hb : other.backend = driver.backend) :
    load cost other = ⟨driver.arbiter.activeSequence, other.arbiter.pendingSequence,
      activeWork cost driver⟩ := by
  simp only [load, activeWork, CommandArbiter.activeSequence, ha, hb]

omit [IncrementalWifiBackend B] in
/-- A driver with room has nothing pending. -/
theorem load_of_room {driver : IncrementalBackendDriver B} (h : driver.canSubmit = true) :
    load cost driver = ⟨driver.arbiter.activeSequence, none, activeWork cost driver⟩ := by
  have hp : driver.arbiter.pending = none := Option.isNone_iff_eq_none.mp h
  rw [load, CommandArbiter.pendingSequence, hp]
  rfl

/-- A cancellation that removes no command leaves the load alone. -/
theorem request_load {driver : IncrementalBackendDriver B} {sequence : CommandSequence}
    (hk : driver.arbiter.activeSequence = some sequence ∨
      driver.arbiter.pendingSequence ≠ some sequence) (hfit : Fit d driver) :
    load d.cost (after (IncrementalBackendDriver.requestCancel sequence driver)) =
        load d.cost driver ∧
      Fit d (after (IncrementalBackendDriver.requestCancel sequence driver)) := by
  rw [requestCancel_apply, after_ok]
  have he := CommandArbiter.requestCancel_effect sequence driver.arbiter
  generalize CommandArbiter.requestCancel sequence driver.arbiter = effect at he
  cases he with
  | requestActive active ha hs hr hi =>
    refine ⟨?_, fun _ => hfit (by rw [ha]; rfl)⟩
    simp only [load, activeWork, CommandArbiter.activeSequence, CommandArbiter.pendingSequence, ha,
      Option.map_some]
  | alreadyRequested active ha hs hr => exact ⟨rfl, hfit⟩
  | removePending hs hp =>
    rcases hk with hk | hk
    · exact (hs hk).elim
    · exact (hk hp).elim
  | notFound hs hp => exact ⟨rfl, hfit⟩

/-- The phase after the first step of a call carries its sources. -/
theorem idle_phase {ready : WaitSet} (hp : s.phase = .idle) :
    (∃ command, (runnerStep ready s).1.phase = .submitting command ready) ∨
      (runnerStep ready s).1.phase = .sampling ready := by
  unfold runnerStep
  rw [hp]
  dsimp only
  rcases receiveCommand (beginCall ready s.frame) with ⟨_ | command, frame⟩
  · exact Or.inr rfl
  · exact Or.inl ⟨command, rfl⟩

/-- The first step of a call advances: it receives a command if there is one and room for it. -/
theorem received_advances {command : Command} {rest : List Command}
    {frame : FacadeFrame B eventCapacity} (hp : s.phase = .idle)
    (hc : s.frame.runner.driver.canSubmit = true)
    (hq : s.frame.shared.commands.queued = command :: rest)
    (ho : frame.owner = s.frame.owner)
    (hm : frame.shared.mailbox = {s.frame.shared.mailbox with
      commands := s.frame.shared.commands.tryReceive.2}) :
    Advances d.bound ready (progress d.cost s)
      (progress d.cost {s with frame := frame, phase := .submitting command ready}) := by
  have hdriver : frame.runner.driver = s.frame.runner.driver := congrArg Owner.driver ho
  have hqueued : frame.shared.commands.queued = rest := by
    rw [show frame.shared.commands = s.frame.shared.commands.tryReceive.2 from
      congrArg Mailbox.commands hm]
    exact (tryReceive_of_cons hq).2.2
  rw [progress_eq (by rw [hdriver, load_of_room hc]) hqueued
    (congrArg (fun m => m.completion.written) hm), progress, hp, hq, load_of_room hc]
  exact .received

/-- Or it receives nothing, for want of a command or of room. -/
theorem unreceived_advances {frame : FacadeFrame B eventCapacity} (hp : s.phase = .idle)
    (hn : s.frame.shared.commands.queued = [] ∨ s.frame.runner.driver.canSubmit = false)
    (ho : frame.owner = s.frame.owner) (hm : frame.shared.mailbox = s.frame.shared.mailbox) :
    Advances d.bound ready (progress d.cost s)
      (progress d.cost {s with frame := frame, phase := .sampling ready}) := by
  have hdriver : frame.runner.driver = s.frame.runner.driver := congrArg Owner.driver ho
  rw [progress_eq (by rw [hdriver]) (congrArg (fun m => m.commands.queued) hm)
    (congrArg (fun m => m.completion.written) hm), progress, hp]
  refine .unreceived (hn.imp id fun hfull hnone => ?_)
  rw [IncrementalBackendDriver.canSubmit, CommandArbiter.canSubmit,
    show s.frame.runner.driver.arbiter.pending = none from Option.map_eq_none_iff.mp hnone] at hfull
  cases hfull

/-- The received command becomes the pending one. -/
theorem submitted_advances {command : Command} {ready' : WaitSet} {sequence : CommandSequence}
    {request : IncrementalRequest} {frame : FacadeFrame B eventCapacity}
    (hp : s.phase = .submitting command ready') (hs : sequence.get = command.sequence)
    (hroom : s.frame.runner.driver.canSubmit = true)
    (ho : frame.runner.driver = submittedDriver sequence request s.frame.runner.driver)
    (hm : frame.shared.mailbox = s.frame.shared.mailbox) :
    Advances d.bound ready (progress d.cost s)
      (progress d.cost {s with frame := frame, phase := .sampling ready'}) := by
  have hload : load d.cost frame.runner.driver =
      ⟨s.frame.runner.driver.arbiter.activeSequence, some sequence,
        activeWork d.cost s.frame.runner.driver⟩ := by
    rw [ho]
    exact load_congr rfl rfl
  rw [progress_eq hload (congrArg (fun m => m.commands.queued) hm)
    (congrArg (fun m => m.completion.written) hm), progress, hp, load_of_room hroom]
  exact .submitted hs

/-- The pending command is removed with its completion. -/
theorem removed_advances {sequence : CommandSequence} {kind : CompletionKind} {ready' : WaitSet}
    {frame : FacadeFrame B eventCapacity} (hp : s.phase = .requesting sequence.get ready')
    (hh : s.frame.runner.driver.arbiter.pendingSequence = some sequence)
    (ho : frame.runner.driver = removedDriver s.frame.runner.driver)
    (hm : frame.shared.mailbox = {s.frame.shared.mailbox with
      completion := s.frame.shared.completion.signal ⟨sequence.get, kind⟩}) :
    Advances d.bound ready (progress d.cost s)
      (progress d.cost {s with frame := frame, phase := .idle}) := by
  have hload : load d.cost frame.runner.driver =
      ⟨s.frame.runner.driver.arbiter.activeSequence, none,
        activeWork d.cost s.frame.runner.driver⟩ := by
    rw [ho]
    exact load_congr rfl rfl
  rw [progress_eq hload (congrArg (fun m => m.commands.queued) hm)
    (congrArg (fun m => m.completion.written) hm), progress, hp, load, hh]
  dsimp only
  rw [signal_written, List.map_append]
  exact .removed

/-- The ended command gets its completion. -/
theorem published_advances {event : IncrementalDriverEvent} {sequence : CommandSequence}
    {kind : CompletionKind} {frame : FacadeFrame B eventCapacity}
    (hp : s.phase = .publishing event) (ht : event.terminal = some sequence)
    (ho : frame.runner.driver = s.frame.runner.driver)
    (hm : frame.shared.mailbox = {s.frame.shared.mailbox with
      completion := s.frame.shared.completion.signal ⟨sequence.get, kind⟩}) :
    Advances d.bound ready (progress d.cost s)
      (progress d.cost {s with frame := frame, phase := .idle}) := by
  rw [progress_eq (by rw [ho]) (congrArg (fun m => m.commands.queued) hm)
    (congrArg (fun m => m.completion.written) hm), progress, hp]
  dsimp only
  rw [signal_written, List.map_append]
  exact .published ht

/-- Every step of the runner with an attentive backend advances. -/
theorem runner_advances (ready : WaitSet) (hs : Simulates s t) (hb : Bounded t)
    (hfit : Fit d s.frame.runner.driver) :
    Fit d (runnerStep ready s).1.frame.runner.driver ∧
      Advances d.bound ready (progress d.cost s) (progress d.cost (runnerStep ready s).1) := by
  have hcoherent : Coherent s.frame.runner.driver := by
    obtain ⟨held, -, hh⟩ := hs.inflight
    exact hh.coherent
  have hroom := hs.room
  have hidle := @idle_phase B eventCapacity _ s ready
  have heffect := runnerStep_effect ready hs hb
  generalize runnerStep ready s = effect at heffect hidle
  have hfit_of : ∀ {driver : IncrementalBackendDriver B}, driver = s.frame.runner.driver →
      Fit d driver := fun hx => hx ▸ hfit
  cases heffect with
  | received command rest ready' frame hp hc hq ho hm =>
    obtain rfl : ready' = ready := by
      rcases hidle hp with ⟨other, he⟩ | he <;> cases he
      rfl
    exact ⟨hfit_of (congrArg Owner.driver ho), received_advances hp hc hq ho hm⟩
  | unreceived ready' frame hp hn ho hm =>
    obtain rfl : ready' = ready := by
      rcases hidle hp with ⟨other, he⟩ | he <;> cases he
      rfl
    exact ⟨hfit_of (congrArg Owner.driver ho), unreceived_advances hp hn ho hm⟩
  | submitted command ready' sequence request frame hp hsequence ho hm =>
    have hdriver : frame.runner.driver =
        submittedDriver sequence request s.frame.runner.driver := congrArg Owner.driver ho
    refine ⟨?_, submitted_advances hp hsequence (hroom command ready' hp) hdriver hm⟩
    dsimp only
    rw [hdriver]
    exact hfit
  | sampled x rest ready' frame hp hq ho hm =>
    have hdriver : frame.runner.driver = s.frame.runner.driver := congrArg Owner.driver ho
    refine ⟨hfit_of hdriver, ?_⟩
    rw [progress_eq (by rw [hdriver]) (congrArg (fun m => m.commands.queued) hm)
      (congrArg (fun m => m.completion.written) hm), progress, hp]
    exact .sampled
  | unsampled ready' hp hq =>
    refine ⟨hfit, ?_⟩
    rw [progress_eq rfl rfl rfl, progress, hp]
    exact .unsampled
  | requested sequence ready' frame hp hk ho hm =>
    have hdriver : frame.runner.driver = after (IncrementalBackendDriver.requestCancel sequence
      s.frame.runner.driver) := congrArg Owner.driver ho
    obtain ⟨hload, hfit'⟩ := request_load hk hfit
    rw [← hdriver] at hload hfit'
    refine ⟨hfit', ?_⟩
    rw [progress_eq hload (congrArg (fun m => m.commands.queued) hm)
      (congrArg (fun m => m.completion.written) hm), progress, hp]
    exact .requested
  | removed sequence kind ready' frame hp ha hh hk ho hm =>
    have hdriver : frame.runner.driver = removedDriver s.frame.runner.driver :=
      congrArg Owner.driver ho
    refine ⟨?_, removed_advances hp hh hdriver hm⟩
    dsimp only
    rw [hdriver]
    exact hfit
  | driven ready' event drive frame hp hd ho hm =>
    have hdriver : frame.runner.driver = drive.driver := congrArg Owner.driver ho
    obtain ⟨event', drive', he, hfit', hdrives⟩ := drive_load hcoherent hfit hd
    cases he
    rw [allReady_without, ← hdriver] at hdrives
    refine ⟨hdriver ▸ hfit', ?_⟩
    rw [progress_eq rfl (congrArg (fun m => m.commands.queued) hm)
      (congrArg (fun m => m.completion.written) hm), progress, hp]
    exact .driven hdrives
  | failed ready' error drive frame hp hd ho hm =>
    obtain ⟨event, drive', he, -⟩ := drive_load hcoherent hfit hd
    cases he
  | published event sequence kind frame hp ht hk ho hm =>
    have hdriver : frame.runner.driver = s.frame.runner.driver := congrArg Owner.driver ho
    exact ⟨hfit_of hdriver, published_advances hp ht hdriver hm⟩
  | unpublished event hp ht =>
    refine ⟨hfit, ?_⟩
    rw [progress_eq rfl rfl rfl, progress, hp]
    exact .unpublished ht

omit [IncrementalWifiBackend B] in
/-- The controller changes the command channel only when it sends, at its end. -/
theorem control_queue (plane : AsyncControl.ControlPlane) (shared : SharedState eventCapacity)
    (step : AsyncControl.ControlStep) :
    (plane.step shared step).2.commands = shared.commands ∨ ∃ command,
      (plane.step shared step).2.commands.received = shared.commands.received ∧
      (plane.step shared step).2.commands.queued = shared.commands.queued ++ [command] := by
  have he := AsyncControl.step_effect plane shared step
  generalize plane.step shared step = next at he
  cases he with
  | quiet other hm => exact Or.inl (congrArg Mailbox.commands hm)
  | sent sequence call hf other commands hq hr hs hm =>
    refine Or.inr ⟨⟨sequence, call.command⟩, ?_⟩
    rw [show other.commands = commands from congrArg Mailbox.commands hm, hs, hq]
    exact ⟨hr, rfl⟩
  | _ => exact Or.inl rfl

/-- The runner sends no command and takes no completion back. -/
theorem runner_keeps (ready : WaitSet) (hs : Simulates s t) (hb : Bounded t) :
    (runnerStep ready s).1.frame.shared.commands.sent = s.frame.shared.commands.sent ∧
      s.frame.shared.completion.written <+:
        (runnerStep ready s).1.frame.shared.completion.written := by
  have heffect := runnerStep_effect ready hs hb
  generalize runnerStep ready s = effect at heffect
  have hkeeps : ∀ {frame : FacadeFrame B eventCapacity} {commands : Channel Command 1}
      {completion : Signal Completion}, commands.sent = s.frame.shared.commands.sent →
      s.frame.shared.completion.written <+: completion.written →
      frame.shared.commands = commands → frame.shared.completion = completion →
      frame.shared.commands.sent = s.frame.shared.commands.sent ∧
        s.frame.shared.completion.written <+: frame.shared.completion.written := by
    rintro frame _ _ hc hw rfl rfl
    exact ⟨hc, hw⟩
  have hsame : s.frame.shared.completion.written <+: s.frame.shared.completion.written :=
    List.prefix_refl _
  cases heffect with
  | received command rest ready' frame hp hc hq ho hm =>
    exact hkeeps (tryReceive_sent _) hsame (congrArg Mailbox.commands hm)
      (congrArg Mailbox.completion hm)
  | unreceived ready' frame hp hn ho hm =>
    exact hkeeps rfl hsame (congrArg Mailbox.commands hm) (congrArg Mailbox.completion hm)
  | submitted command ready' sequence request frame hp hsequence ho hm =>
    exact hkeeps rfl hsame (congrArg Mailbox.commands hm) (congrArg Mailbox.completion hm)
  | sampled x rest ready' frame hp hq ho hm =>
    exact hkeeps rfl hsame (congrArg Mailbox.commands hm) (congrArg Mailbox.completion hm)
  | unsampled ready' hp hq => exact ⟨rfl, hsame⟩
  | requested sequence ready' frame hp hk ho hm =>
    exact hkeeps rfl hsame (congrArg Mailbox.commands hm) (congrArg Mailbox.completion hm)
  | removed sequence kind ready' frame hp ha hh hk ho hm =>
    exact hkeeps rfl (List.prefix_append _ _) (congrArg Mailbox.commands hm)
      (congrArg Mailbox.completion hm)
  | driven ready' event drive frame hp hd ho hm =>
    exact hkeeps rfl hsame (congrArg Mailbox.commands hm) (congrArg Mailbox.completion hm)
  | failed ready' error drive frame hp hd ho hm =>
    exact hkeeps rfl hsame (congrArg Mailbox.commands hm) (congrArg Mailbox.completion hm)
  | published event sequence kind frame hp ht hk ho hm =>
    exact hkeeps rfl (List.prefix_append _ _) (congrArg Mailbox.commands hm)
      (congrArg Mailbox.completion hm)
  | unpublished event hp ht => exact ⟨rfl, hsame⟩

end Runner

/-- The system provides the service. -/
def Simulated (s : IncrementalSystem B eventCapacity) : Prop :=
  ∃ t, Simulates s t ∧ Bounded t ∧ Answers t.view

/-- The system provides the service, with a backend within its bound. -/
structure Serving (d : Attentive B E interrupt) (s : IncrementalSystem B eventCapacity) :
    Prop where
  /-- The system provides the service. -/
  simulated : Simulated s
  /-- The active operation is within the bound. -/
  fit : Fit d s.frame.runner.driver

/-- So many commands of the sequence have their completions. -/
def Answered (q : UInt32) (k : ℕ) (s : IncrementalSystem B eventCapacity) : Prop :=
  k ≤ (s.frame.shared.completion.written.map Completion.sequence).count q

/-- Steps of the runner until so many commands of the sequence are answered. -/
def stepsLeft (d : Attentive B E interrupt) (q : UInt32) (k : ℕ)
    (s : IncrementalSystem B eventCapacity) : ℕ :=
  (progress d.cost s).rank d.bound q k

/-- The input is a step of the runner. -/
def isRunner : IncrementalInput E → Bool
  | .runner _ => true
  | _ => false

section Inputs

variable {d : Attentive B E interrupt} {s : IncrementalSystem B eventCapacity} {q : UInt32} {k : ℕ}

omit [IncrementalWifiBackend B] in
/-- Every sent command has its completion or is outstanding, once. -/
theorem Simulated.balanced (h : Simulated s) (cost : B → ℕ) :
    (s.frame.shared.commands.sent.map Command.sequence).Perm
      (s.frame.shared.completion.written.map Completion.sequence ++
        (progress cost s).outstanding) := by
  obtain ⟨t, hs, -, ha⟩ := h
  obtain ⟨held, hi, hh⟩ := hs.inflight
  have hwritten : s.frame.shared.completion.written.map Completion.sequence =
      (t.answered.map Prod.fst).map Command.sequence := by
    have hw : t.shared.completion.written = t.answered.map completionOf := ha.written
    rw [← hs.shared, hw, List.map_map, List.map_map]
    rfl
  have hreceived : s.frame.shared.commands.received.Perm
      (t.answered.map Prod.fst ++ t.inflight) := by
    rw [← hs.shared]
    exact ha.balanced
  have hinflight : (t.inflight ++ s.frame.shared.commands.queued).map Command.sequence =
      (progress cost s).outstanding := by
    simp only [hi, List.map_append, hh.sequences, Progress.outstanding, Progress.begun,
      Progress.line, progress, load, CommandArbiter.owned, List.append_assoc]
    rfl
  rw [hwritten, ← hinflight, ← List.map_append, ← List.append_assoc]
  exact (hreceived.append_right _).map Command.sequence

/-- Every input keeps the service. -/
theorem simulated_next (h : Simulated s) (input : IncrementalInput E) :
    Simulated ((incrementalMachine interrupt).next s input) := by
  obtain ⟨t, hs, hb, ha⟩ := h
  obtain ⟨u, hstep, hu⟩ := simulates_step interrupt hs hb input
  exact ⟨u, hu, service_bounded hb hstep, service_answers ha hstep⟩

/-- No input takes a sent command or a completion back. -/
theorem history_next (interrupt : E → B → B) (h : Simulated s) (input : IncrementalInput E) :
    s.frame.shared.commands.sent <+:
        ((incrementalMachine interrupt).next s input).frame.shared.commands.sent ∧
      s.frame.shared.completion.written <+:
        ((incrementalMachine interrupt).next s input).frame.shared.completion.written := by
  cases input with
  | control step =>
    have hforwards := AsyncControl.control_forwards
      (AsyncControl.step_effect s.plane s.frame.shared step)
    have hreceived : (s.plane.step s.frame.shared step).2.commands.received =
        s.frame.shared.commands.received := hforwards.commandsReceived
    have hwritten : (s.plane.step s.frame.shared step).2.completion.written =
        s.frame.shared.completion.written := hforwards.written
    refine ⟨?_, hwritten ▸ List.prefix_refl _⟩
    show s.frame.shared.commands.sent <+: (s.plane.step s.frame.shared step).2.commands.sent
    rw [Channel.sent, Channel.sent, hreceived]
    exact (List.prefix_append_right_inj _).mpr hforwards.commands
  | runner ready =>
    obtain ⟨t, hs, hb, -⟩ := h
    obtain ⟨hsent, hwritten⟩ := runner_keeps ready hs hb
    exact ⟨hsent ▸ List.prefix_refl _, hwritten⟩
  | backendEvent event => exact ⟨List.prefix_refl _, List.prefix_refl _⟩

/-- Every input keeps the backend within its bound. -/
theorem serving_next (h : Serving d s) (input : IncrementalInput E) :
    Serving d ((incrementalMachine interrupt).next s input) := by
  refine ⟨simulated_next h.simulated input, ?_⟩
  cases input with
  | control step => exact h.fit
  | runner ready =>
    obtain ⟨t, hs, hb, -⟩ := h.simulated
    exact (runner_advances ready hs hb h.fit).1
  | backendEvent event =>
    intro ha
    obtain ⟨hcost, hwakeable⟩ := h.fit ha
    exact ⟨le_trans (d.interrupted event _) hcost, hwakeable⟩

/-- A completion that was signalled stays signalled. -/
theorem answered_next (h : Simulated s) (ha : Answered q k s) (input : IncrementalInput E) :
    Answered q k ((incrementalMachine interrupt).next s input) := by
  have hwritten := (history_next interrupt h input).2
  exact le_trans ha ((hwritten.map Completion.sequence).sublist.count_le q)

omit [IncrementalWifiBackend B] in
/-- What is waited for and not answered is outstanding. -/
theorem Simulated.waits (h : Simulated s) (cost : B → ℕ)
    (hk : k ≤ (s.frame.shared.commands.sent.map Command.sequence).count q) :
    k ≤ ((progress cost s).written ++ (progress cost s).outstanding).count q := by
  have hbalanced := (h.balanced cost).count_eq q
  show k ≤ (s.frame.shared.completion.written.map Completion.sequence ++ _).count q
  omega

omit [IncrementalWifiBackend B] in
/-- A command that is sent stands behind those that are waited for. -/
theorem rank_append (bound : ℕ) (command : Command) {p : Progress}
    (h : k ≤ (p.written ++ p.outstanding).count q) :
    Progress.rank bound q k {p with queued := p.queued ++ [command]} ≤ p.rank bound q k + 6 := by
  have hline : Progress.line {p with queued := p.queued ++ [command]} =
      p.line ++ [command.sequence] := by
    simp only [Progress.line, List.map_append, List.append_assoc, List.map_cons, List.map_nil]
  have hwaits : k - (p.written ++ p.begun).count q ≤ p.line.count q := by
    rw [Progress.outstanding, ← List.append_assoc, List.count_append] at h
    omega
  have hcalls : Progress.callsLeft bound q k {p with queued := p.queued ++ [command]} =
      p.callsLeft bound q k + 1 := by
    unfold Progress.callsLeft
    rw [hline]
    exact congrArg (p.load.work + ·) (share_append hwaits command.sequence)
  have hwasted : Progress.wasted {p with queued := p.queued ++ [command]} = p.wasted := rfl
  unfold Progress.rank
  rw [hcalls, hwasted]
  dsimp only
  split <;> omega

omit [IncrementalWifiBackend B] in
/-- Less work for the active command is less work for all. -/
theorem rank_mono (bound : ℕ) {p : Progress} {work : ℕ} (hw : work ≤ p.load.work) :
    Progress.rank bound q k {p with load := ⟨p.load.active, p.load.pending, work⟩} ≤
      p.rank bound q k := by
  have hcalls : Progress.callsLeft bound q k
      {p with load := ⟨p.load.active, p.load.pending, work⟩} ≤ p.callsLeft bound q k :=
    Nat.add_le_add_right hw _
  have hwasted : Progress.wasted {p with load := ⟨p.load.active, p.load.pending, work⟩} =
      p.wasted := rfl
  unfold Progress.rank
  rw [hwasted]
  dsimp only
  split
  · exact Nat.le_refl 1
  · omega

/-- A controller step delays what is waited for only if it sends a command, by no more than six
steps. -/
theorem stepsLeft_control (h : Serving d s)
    (hk : k ≤ (s.frame.shared.commands.sent.map Command.sequence).count q)
    (step : AsyncControl.ControlStep) :
    stepsLeft d q k ((incrementalMachine interrupt).next s (.control step)) +
        6 * s.frame.shared.commands.sent.length ≤
      stepsLeft d q k s + 6 * (s.plane.step s.frame.shared step).2.commands.sent.length := by
  have hwritten : (s.plane.step s.frame.shared step).2.completion.written =
      s.frame.shared.completion.written := (AsyncControl.control_forwards
        (AsyncControl.step_effect s.plane s.frame.shared step)).written
  have hprogress : progress d.cost ((incrementalMachine interrupt).next s (.control step)) =
      {progress d.cost s with queued := (s.plane.step s.frame.shared step).2.commands.queued} := by
    show Progress.mk _ _ _ ((s.plane.step s.frame.shared step).2.completion.written.map _) = _
    rw [hwritten]
    rfl
  unfold stepsLeft
  rw [hprogress]
  rcases control_queue s.plane s.frame.shared step with hsame | ⟨command, hreceived, hqueue⟩
  · rw [hsame]
    exact Nat.le_refl _
  · have hone : (s.plane.step s.frame.shared step).2.commands.sent.length =
        s.frame.shared.commands.sent.length + 1 := by
      rw [Channel.sent, hreceived, hqueue, ← List.append_assoc, List.length_append]
      rfl
    have hrank := rank_append d.bound command (h.simulated.waits d.cost hk)
    rw [hqueue, hone]
    refine le_trans (Nat.add_le_add_right hrank _) ?_
    omega

/-- Every input answers what is waited for, or keeps it waiting; a step of the runner in a call
with all sources ready brings it closer, and only a command that is sent delays it, by no more
than six steps. -/
theorem stepsLeft_next (h : Serving d s)
    (hk : k ≤ (s.frame.shared.commands.sent.map Command.sequence).count q)
    (input : IncrementalInput E)
    (hready : ∀ ready, input = .runner ready → allReady ready = true) :
    Answered q k ((incrementalMachine interrupt).next s input) ∨
      stepsLeft d q k ((incrementalMachine interrupt).next s input) + (isRunner input).toNat +
          6 * s.frame.shared.commands.sent.length ≤
        stepsLeft d q k s +
          6 * ((incrementalMachine interrupt).next s input).frame.shared.commands.sent.length := by
  have hwaits := h.simulated.waits d.cost hk
  have hsent : s.frame.shared.commands.sent.length ≤
      ((incrementalMachine interrupt).next s input).frame.shared.commands.sent.length :=
    (history_next interrupt h.simulated input).1.length_le
  cases input with
  | control step => exact Or.inr (stepsLeft_control h hk step)
  | runner ready =>
    obtain ⟨t, hs, hb, -⟩ := h.simulated
    by_cases hn : Answered q k ((incrementalMachine interrupt).next s (.runner ready))
    · exact Or.inl hn
    · have hrank := rank_next (runner_advances ready hs hb h.fit).2 hwaits (Nat.lt_of_not_le hn)
        (hready ready rfl)
      exact Or.inr (Nat.add_le_add hrank (Nat.mul_le_mul_left 6 hsent))
  | backendEvent event =>
    have hwork : activeWork d.cost ((incrementalMachine interrupt).next s
        (.backendEvent event)).frame.runner.driver ≤ activeWork d.cost s.frame.runner.driver := by
      have hcost := d.interrupted event s.frame.runner.driver.backend
      have hdriver : ((incrementalMachine interrupt).next s
          (.backendEvent event)).frame.runner.driver =
          {s.frame.runner.driver with
            backend := interrupt event s.frame.runner.driver.backend} := rfl
      rw [hdriver]
      unfold activeWork
      dsimp only
      cases s.frame.runner.driver.arbiter.active with
      | none => exact Nat.le_refl _
      | some active => exact Nat.add_le_add_right (Nat.add_le_add_right hcost 1) _
    have hrank : stepsLeft d q k ((incrementalMachine interrupt).next s (.backendEvent event)) ≤
        stepsLeft d q k s := rank_mono d.bound (p := progress d.cost s) hwork
    exact Or.inr (Nat.add_le_add hrank (Nat.mul_le_mul_left 6 hsent))

/-- No command waits for more steps than those of the commands that can be ahead of it. -/
theorem stepsLeft_le (h : Serving d s) : stepsLeft d q k s ≤ 18 * (d.bound + 3) + 5 := by
  obtain ⟨t, hs, -⟩ := h.simulated
  have hwork : (progress d.cost s).load.work ≤ d.bound + 2 := by
    show activeWork d.cost s.frame.runner.driver ≤ _
    unfold activeWork
    cases ha : s.frame.runner.driver.arbiter.active with
    | none => exact Nat.zero_le _
    | some active =>
      have hcost := (h.fit (by rw [ha]; rfl)).1
      dsimp only
      split <;> omega
  -- While a command is being entered the pending slot is free.
  have hline : (progress d.cost s).line.length ≤ 2 := by
    have hqueued := s.frame.shared.commands.bounded
    have hpending : s.frame.runner.driver.arbiter.pendingSequence.toList.length +
        (entering s.phase).toList.length ≤ 1 := by
      cases hp : s.phase with
      | submitting command ready =>
        have hroom := hs.room command ready hp
        rw [CommandArbiter.pendingSequence, Option.isNone_iff_eq_none.mp hroom]
        exact Nat.le_refl 1
      | _ =>
        cases s.frame.runner.driver.arbiter.pendingSequence <;>
          first | exact Nat.zero_le 1 | exact Nat.le_refl 1
    simp only [Progress.line, progress, load, List.length_append, List.length_map]
    omega
  have hcalls : (progress d.cost s).callsLeft d.bound q k ≤ d.bound + 2 + (d.bound + 3) * 2 := by
    refine Nat.add_le_add hwork ?_
    exact le_trans (share_le (Nat.succ_pos _) q _ _) (Nat.mul_le_mul_left _ hline)
  have hsteps : stepsToDrive (progress d.cost s).phase ≤ 5 := by
    cases (progress d.cost s).phase <;> simp [stepsToDrive]
  unfold stepsLeft Progress.rank
  split
  · omega
  · split <;> omega

end Inputs

section Runs

variable (backend : B) (budget : WorkBudget) (config : WifiConfig) (hpos : 0 < eventCapacity)

/-- Every state of a run provides the service. -/
theorem run_simulated (interrupt : E → B → B) (inputs : List (IncrementalInput E)) :
    Simulated (incrementalRun interrupt backend budget config hpos inputs) := by
  refine run_invariant (incrementalMachine interrupt) (I := Simulated) ?_
    (fun _ input h => simulated_next h input) inputs
  exact ⟨_, simulates_start backend budget config hpos, bounded_new hpos,
    (delivers_new hpos).answers⟩

/-- With an attentive backend it stays within the bound. -/
theorem run_serving (d : Attentive B E interrupt) (inputs : List (IncrementalInput E)) :
    Serving d (incrementalRun interrupt backend budget config hpos inputs) := by
  refine run_invariant (incrementalMachine interrupt) (I := Serving d) ?_
    (fun _ input h => serving_next h input) inputs
  exact ⟨run_simulated backend budget config hpos interrupt [], fun ha => (by cases ha)⟩

/-- After so many steps each sequence has as many completions as it was sent before. -/
theorem run_answered (d : Attentive B E interrupt) (before after : List (IncrementalInput E))
    (hready : ∀ ready, .runner ready ∈ after → allReady ready = true)
    (hsteps : 18 * (d.bound + 3) + 5 + 6 * (incrementalRun interrupt backend budget config hpos
        (before ++ after)).frame.shared.commands.sent.length ≤
      after.countP isRunner + 6 * (incrementalRun interrupt backend budget config hpos
        before).frame.shared.commands.sent.length)
    (q : UInt32) :
    Answered q (((incrementalRun interrupt backend budget config hpos
        before).frame.shared.commands.sent.map Command.sequence).count q)
      (incrementalRun interrupt backend budget config hpos (before ++ after)) := by
  have hserving := run_serving backend budget config hpos d before
  have hcut : incrementalRun interrupt backend budget config hpos (before ++ after) =
      (incrementalMachine interrupt).run
        (incrementalRun interrupt backend budget config hpos before) after :=
    run_append _ _ before after
  rw [hcut] at hsteps ⊢
  generalize incrementalRun interrupt backend budget config hpos before = start
    at hserving hsteps ⊢
  refine run_ranked (incrementalMachine interrupt)
    (I := fun s => Serving d s ∧ (start.frame.shared.commands.sent.map Command.sequence).count q ≤
      (s.frame.shared.commands.sent.map Command.sequence).count q)
    (R := stepsLeft d q ((start.frame.shared.commands.sent.map Command.sequence).count q))
    (K := fun s => 6 * s.frame.shared.commands.sent.length) (C := isRunner)
    (A := fun input => ∀ ready, input = .runner ready → allReady ready = true)
    ?_ ?_ ?_ ?_ ⟨hserving, Nat.le_refl _⟩ after ?_ ?_
  · rintro s input - ⟨h, hk⟩
    have hsent := (history_next interrupt h.simulated input).1
    exact ⟨serving_next h input,
      le_trans hk ((hsent.map Command.sequence).sublist.count_le q)⟩
  · exact fun s input h ha => answered_next h.1.simulated ha input
  · exact fun s input hall h _ => stepsLeft_next h.1 h.2 input hall
  · rintro s ⟨h, hk⟩ -
    refine rank_pos (h.simulated.waits d.cost hk) fun ha => ?_
    obtain ⟨active, hactive⟩ := Option.isSome_iff_exists.mp (Option.isSome_map.symm.trans ha)
    show 0 < (load d.cost s.frame.runner.driver).work
    rw [load_of_some hactive]
    exact Nat.add_pos_left (Nat.succ_pos _) _
  · rintro input hi ready rfl
    exact hready ready hi
  · exact le_trans (Nat.add_le_add_right (stepsLeft_le hserving) _) hsteps

/-- With an attentive backend every command is answered, as often as it was sent and no more:
each sequence has at most as many completions as commands were sent with it, and as many as
were sent by some moment when the runner has taken so many steps after it in calls with all
sources ready, and six more for each command sent meanwhile, whatever else is interleaved. -/
theorem commands_answered (d : Attentive B E interrupt) (before after : List (IncrementalInput E))
    (hready : ∀ ready, .runner ready ∈ after → allReady ready = true)
    (hsteps : 18 * (d.bound + 3) + 5 + 6 * (incrementalRun interrupt backend budget config hpos
        (before ++ after)).frame.shared.commands.sent.length ≤
      after.countP isRunner + 6 * (incrementalRun interrupt backend budget config hpos
        before).frame.shared.commands.sent.length) :
    let sent := fun inputs => (incrementalRun interrupt backend budget config hpos
      inputs).frame.shared.commands.sent.map Command.sequence
    let answered := (incrementalRun interrupt backend budget config hpos
      (before ++ after)).frame.shared.completion.written.map Completion.sequence
    ∀ q, (sent before).count q ≤ answered.count q ∧
      answered.count q ≤ (sent (before ++ after)).count q := by
  intro sent answered q
  refine ⟨run_answered backend budget config hpos d before after hready hsteps q, ?_⟩
  have hbalanced := ((run_simulated backend budget config hpos interrupt
    (before ++ after)).balanced d.cost).count_eq q
  rw [List.count_append] at hbalanced
  exact Nat.le_of_add_right_le (Nat.le_of_eq hbalanced.symm)

end Runs

/-- A backend that counts the polls of its operation down. -/
structure CountdownBackend where
  /-- Polls left before the one that completes. -/
  polls : ℕ

instance : IncrementalWifiBackend CountdownBackend where
  start _ _ _ := (.ok (), ⟨1⟩)
  poll backend id _ _ scanOutput :=
    match backend.polls with
    | 0 => (.ok ⟨id, 0, 0, false, true, .complete .disconnected⟩, backend, scanOutput)
    | polls + 1 => (.ok ⟨id, 0, 0, false, true, .pending .backend⟩, ⟨polls⟩, scanOutput)
  cancel backend _ := (.ok (), backend)
  nextDeadlineUs _ _ := none

/-- The backend sets of a countdown are its own. -/
theorem wakeable_backend : Wakeable .backend := ⟨by decide, Or.inr ⟨.backend, by decide⟩⟩

/-- A countdown is attentive. -/
def countdownAttentive : Attentive CountdownBackend Unit (fun _ backend => backend) where
  cost := CountdownBackend.polls
  bound := 1
  start h := by cases h; exact Nat.le_refl 1
  cancel h := by cases h; exact Nat.le_refl _
  interrupted _ _ := Nat.le_refl _
  poll {n backend next id reason budget scan output report} h := by
    rcases backend with ⟨_ | polls⟩
    · cases h
      exact ⟨rfl, fun _ hw => by cases hw⟩
    · cases h
      exact ⟨rfl, fun _ _ => Nat.lt_succ_self polls⟩
  wakeable {n backend next id reason budget scan output report} h := by
    rcases backend with ⟨_ | polls⟩
    · cases h
      exact fun _ hw => by cases hw
    · cases h
      intro waitFor hw
      cases hw
      exact wakeable_backend

/-- All sources that the countdown may wait for. -/
def everySource : WaitSet := WaitSet.backend.union (WaitSet.l2Rx.union .timer)

/-- A disconnection is sent. -/
def sentDisconnection : List (IncrementalInput Unit) :=
  [.control (.call .disconnect), .control .allocate, .control .send]

/-- Runs of a countdown that stands at its end. -/
def countdownRun (inputs : List (IncrementalInput Unit)) :
    IncrementalSystem CountdownBackend 1 :=
  incrementalRun (fun _ backend => backend) ⟨0⟩ smallestBudget .default Nat.one_pos inputs

/-- Steps of the runner in calls with every source ready. -/
def readySteps (steps : ℕ) : List (IncrementalInput Unit) :=
  List.replicate steps (.runner everySource)

/-- A disconnection on a countdown is answered. -/
theorem commands_answered_countdown :
    1 ≤ ((countdownRun (sentDisconnection ++
      readySteps 77)).frame.shared.completion.written.map Completion.sequence).count 1 := by
  have hsent : ((countdownRun sentDisconnection).frame.shared.commands.sent.map
      Command.sequence).count 1 = 1 := by decide +kernel
  have hready : ∀ ready, .runner ready ∈ readySteps 77 → allReady ready = true := by
    intro ready hm
    cases List.eq_of_mem_replicate hm
    decide
  have hsteps : 18 * (countdownAttentive.bound + 3) + 5 +
      6 * (countdownRun (sentDisconnection ++ readySteps 77)).frame.shared.commands.sent.length ≤
        (readySteps 77).countP isRunner +
          6 * (countdownRun sentDisconnection).frame.shared.commands.sent.length := by
    decide +kernel
  unfold countdownRun at hsent hsteps ⊢
  have hanswered := (commands_answered (⟨0⟩ : CountdownBackend) smallestBudget .default Nat.one_pos
    countdownAttentive sentDisconnection (readySteps 77) hready hsteps 1).1
  dsimp only at hanswered
  rw [hsent] at hanswered
  exact hanswered

end HisiRfCore.CommandProgress
