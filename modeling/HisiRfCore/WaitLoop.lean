import HisiRfCore.BackendEffort
import HisiRfCore.WaitAgreement

/-!
# The loop of waits and calls

A runner is meant to be driven by a loop: wait, then call with the set that the wait
answered. The loop never spins: each of its calls takes a command, takes a cancellation or
calls the backend, also when the controller moved between the wait and the call, so a
diligent backend bounds the calls of the whole loop by its commands. It sleeps only when
every command is answered, or when the platform has nothing for the active operation.
-/

namespace HisiRfCore.WaitLoop

open StateBorrow BoundedChannel WifiTypes RadioStorage AsyncControl ServiceProtocol
open ServiceDelivery IncrementalContract CommandArbitration RunnerState BackendDriver
open DriverCoherence DriverCalls IncrementalFacade IncrementalInterleaving IncrementalService
open BackendTrace hiding ended
open BackendContract WakeSelection DriverErrors FacadeCancellation IncrementalWait
open AttentiveBackends ProgressRank CommandProgress BackendEffort WaitReadiness WaitAgreement
open InputOutputMachine FacadeFrame

variable {B E F P ε : Type} {eventCapacity : ℕ}

/-- Calls of a loop: those with the set that the wait before them answered. -/
structure LoopCount where
  /-- Set that the last wait answered. A call uses it up, an event of the backend may make
  it stale. -/
  answer : Option WaitSet
  /-- Calls with such a set. -/
  calls : ℕ

/-- Read one more input with its reply. -/
def LoopCount.note (count : LoopCount) : WaitInput E F × WaitReply ε → LoopCount
  | (.pollWait, .polled (.ready (.ok ready))) => ⟨some ready, count.calls⟩
  | (.runOnce ready, .called _) =>
    ⟨none, if count.answer = some ready then count.calls + 1 else count.calls⟩
  | (.control _, _) | (.dropWait, _) | (.platformEvent _, _) => count
  | _ => ⟨none, count.calls⟩

/-- Calls of the loop in a transcript. -/
def loopCount (history : List (WaitInput E F × WaitReply ε)) : LoopCount :=
  history.foldl LoopCount.note ⟨none, 0⟩

/-- After a poll of a wait the answer is the set that it returned. -/
theorem note_pollWait {count : LoopCount} {answer : Poll (Except (IncrementalWaitError ε) WaitSet)}
    {ready : WaitSet}
    (h : (count.note ((.pollWait, .polled answer) : WaitInput E F × WaitReply ε)).answer =
      some ready) : answer = .ready (.ok ready) := by
  rcases answer with _ | ⟨error | set⟩
  · cases h
  · cases h
  · cases h
    rfl

/-- A poll of a wait is not a call. -/
theorem note_pollWait_calls (count : LoopCount)
    (answer : Poll (Except (IncrementalWaitError ε) WaitSet)) :
    (count.note ((.pollWait, .polled answer) : WaitInput E F × WaitReply ε)).calls =
      count.calls := by
  rcases answer with _ | ⟨error | set⟩ <;> rfl

/-- One more entry is noted last. -/
theorem loopCount_concat (history : List (WaitInput E F × WaitReply ε))
    (entry : WaitInput E F × WaitReply ε) :
    loopCount (history ++ [entry]) = (loopCount history).note entry :=
  List.foldl_concat _ _ _ _

section Growth

/-- What a runner has taken and called only grows. -/
structure Grows (before next : FacadeFrame (BackendRecorder B) eventCapacity) : Prop where
  /-- Commands received. -/
  commands : before.shared.commands.received.length ≤ next.shared.commands.received.length
  /-- Cancellations taken. -/
  cancellations :
    before.shared.cancellations.received.length ≤ next.shared.cancellations.received.length
  /-- Backend calls made. -/
  calls : (trace before.runner.driver).length ≤ (trace next.runner.driver).length

/-- Messages taken and backend calls made. -/
def used (frame : FacadeFrame (BackendRecorder B) eventCapacity) : ℕ :=
  frame.shared.commands.received.length + frame.shared.cancellations.received.length +
    (trace frame.runner.driver).length

/-- Growth is transitive. -/
theorem Grows.trans {first second third : FacadeFrame (BackendRecorder B) eventCapacity}
    (h : Grows first second) (h' : Grows second third) : Grows first third :=
  ⟨le_trans h.commands h'.commands, le_trans h.cancellations h'.cancellations,
    le_trans h.calls h'.calls⟩

/-- A call that acts grows by one at least. -/
theorem used_lt_of_acts {before next : FacadeFrame (BackendRecorder B) eventCapacity}
    (hg : Grows before next) (h : Acts before next) : used before < used next := by
  have hcommands := hg.commands
  have hcancellations := hg.cancellations
  have hcalls := hg.calls
  unfold used
  rcases h with ⟨command, hc⟩ | ⟨sequence, hx⟩ | ⟨call, ht⟩
  · rw [hc, List.length_append, List.length_singleton] at hcommands ⊢
    omega
  · rw [hx, List.length_append, List.length_singleton] at hcancellations ⊢
    omega
  · rw [ht, List.length_append, List.length_singleton] at hcalls ⊢
    omega

variable [IncrementalWifiBackend B] {s : IncrementalSystem (BackendRecorder B) eventCapacity}

/-- A drive only adds to the trace. -/
theorem drive_calls {driver : IncrementalBackendDriver (BackendRecorder B)} {n : ℕ}
    {scan : Vector ScanResult n} {ready : WaitSet}
    {result : EStateM.Result IncrementalDriverError (DriverFrame (BackendRecorder B) n)
      IncrementalDriverEvent} (h : DriveOutcome driver scan ready result) :
    (trace driver).length ≤ (trace (after result).driver).length := by
  have hcall : ∀ {next : BackendRecorder B} {call : BackendCall},
      next.calls = driver.backend.calls ++ [call] →
        (trace driver).length ≤ next.calls.length := by
    intro next call hx
    rw [hx, List.length_append]
    exact Nat.le_add_right _ _
  cases h with
  | idle ha hp => exact Nat.le_refl _
  | started held backend ha hp hb => exact hcall (start_calls hb)
  | startFailed held backend error ha hp hb => exact hcall (start_calls hb)
  | cancelDelivered active backend ha hd hb => exact hcall (cancel_calls hb)
  | cancelFailed active backend error ha hd hb => exact hcall (cancel_calls hb)
  | waiting active waitFor runner ha hd hs => exact Nat.le_refl _
  | commandReady active runner ha hd hs => exact Nat.le_refl _
  | pollFailed active reason runner error backend output ha hd hs hb => exact hcall (poll_calls hb)
  | staleReport active reason runner report backend output ha hd hs hb hr =>
    exact hcall (poll_calls hb)
  | kept active reason runner report backend output event waitFor ha hd hs hb hr he =>
    exact hcall (poll_calls hb)
  | ended active reason runner report backend output event ha hd hs hb hr he =>
    exact hcall (poll_calls hb)

/-- A step of the runner takes a message, calls the backend or does neither; it takes
nothing back. -/
theorem grows_runner (ready : WaitSet) {t : Service eventCapacity} (hs : Simulates s t)
    (hb : Bounded t) : Grows s.frame (runnerStep ready s).1.frame := by
  have heffect := runnerStep_effect ready hs hb
  generalize runnerStep ready s = next at heffect
  -- The channels of the next mailbox and its driver decide what has grown.
  have hgrows : ∀ {frame : FacadeFrame (BackendRecorder B) eventCapacity}
      {commands : Channel Command 1} {cancellations : Channel UInt32 3}
      {driver : IncrementalBackendDriver (BackendRecorder B)},
      frame.shared.commands = commands → frame.shared.cancellations = cancellations →
      frame.runner.driver = driver →
      s.frame.shared.commands.received.length ≤ commands.received.length →
      s.frame.shared.cancellations.received.length ≤ cancellations.received.length →
      (trace s.frame.runner.driver).length ≤ (trace driver).length → Grows s.frame frame := by
    rintro frame _ _ _ rfl rfl rfl hc hx ht
    exact ⟨hc, hx, ht⟩
  cases heffect with
  | received command rest ready' frame hp hc hq ho hm =>
    refine hgrows (congrArg Mailbox.commands hm) (congrArg Mailbox.cancellations hm)
      (congrArg Owner.driver ho) ?_ (Nat.le_refl _) (Nat.le_refl _)
    show _ ≤ s.frame.shared.commands.tryReceive.2.received.length
    rw [(tryReceive_of_cons hq).2.1, List.length_append]
    exact Nat.le_add_right _ _
  | sampled x rest ready' frame hp hq ho hm =>
    refine hgrows (congrArg Mailbox.commands hm) (congrArg Mailbox.cancellations hm)
      (congrArg Owner.driver ho) (Nat.le_refl _) ?_ (Nat.le_refl _)
    show _ ≤ s.frame.shared.cancellations.tryReceive.2.received.length
    rw [(tryReceive_of_cons hq).2.1, List.length_append]
    exact Nat.le_add_right _ _
  | unreceived ready' frame hp hn ho hm =>
    exact hgrows (congrArg Mailbox.commands hm) (congrArg Mailbox.cancellations hm)
      (congrArg Owner.driver ho) (Nat.le_refl _) (Nat.le_refl _) (Nat.le_refl _)
  | submitted command ready' sequence request frame hp hsequence ho hm =>
    exact hgrows (congrArg Mailbox.commands hm) (congrArg Mailbox.cancellations hm)
      (congrArg Owner.driver ho) (Nat.le_refl _) (Nat.le_refl _) (Nat.le_refl _)
  | unsampled ready' hp hq => exact ⟨Nat.le_refl _, Nat.le_refl _, Nat.le_refl _⟩
  | requested sequence ready' frame hp hk ho hm =>
    refine hgrows (congrArg Mailbox.commands hm) (congrArg Mailbox.cancellations hm)
      (congrArg Owner.driver ho) (Nat.le_refl _) (Nat.le_refl _) (Nat.le_of_eq ?_)
    rw [requestCancel_apply, after_ok]
    rfl
  | removed sequence kind ready' frame hp ha hh hk ho hm =>
    exact hgrows (congrArg Mailbox.commands hm) (congrArg Mailbox.cancellations hm)
      (congrArg Owner.driver ho) (Nat.le_refl _) (Nat.le_refl _) (Nat.le_refl _)
  | driven ready' event drive frame hp hd ho hm =>
    exact hgrows (congrArg Mailbox.commands hm) (congrArg Mailbox.cancellations hm)
      (congrArg Owner.driver ho) (Nat.le_refl _) (Nat.le_refl _) (drive_calls hd)
  | failed ready' error drive frame hp hd ho hm =>
    exact hgrows (congrArg Mailbox.commands hm) (congrArg Mailbox.cancellations hm)
      (congrArg Owner.driver ho) (Nat.le_refl _) (Nat.le_refl _) (drive_calls hd)
  | published event sequence kind frame hp ht hk ho hm =>
    exact hgrows (congrArg Mailbox.commands hm) (congrArg Mailbox.cancellations hm)
      (congrArg Owner.driver ho) (Nat.le_refl _) (Nat.le_refl _) (Nat.le_refl _)
  | unpublished event hp ht => exact ⟨Nat.le_refl _, Nat.le_refl _, Nat.le_refl _⟩

/-- A whole call takes nothing back. -/
theorem grows_call (plane : ControlPlane) (ready : WaitSet)
    (frame : FacadeFrame (BackendRecorder B) eventCapacity)
    (h : ∃ t, Simulates ⟨plane, frame, .idle⟩ t ∧ Bounded t) :
    Grows frame (after (runOnce ready frame)) := by
  have hgrown : (∃ t, Simulates ⟨plane, after (runOnce ready frame), .idle⟩ t ∧ Bounded t) ∧
      Grows frame (after (runOnce ready frame)) := by
    have hreturns := runOnce_returns plane ready frame
    refine returns_invariant
      (I := fun s => (∃ t, Simulates s t ∧ Bounded t) ∧ Grows frame s.frame) ?_
      hreturns ⟨h, ⟨Nat.le_refl _, Nat.le_refl _, Nat.le_refl _⟩⟩
    rintro s ⟨⟨t, hs, hb⟩, hg⟩
    obtain ⟨u, hstep, hu⟩ := simulates_runner ready hs hb
    exact ⟨⟨u, hu, service_bounded hb hstep⟩, hg.trans (grows_runner ready hs hb)⟩
  exact hgrown.2

end Growth

/-- A call with the set is worth making: it is due at once, or it polls for a source that the
driver waits for. -/
def Worth [IncrementalWifiBackend B] (frame : FacadeFrame (BackendRecorder B) eventCapacity)
    (ready : WaitSet) : Prop :=
  (waitIntent frame).runImmediately = true ∨
    ready.contains .command = false ∧ Shares frame.runner.driver ready

section Worth

variable [IncrementalWifiBackend B] {frame : FacadeFrame (BackendRecorder B) eventCapacity}
  {plane : ControlPlane} {ready : WaitSet}

/-- A call that is worth making acts. -/
theorem acts_of_worth (h : Awaited ⟨plane, frame, .idle⟩) (hb : plane.allocated < 2 ^ 32 - 1)
    (hw : Worth frame ready) : Acts frame (after (runOnce ready frame)) := by
  have hc := h.coherent hb
  cases hi : (waitIntent frame).runImmediately with
  | true => exact acts_immediately hc hi ready
  | false =>
    obtain ⟨hcommand, hcancel, -⟩ := queues_of_asleep h hb hi
    obtain ⟨hnone, reason, hne, hready, hsources⟩ := hw.resolve_left (by rw [hi]; decide)
    have hkeep : ∀ reason, (ready.without .cancel).contains (source reason) =
        ready.contains (source reason) := by
      intro reason
      rw [contains_without, show WaitSet.cancel.contains (source reason) = false by
        cases reason <;> rfl, Bool.not_false, Bool.and_true]
    refine Or.inr (Or.inr ?_)
    rw [runOnce_drives (Or.inl hcommand) hcancel, driveAndPublish_driver]
    exact drive_ready hc (h.waits hb) ((hkeep reason).trans hready) ((hkeep .command).trans hnone)
      hsources (driveOnce_outcome hc _ _)

/-- The set that a wait answers is worth a call. -/
theorem worth_of_answer [IncrementalWaitPlatform P ε] (h : Awaited ⟨plane, frame, .idle⟩)
    (hb : plane.allocated < 2 ^ 32 - 1) {platform : P}
    (hp : (pollIntent frame platform).1 = .ready (.ok ready)) : Worth frame ready := by
  cases hi : (waitIntent frame).runImmediately with
  | true => exact Or.inl hi
  | false =>
    obtain ⟨hcommand, hcancel, -⟩ := queues_of_asleep h hb hi
    unfold pollIntent at hp
    dsimp only at hp
    rw [if_neg (ne_true_of_eq_false hi), channelsReady_of_empty hcommand hcancel] at hp
    obtain ⟨hnone, -, reason, hne, hready, hsources⟩ := pollPlatform_ready hp
    rw [waitIntent_sources frame hne] at hsources
    exact Or.inr ⟨hnone, reason, hne, hready, hsources⟩

/-- The controller may make a call due; it takes away no reason for one. -/
theorem worth_control (step : ControlStep) (hw : Worth frame ready) :
    Worth {frame with shared := (plane.step frame.shared step).2} ready := by
  have hforwards := control_forwards (step_effect plane frame.shared step)
  refine hw.imp (fun hi => ?_) id
  have hempty : ∀ {α : Type} {before next : List α}, before <+: next → next.isEmpty = true →
      before.isEmpty = true := by
    intro α before next hgrows hn
    rw [List.isEmpty_iff] at hn ⊢
    rw [hn] at hgrows
    exact List.prefix_nil.mp hgrows
  have hcommand := mt (hempty hforwards.commands)
  have hcancel := mt (hempty hforwards.cancellations)
  simp only [SharedState.mailbox] at hcommand hcancel
  rw [waitIntent_runImmediately] at hi ⊢
  simp only [Bool.or_eq_true, Bool.and_eq_true, Bool.not_eq_true'] at hi ⊢
  simp only [Bool.not_eq_true] at hcommand hcancel
  exact hi.imp (Or.imp id (And.imp id hcommand)) hcancel

end Worth

section Loop

variable [IncrementalWifiBackend B] [IncrementalWaitPlatform P ε]
  {s : WaitSystem (BackendRecorder B) P eventCapacity}

/-- What a loop keeps: below the wrap, the answer at hand is worth a call, and every call of
the loop so far took a message or called the backend. -/
structure Looping (history : List (WaitInput E F × WaitReply ε))
    (s : WaitSystem (BackendRecorder B) P eventCapacity) : Prop where
  /-- The system is awaited. -/
  awaited : Awaited (between s)
  /-- The last answer still holds. -/
  answered : s.plane.allocated < 2 ^ 32 - 1 → ∀ ready,
    (loopCount history).answer = some ready → Worth s.frame ready
  /-- The calls are counted by what they did. -/
  counted : s.plane.allocated < 2 ^ 32 - 1 → (loopCount history).calls ≤ used s.frame

variable {history : List (WaitInput E F × WaitReply ε)}

omit [IncrementalWaitPlatform P ε] in
/-- Below the wrap a system provides the service. -/
theorem service_of_awaited (h : Awaited (between s)) (hb : s.plane.allocated < 2 ^ 32 - 1) :
    ∃ t, Simulates (between s) t ∧ Bounded t := by
  obtain ⟨t, hs, hd, -⟩ := h.steady hb
  exact ⟨t, hs, hd.bounded⟩

/-- A poll of a wait takes no message and calls no backend. -/
theorem used_pollWaitReady (s : WaitSystem (BackendRecorder B) P eventCapacity) :
    used (pollWaitReady s).1.frame = used s.frame := by
  have hbegun : used (beginWait s) = used s.frame := by
    unfold beginWait
    split <;> rfl
  unfold pollWaitReady
  split
  · exact hbegun
  · exact hbegun

omit [IncrementalWaitPlatform P ε] in
/-- A call with the answer at hand is counted by what it does. -/
theorem counted_call (h : Looping history s) (hb : s.plane.allocated < 2 ^ 32 - 1)
    (ready : WaitSet) (result : CallResult) :
    ((loopCount history).note
      ((.runOnce ready, .called result) : WaitInput E F × WaitReply ε)).calls ≤
        used (after (runOnce ready s.frame)) := by
  have hbefore := h.counted hb
  have hgrows := grows_call s.plane ready s.frame (service_of_awaited h.awaited hb)
  by_cases ha : (loopCount history).answer = some ready
  · have hacts := acts_of_worth h.awaited hb (h.answered hb ready ha)
    have hless := used_lt_of_acts hgrows hacts
    simp only [LoopCount.note, ha, if_true]
    omega
  · have hcommands := hgrows.commands
    have hcancellations := hgrows.cancellations
    have hcalls := hgrows.calls
    simp only [LoopCount.note, ha, if_false]
    unfold used at hbefore ⊢
    omega

/-- Every step keeps the loop. -/
theorem looping_next (interrupt : E → B → B) (signal : F → P → P) (h : Looping history s)
    (input : WaitInput E F) :
    Looping (history ++ [(input, (waitMachine (recordedInterrupt interrupt) signal).output s
      input)]) ((waitMachine (recordedInterrupt interrupt) signal).next s input) := by
  refine ⟨awaited_next interrupt signal h.awaited input, fun hb => ?_, fun hb => ?_⟩
  all_goals rw [loopCount_concat]
  · intro ready ha
    cases input with
    | control step =>
      have hbefore := Nat.lt_of_le_of_lt (allocated_le_step s.plane s.frame.shared step) hb
      exact worth_control step (h.answered hbefore ready ha)
    | pollWait =>
      obtain ⟨-, hawaited, hanswer⟩ := pollWaitReady_awaited h.awaited
      rw [output_pollWait] at ha
      exact worth_of_answer hawaited hb (hanswer.symm.trans (note_pollWait ha))
    | runOnce ready' =>
      have hnone : ∀ reply : WaitReply ε, ((loopCount history).note
          ((.runOnce ready', reply) : WaitInput E F × WaitReply ε)).answer = none := by
        intro reply
        cases reply <;> rfl
      rw [hnone] at ha
      cases ha
    | dropWait => exact h.answered hb ready ha
    | backendEvent event => cases ha
    | platformEvent event => exact h.answered hb ready ha
  · cases input with
    | control step =>
      have hbefore := Nat.lt_of_le_of_lt (allocated_le_step s.plane s.frame.shared step) hb
      have hforwards := control_forwards (step_effect s.plane s.frame.shared step)
      have hused : used s.frame =
          used {s.frame with shared := (s.plane.step s.frame.shared step).2} := by
        have hcommands := hforwards.commandsReceived
        have hcancellations := hforwards.cancellationsReceived
        simp only [SharedState.mailbox] at hcommands hcancellations
        simp only [used, hcommands, hcancellations]
      exact le_trans (h.counted hbefore) (Nat.le_of_eq hused)
    | pollWait =>
      obtain ⟨hplane, -, -⟩ := pollWaitReady_awaited h.awaited
      have hbefore : s.plane.allocated < 2 ^ 32 - 1 := by
        rw [← hplane]
        exact hb
      rw [output_pollWait, note_pollWait_calls]
      exact le_trans (h.counted hbefore) (Nat.le_of_eq (used_pollWaitReady s).symm)
    | runOnce ready' =>
      by_cases hwaiting : s.waiting = true
      · have hsame : (waitMachine (recordedInterrupt interrupt) signal).step s (.runOnce ready') =
            (s, (.quiet : WaitReply ε)) := by
          simp only [waitMachine, hwaiting, if_true]
        rw [Machine.next, hsame] at hb
        rw [Machine.next, Machine.output, hsame]
        exact h.counted hb
      · have hcall : (waitMachine (recordedInterrupt interrupt) signal).step s (.runOnce ready') =
            ({s with frame := after (runOnce ready' s.frame)},
              (.called (reply (runOnce ready' s.frame)) : WaitReply ε)) := by
          simp only [waitMachine, hwaiting, if_false, Bool.false_eq_true]
        rw [Machine.next, hcall] at hb
        rw [Machine.next, Machine.output, hcall]
        exact counted_call h hb ready' _
    | dropWait => exact h.counted hb
    | backendEvent event => exact h.counted hb
    | platformEvent event => exact h.counted hb

end Loop

section Effort

variable [IncrementalWifiBackend B] {interrupt : E → B → B}
  {frame : FacadeFrame (BackendRecorder B) eventCapacity}

omit [IncrementalWifiBackend B] in
/-- Counting keeps the service. -/
theorem simulated_count {plane : ControlPlane}
    (f : IncrementalRunnerDiagnostics → IncrementalRunnerDiagnostics)
    (h : Simulated ⟨plane, frame, .idle⟩) : Simulated ⟨plane, setDiagnostics f frame, .idle⟩ := by
  obtain ⟨t, hs, hb, ha⟩ := h
  have hview : (⟨t.plane, (setDiagnostics f frame).shared, t.inflight, t.owing, t.answered⟩ :
      Service eventCapacity).view = t.view := by
    simp only [Service.view, hs.shared]
    rfl
  have hstep : ServiceStep t
      ⟨t.plane, (setDiagnostics f frame).shared, t.inflight, t.owing, t.answered⟩ := by
    refine .runner _ _ rfl ?_
    rw [hview]
    exact .stay _
  exact ⟨⟨t.plane, (setDiagnostics f frame).shared, t.inflight, t.owing, t.answered⟩,
    ⟨hs.plane, rfl, hs.inflight, hs.room, hs.entered, hs.taken, hs.debt⟩,
    service_bounded hb hstep, service_answers ha hstep⟩

variable [IncrementalWaitPlatform P ε] {s : WaitSystem (BackendRecorder B) P eventCapacity}
  {J : IncrementalSystem (BackendRecorder B) eventCapacity → Prop}

/-- A poll of a wait counts and does nothing else to the runner. -/
theorem between_pollWait
    (hcount : ∀ plane f (frame : FacadeFrame (BackendRecorder B) eventCapacity),
      J ⟨plane, frame, .idle⟩ → J ⟨plane, setDiagnostics f frame, .idle⟩)
    (h : J (between s)) : J (between (pollWaitReady s).1) := by
  have hbegun : J ⟨s.plane, beginWait s, .idle⟩ := by
    unfold beginWait
    split
    · exact h
    · exact hcount _ _ _ h
  unfold pollWaitReady
  rcases pollIntent (beginWait s) s.platform with ⟨_ | result, platform⟩
  · exact hbegun
  · have hcounted : J ⟨s.plane, countResult result (beginWait s), .idle⟩ := hcount _ _ _ hbegun
    exact hcounted

/-- What every atomic step and every count keep, every step of calls and waits keeps. -/
theorem between_next (signal : F → P → P)
    (hcount : ∀ plane f (frame : FacadeFrame (BackendRecorder B) eventCapacity),
      J ⟨plane, frame, .idle⟩ → J ⟨plane, setDiagnostics f frame, .idle⟩)
    (hstep : ∀ s input, J s → J ((incrementalMachine (recordedInterrupt interrupt)).next s input))
    (h : J (between s)) (input : WaitInput E F) :
    J (between ((waitMachine (recordedInterrupt interrupt) signal).next s input)) := by
  cases input with
  | control step => exact hstep _ (.control step) h
  | runOnce ready =>
    simp only [Machine.next, waitMachine]
    split
    · exact h
    · exact returns_invariant (fun _ hs => hstep _ (.runner ready) hs)
        (runOnce_returns s.plane ready s.frame) h
  | pollWait => exact between_pollWait hcount h
  | dropWait => exact h
  | backendEvent event => exact hstep _ (.backendEvent event) h
  | platformEvent event => exact h

end Effort

/-- Sources that the platform is asked for. -/
def asked [IncrementalWifiBackend B] (frame : FacadeFrame B eventCapacity) : WaitSet :=
  ((waitIntent frame).sources.without .command).without .cancel

/-- The platform was asked for a source that the active operation waits for, and had none. -/
def Silent [IncrementalWifiBackend B] [IncrementalWaitPlatform P ε]
    (frame : FacadeFrame B eventCapacity) (platform : P) : Prop :=
  (∃ reason, frame.runner.driver.runner.waitFor.contains (source reason) = true ∧
    (asked frame).contains (source reason) = true) ∧
  ((IncrementalWaitPlatform.pollReady platform (asked frame) (waitIntent frame).deadlineUs).1 =
      .pending ∨
    (IncrementalWaitPlatform.pollReady platform (asked frame) (waitIntent frame).deadlineUs).1 =
      .ready (.ok .empty))

section Sleep

variable [IncrementalWifiBackend B] {interrupt : E → B → B} {d : Attentive B E interrupt}
  {plane : ControlPlane} {frame : FacadeFrame (BackendRecorder B) eventCapacity}

/-- The platform is asked for what the active operation waits for. -/
theorem asked_of_waitFor {reason : WakeReason} (hr : reason ≠ .command)
    (hw : frame.runner.driver.runner.waitFor.contains (source reason) = true) :
    (asked frame).contains (source reason) = true := by
  have hsources : frame.runner.driver.waitIntent.sources.contains (source reason) = true := by
    simp only [IncrementalBackendDriver.waitIntent]
    split
    · rw [contains_union, hw, Bool.true_or]
    · exact hw
  have hcommand : WaitSet.command.contains (source reason) = false := by
    cases reason <;> first | rfl | exact (hr rfl).elim
  have hcancel : WaitSet.cancel.contains (source reason) = false := by cases reason <;> rfl
  rw [asked, contains_without, contains_without, waitIntent_sources frame hr, hsources, hcommand,
    hcancel]
  rfl

omit [IncrementalWifiBackend B] in
/-- A poll of the platform that stays pending found none of the sources it asked for. -/
theorem pollPlatform_silent [IncrementalWaitPlatform P ε] {intent : IncrementalWaitIntent}
    {platform : P}
    (he : ((intent.sources.without .command).without .cancel).isEmpty = false)
    (hp : (pollPlatform intent .empty platform).1 = .pending) :
    (IncrementalWaitPlatform.pollReady platform
        ((intent.sources.without .command).without .cancel) intent.deadlineUs).1 = .pending ∨
      (IncrementalWaitPlatform.pollReady platform
        ((intent.sources.without .command).without .cancel) intent.deadlineUs).1 =
          .ready (.ok .empty) := by
  unfold pollPlatform at hp
  dsimp only at hp
  rw [if_neg (ne_true_of_eq_false he)] at hp
  split at hp
  · next hanswer => exact Or.inl (by rw [hanswer])
  · cases hp
  · next platformReady next hanswer =>
    split at hp
    · cases hp
    · unfold readyUnlessEmpty at hp
      rw [empty_union] at hp
      split at hp
      · next hempty =>
        rw [hanswer, isEmpty_iff.mp hempty]
        exact Or.inr rfl
      · cases hp

omit [IncrementalWifiBackend B] in
/-- With nothing active, nothing pending and an empty channel every command is answered. -/
theorem answered_of_idle (h : Simulated ⟨plane, frame, .idle⟩)
    (ha : frame.runner.driver.arbiter.active = none)
    (hp : frame.runner.driver.arbiter.pending = none)
    (hq : frame.shared.commands.queued = []) :
    (frame.shared.commands.sent.map Command.sequence).Perm
      (frame.shared.completion.written.map Completion.sequence) := by
  have hbalanced := h.balanced fun _ => 0
  have hnothing : (progress (fun _ => 0) (⟨plane, frame, .idle⟩ :
      IncrementalSystem (BackendRecorder B) eventCapacity)).outstanding = [] := by
    simp only [Progress.outstanding, Progress.begun, Progress.line, progress, load_of_none ha,
      CommandArbiter.pendingSequence, hp, hq]
    rfl
  rw [hnothing, List.append_nil] at hbalanced
  exact hbalanced

/-- A wait that stays pending has nothing left to do, or the platform is silent. -/
theorem asleep [IncrementalWaitPlatform P ε]
    (h : Serving (recordedAttentive d) ⟨plane, frame, .idle⟩)
    (hawaited : Awaited ⟨plane, frame, .idle⟩) (hb : plane.allocated < 2 ^ 32 - 1) {platform : P}
    (hp : (pollIntent frame platform).1 = .pending) :
    (frame.shared.commands.sent.map Command.sequence).Perm
      (frame.shared.completion.written.map Completion.sequence) ∨
    frame.runner.driver.arbiter.active.isSome ∧ Silent frame platform := by
  have hi : (waitIntent frame).runImmediately = false := by
    rw [Bool.eq_false_iff]
    intro hi
    unfold pollIntent at hp
    dsimp only at hp
    rw [if_pos hi] at hp
    split at hp <;> cases hp
  obtain ⟨hcommand, hcancel, himmediate⟩ := queues_of_asleep hawaited hb hi
  cases ha : frame.runner.driver.arbiter.active with
  | none =>
    rw [runImmediately_of_inactive (hawaited.coherent hb) ha] at himmediate
    have hpending : frame.runner.driver.arbiter.pending = none :=
      Option.isSome_eq_false_iff.mp himmediate |> Option.isNone_iff_eq_none.mp
    exact Or.inl (answered_of_idle h.simulated ha hpending hcommand)
  | some active =>
    refine Or.inr ⟨rfl, ?_⟩
    obtain ⟨-, hnone, hsome⟩ := h.fit (by rw [ha]; rfl)
    obtain ⟨reason, hr⟩ := hsome.resolve_left (by
      rw [(asleep_of_active ha himmediate).2]
      decide)
    have hne : reason ≠ .command := by
      rintro rfl
      cases hnone.symm.trans hr
    have hasked := asked_of_waitFor hne hr
    refine ⟨⟨reason, hr, hasked⟩, ?_⟩
    unfold pollIntent at hp
    dsimp only at hp
    rw [if_neg (ne_true_of_eq_false hi), channelsReady_of_empty hcommand hcancel] at hp
    exact pollPlatform_silent (isEmpty_of_contains hasked) hp

end Sleep

section Runs

variable [IncrementalWifiBackend B] [IncrementalWaitPlatform P ε] {interrupt : E → B → B}
  (signal : F → P → P) (backend : B) (budget : WorkBudget) (config : WifiConfig)
  (hpos : 0 < eventCapacity) (platform : P)

/-- Inputs and replies of a run of calls and waits. -/
def recordedWaitHistory (interrupt : E → B → B) (inputs : List (WaitInput E F)) :
    List (WaitInput E F × WaitReply ε) :=
  (waitMachine (recordedInterrupt interrupt) signal).transcript
    (⟨.new, ⟨.new ⟨backend, []⟩ budget config, .new hpos⟩, platform, false⟩ :
      WaitSystem (BackendRecorder B) P eventCapacity) inputs

/-- Every run keeps the loop. -/
theorem run_looping (interrupt : E → B → B) (inputs : List (WaitInput E F)) :
    Looping (recordedWaitHistory signal backend budget config hpos platform interrupt inputs)
      (recordedWaitRun interrupt signal backend budget config hpos platform inputs) := by
  refine transcript_invariant (waitMachine (recordedInterrupt interrupt) signal)
    (I := Looping) (G := fun _ => True) ?_ (fun _ _ _ => trivial)
    (fun _ s input _ h => looping_next interrupt signal h input) inputs trivial
  exact ⟨run_awaited interrupt signal backend budget config hpos platform [],
    fun _ _ ha => (by cases ha), fun _ => Nat.zero_le _⟩

/-- Every run provides the service, and its backend calls are paid for. -/
theorem run_paid_waits (d : Diligent B E interrupt) (inputs : List (WaitInput E F)) :
    Simulated (between
        (recordedWaitRun interrupt signal backend budget config hpos platform inputs)) ∧
      Paid d (between
        (recordedWaitRun interrupt signal backend budget config hpos platform inputs)) := by
  refine run_invariant (waitMachine (recordedInterrupt interrupt) signal)
    (I := fun s => Simulated (between s) ∧ Paid d (between s)) ?_
    (fun s input h => between_next (J := fun s => Simulated s ∧ Paid d s) signal
      (fun plane f frame h => ⟨simulated_count f h.1, h.2⟩)
      (fun s input h => ⟨simulated_next h.1 input, paid_next h.1 h.2 input⟩) h input) inputs
  have hstart : Simulated (incrementalRun (recordedInterrupt interrupt)
        (⟨backend, []⟩ : BackendRecorder B) budget config hpos []) ∧
      Paid d (incrementalRun (recordedInterrupt interrupt) ⟨backend, []⟩ budget config hpos []) :=
    ⟨run_simulated (⟨backend, []⟩ : BackendRecorder B) budget config hpos _ [],
      run_paid backend budget config hpos d []⟩
  exact hstart

/-- With an attentive backend every run serves its commands. -/
theorem run_serving_waits (d : Attentive B E interrupt) (inputs : List (WaitInput E F)) :
    Serving (recordedAttentive d) (between
      (recordedWaitRun interrupt signal backend budget config hpos platform inputs)) := by
  refine run_invariant (waitMachine (recordedInterrupt interrupt) signal)
    (I := fun s => Serving (recordedAttentive d) (between s)) ?_
    (fun s input h => between_next (J := Serving (recordedAttentive d)) signal
      (fun plane f frame h => ⟨simulated_count f h.simulated, h.fit⟩)
      (fun s input h => serving_next h input) h input) inputs
  exact run_serving (⟨backend, []⟩ : BackendRecorder B) budget config hpos (recordedAttentive d) []

/-- Below the wrap the loop of waits and calls never spins: with a backend that reports the
operation that was polled, and needs at most so many polls for it before the one that ends it,
its calls are at most the calls that the received commands may cost the backend, one for each
received command, and one for each dropped future. Calls with other sets, waits that are dropped,
controller steps and events may fall anywhere between. -/
theorem loop_calls_bounded (d : Diligent B E interrupt) (inputs : List (WaitInput E F))
    (hb : (recordedWaitRun interrupt signal backend budget config hpos platform
      inputs).plane.allocated < 2 ^ 32 - 1) :
    (loopCount (recordedWaitHistory signal backend budget config hpos platform interrupt
        inputs)).calls ≤
      (d.bound + 4) * (recordedWaitRun interrupt signal backend budget config hpos platform
        inputs).frame.shared.commands.received.length +
      (recordedWaitRun interrupt signal backend budget config hpos platform
        inputs).plane.dropped.length := by
  have hlooping := run_looping signal backend budget config hpos platform interrupt inputs
  obtain ⟨⟨t, hs, hbounded, -⟩, hpaid⟩ :=
    run_paid_waits signal backend budget config hpos platform d inputs
  have hcounted := hlooping.counted hb
  have hdropped := congrArg List.length hbounded.counted.delivered
  simp only [Service.view, SharedState.mailbox, Channel.sent, List.length_append, hs.shared,
    hs.plane, between] at hdropped
  unfold Paid effort at hpaid
  unfold used at hcounted
  simp only [between] at hpaid
  rw [show d.bound + 4 = d.bound + 3 + 1 from rfl, Nat.succ_mul]
  omega

/-- Below the wrap, with an attentive backend, when a poll of the wait stays pending every
command that was sent is answered, or the active operation waits for a source of the backend
that the platform was just asked for and did not have. -/
theorem sleeps_for_reason (d : Attentive B E interrupt) (inputs : List (WaitInput E F))
    (hb : (recordedWaitRun interrupt signal backend budget config hpos platform
      inputs).plane.allocated < 2 ^ 32 - 1)
    (hp : (waitMachine (recordedInterrupt interrupt) signal).output
      (recordedWaitRun interrupt signal backend budget config hpos platform inputs) .pollWait =
      .polled .pending) :
    let s := recordedWaitRun interrupt signal backend budget config hpos platform
      (inputs ++ [.pollWait])
    (s.frame.shared.commands.sent.map Command.sequence).Perm
      (s.frame.shared.completion.written.map Completion.sequence) ∨
    s.frame.runner.driver.arbiter.active.isSome ∧
      Silent s.frame (recordedWaitRun interrupt signal backend budget config hpos platform
        inputs).platform := by
  intro s
  have hserved : Serving (recordedAttentive d) (between s) :=
    run_serving_waits signal backend budget config hpos platform d (inputs ++ [.pollWait])
  have hnext : s = (pollWaitReady
      (recordedWaitRun interrupt signal backend budget config hpos platform inputs)).1 :=
    run_concat _ _ _ _
  obtain ⟨hplane, hawaited, hanswer⟩ := pollWaitReady_awaited
    (run_awaited interrupt signal backend budget config hpos platform inputs)
  rw [← hplane] at hb
  rw [hnext] at hserved ⊢
  exact asleep hserved hawaited hb (hanswer.symm.trans (WaitReply.polled.inj hp))

end Runs

/-- A platform that has no source at first and the backend next. -/
def laterPlatform : ReplayPlatform := ⟨[.pending, .ready (.ok .backend)]⟩

/-- Runs of calls and waits on a countdown, with a platform that has no source at first. -/
def countdownWaits (inputs : List (WaitInput Unit Unit)) :
    WaitSystem (BackendRecorder CountdownBackend) ReplayPlatform 1 :=
  recordedWaitRun (fun _ backend => backend) (fun _ platform => platform) ⟨0⟩ smallestBudget
    .default Nat.one_pos laterPlatform inputs

/-- Their inputs and replies. -/
def countdownHistory (inputs : List (WaitInput Unit Unit)) :
    List (WaitInput Unit Unit × WaitReply Unit) :=
  recordedWaitHistory (fun _ platform => platform) (⟨0⟩ : CountdownBackend) smallestBudget .default
    Nat.one_pos laterPlatform (fun _ backend => backend) inputs

/-- A disconnection is sent, started and polled in a loop until the platform has no source. -/
def loopedDisconnection : List (WaitInput Unit Unit) :=
  [.control (.call .disconnect), .control .allocate, .control .send, .pollWait, .runOnce .empty,
    .pollWait, .runOnce .empty]

/-- The next wait sleeps, the one after it finds the backend; a third call ends the command. -/
def wokenDisconnection : List (WaitInput Unit Unit) :=
  loopedDisconnection ++ [.pollWait, .pollWait, .runOnce .backend]

/-- The loop made three calls for the disconnection; five were allowed. -/
theorem loop_calls_bounded_disconnection :
    (loopCount (countdownHistory wokenDisconnection)).calls = 3 ∧
      (loopCount (countdownHistory wokenDisconnection)).calls ≤
        (1 + 4) * (countdownWaits wokenDisconnection).frame.shared.commands.received.length +
          (countdownWaits wokenDisconnection).plane.dropped.length := by
  have hcalls : (loopCount (countdownHistory wokenDisconnection)).calls = 3 := by decide +kernel
  have hb : (countdownWaits wokenDisconnection).plane.allocated < 2 ^ 32 - 1 := by decide +kernel
  exact ⟨hcalls, loop_calls_bounded _ _ _ _ _ _ countdownAttentive.toDiligent wokenDisconnection hb⟩

/-- While the operation needs another poll, the loop sleeps on the backend. -/
theorem sleeps_for_reason_disconnection :
    ((countdownWaits (loopedDisconnection ++ [.pollWait])).frame.shared.commands.sent.map
        Command.sequence).Perm
      ((countdownWaits (loopedDisconnection ++ [.pollWait])).frame.shared.completion.written.map
        Completion.sequence) ∨
    (countdownWaits
        (loopedDisconnection ++ [.pollWait])).frame.runner.driver.arbiter.active.isSome ∧
      Silent (countdownWaits (loopedDisconnection ++ [.pollWait])).frame
        (countdownWaits loopedDisconnection).platform := by
  have hb : (countdownWaits loopedDisconnection).plane.allocated < 2 ^ 32 - 1 := by decide +kernel
  have hsleeps : (pollWaitReady (countdownWaits loopedDisconnection)).2 = .pending := by
    decide +kernel
  exact sleeps_for_reason _ _ _ _ _ _ countdownAttentive loopedDisconnection hb
    ((output_pollWait _ _ _).trans (congrArg WaitReply.polled hsleeps))

end HisiRfCore.WaitLoop
