import HisiRfCore.BlockingAbandonment

/-!
# Every command of the blocking runner is answered

The channel holds one command and the runner works on one, so a command that was sent has at
most one other in front of it. A command is answered after a bounded number of steps of the
runner, in either of its entry points; each future that is dropped meanwhile may cost one
more, because the drain takes its cancellation first.
-/

namespace HisiRfCore.BlockingProgress

open BoundedChannel WifiTypes RadioStorage AsyncControl ServiceProtocol ServiceDelivery
open BlockingRunner BlockingService BlockingAbandonment InputOutputMachine

variable {B E : Type} {eventCapacity : ℕ}

/-- Every received command has its completion, in the order of sending, but for the one at
hand. -/
def InTurn (s : BlockingSystem B eventCapacity) : Prop :=
  s.frame.shared.commands.received.map Command.sequence =
    s.frame.shared.completion.written.map Completion.sequence ++
      (BlockingPhase.current s.phase).map Command.sequence

/-- So many of the commands, in the order of sending, have their completions. -/
def Answered (k : ℕ) (s : BlockingSystem B eventCapacity) : Prop :=
  k ≤ s.frame.shared.completion.written.length

/-- Steps until the last command that is waited for is answered, apart from the cancellations
in front of it: it is the only one left, or there is another one in hand. -/
def stepsTo (last : Bool) : BlockingPhase → ℕ
  | .idle => 4
  | .polling _ => 5
  | .draining _ _ => if last then 3 else 8
  | .processing _ _ => if last then 2 else 7
  | .signalling _ _ _ | .cancelling _ _ => if last then 1 else 6

/-- The next completion is the last one that is waited for. -/
def isLast (k : ℕ) (s : BlockingSystem B eventCapacity) : Bool :=
  decide (k = s.frame.shared.completion.written.length + 1)

/-- Steps of the runner until so many commands are answered. -/
def stepsLeft (k : ℕ) (s : BlockingSystem B eventCapacity) : ℕ :=
  s.frame.shared.cancellations.queued.length + stepsTo (isLast k s) s.phase

/-- There is always a step to go. -/
theorem stepsTo_pos (last : Bool) (phase : BlockingPhase) : 0 < stepsTo last phase := by
  cases phase <;> cases last <;> simp [stepsTo]

/-- After a signal the runner is nearly ready to receive. -/
theorem stepsTo_afterSignal (last polls : Bool) : stepsTo last (afterSignal polls) ≤ 5 := by
  cases polls with
  | false => exact Nat.le_succ 4
  | true => exact Nat.le_refl 5

/-- No command is in hand after a signal. -/
theorem current_afterSignal (polls : Bool) : BlockingPhase.current (afterSignal polls) = [] := by
  cases polls <;> rfl

/-- Commands sent are those answered, the one at hand and the queued one. -/
theorem InTurn.length {s : BlockingSystem B eventCapacity} (h : InTurn s) :
    s.frame.shared.commands.sent.length = s.frame.shared.completion.written.length +
      (BlockingPhase.current s.phase).length + s.frame.shared.commands.queued.length := by
  have hlength := congrArg List.length h
  rw [List.length_append, List.length_map, List.length_map, List.length_map] at hlength
  rw [Channel.sent, List.length_append, hlength]

/-- Completions are those of the commands sent, in their order. -/
theorem InTurn.answers {s : BlockingSystem B eventCapacity} (h : InTurn s) :
    s.frame.shared.completion.written.map Completion.sequence <+:
      s.frame.shared.commands.sent.map Command.sequence := by
  rw [Channel.sent, List.map_append, h, List.append_assoc]
  exact List.prefix_append _ _

section Runner

variable [WifiBackend B] {s : BlockingSystem B eventCapacity} {k : ℕ}

/-- What a step of the runner does for the commands that are waited for. -/
def Closer (k : ℕ) (s next : BlockingSystem B eventCapacity) : Prop :=
  Answered k next ∨ stepsLeft k next + 1 ≤ stepsLeft k s

omit [WifiBackend B] in
/-- A step that answers nothing is closer at a later position. -/
theorem closer_of_kept {next : BlockingSystem B eventCapacity}
    (hw : next.frame.shared.completion.written = s.frame.shared.completion.written)
    (hx : next.frame.shared.cancellations.queued.length ≤
      s.frame.shared.cancellations.queued.length)
    (hs : ∀ last, stepsTo last next.phase + 1 ≤ stepsTo last s.phase) : Closer k s next := by
  have hlast : isLast k next = isLast k s := by rw [isLast, isLast, hw]
  have hsteps := hs (isLast k s)
  unfold Closer stepsLeft
  rw [hlast]
  omega

omit [WifiBackend B] in
/-- A signal is that of the last command, or of another one in hand. -/
theorem closer_signal {next : BlockingSystem B eventCapacity} {x : Completion} {polls : Bool}
    (hwritten : next.frame.shared.completion.written =
      s.frame.shared.completion.written ++ [x])
    (hx : next.frame.shared.cancellations = s.frame.shared.cancellations)
    (hp : next.phase = afterSignal polls) (hs : 6 ≤ stepsTo false s.phase) :
    Closer k s next := by
  unfold Closer Answered stepsLeft
  rw [hwritten, List.length_append, List.length_singleton]
  by_cases hlast : k = s.frame.shared.completion.written.length + 1
  · exact Or.inl (Nat.le_of_eq hlast)
  · have hnot : isLast k s = false := decide_eq_false hlast
    have hsteps := stepsTo_afterSignal (isLast k next) polls
    rw [hx, hp, hnot]
    refine Or.inr ?_
    omega

/-- An idle runner that is waited for has a command to receive. -/
theorem closer_idle (mode : BlockingMode) (h : InTurn s)
    (hk : k ≤ s.frame.shared.commands.sent.length) (hn : ¬ Answered k s)
    (hp : s.phase = .idle) : Closer k s (runnerStep mode s).1 := by
  have hlength := h.length
  rw [hp, BlockingPhase.current, List.length_nil] at hlength
  cases hq : s.frame.shared.commands.queued with
  | nil =>
    unfold Answered at hn
    rw [hq, List.length_nil] at hlength
    omega
  | cons command rest =>
    have hdrain : ∀ polls (frame : BlockingFrame B eventCapacity),
        frame.shared.completion = s.frame.shared.completion →
        frame.shared.cancellations = s.frame.shared.cancellations →
        k = s.frame.shared.completion.written.length + 1 →
        Closer k s {s with frame := frame, phase := .draining command polls} := by
      intro polls frame hc hx hlast
      have hnext : isLast k {s with frame := frame, phase := .draining command polls} = true := by
        rw [isLast, hc]
        exact decide_eq_true hlast
      unfold Closer stepsLeft
      rw [hnext, hp, hx]
      exact Or.inr (Nat.le_refl _)
    -- The channel has room for one command, which is the one that is waited for.
    have hlast : k = s.frame.shared.completion.written.length + 1 := by
      have hbounded := s.frame.shared.commands.bounded
      unfold Answered at hn
      omega
    unfold runnerStep
    rw [hp]
    cases mode with
    | runOnce =>
      have hreceive := @receiveCommand_of_cons _ _ (countCall s.frame) command rest hq
      simp only [hreceive]
      exact hdrain true _ rfl rfl hlast
    | run =>
      simp only [receiveCommand_of_cons hq]
      exact hdrain false _ rfl rfl hlast

/-- The drain takes a cancellation, or finds none and goes on. -/
theorem closer_draining (mode : BlockingMode) {command : Command} {polls : Bool}
    (hp : s.phase = .draining command polls) : Closer k s (runnerStep mode s).1 := by
  unfold runnerStep
  rw [hp]
  cases hq : s.frame.shared.cancellations.queued with
  | nil =>
    simp only [tryReceive_of_nil hq]
    refine closer_of_kept rfl (Nat.le_refl _) fun last => ?_
    rw [hp]
    cases last <;> exact Nat.le_refl _
  | cons taken rest =>
    obtain ⟨cancellations, hx, -, -, hr⟩ := tryReceive_taken hq
    simp only [hx]
    have hlength : cancellations.queued.length + 1 =
        s.frame.shared.cancellations.queued.length := by
      rw [hr, hq, List.length_cons]
    have hsteps : ∀ last, stepsTo last (if taken = command.sequence then
        .cancelling command polls else .draining command polls) ≤ stepsTo last s.phase := by
      intro last
      rw [hp]
      split <;> cases last <;> simp [stepsTo]
    have hnext := hsteps (isLast k s)
    refine Or.inr ?_
    unfold stepsLeft
    rw [← hlength, Nat.add_right_comm]
    exact Nat.add_le_add_left hnext _

/-- Every step of the runner answers all commands that are waited for, or comes closer. -/
theorem runner_closer (mode : BlockingMode) (h : InTurn s)
    (hk : k ≤ s.frame.shared.commands.sent.length) (hn : ¬ Answered k s) :
    Closer k s (runnerStep mode s).1 := by
  cases hp : s.phase with
  | idle => exact closer_idle mode h hk hn hp
  | draining command polls => exact closer_draining mode hp
  | cancelling command polls =>
    unfold runnerStep
    rw [hp]
    have hm := cancelCommand_mailbox command s.frame.shared
    have hwritten : (cancelCommand command s.frame.shared).completion.written =
        s.frame.shared.completion.written ++ [⟨command.sequence, cancelledKind command⟩] :=
      (congrArg (fun m => m.completion.written) hm).trans (signal_written _ _)
    refine closer_signal hwritten (congrArg Mailbox.cancellations hm) rfl ?_
    rw [hp]
    exact Nat.le_refl 6
  | processing command polls =>
    unfold runnerStep
    rw [hp]
    obtain ⟨scanResults, hm⟩ := callBackend_mailbox command s.frame
    have hcancellations : (callBackend command s.frame).2.shared.cancellations =
        s.frame.shared.cancellations := congrArg Mailbox.cancellations hm
    refine closer_of_kept (congrArg (fun m => m.completion.written) hm)
      (Nat.le_of_eq (by rw [hcancellations])) fun last => ?_
    rw [hp]
    cases last <;> exact Nat.le_refl _
  | signalling command kind polls =>
    unfold runnerStep
    rw [hp]
    refine closer_signal (signal_written _ _) rfl rfl ?_
    rw [hp]
    exact Nat.le_refl 6
  | polling didWork =>
    unfold runnerStep
    rw [hp]
    have hm := pollBackend_mailbox didWork s.frame
    have hcancellations : (pollBackend didWork s.frame).2.shared.cancellations =
        s.frame.shared.cancellations := congrArg Mailbox.cancellations hm
    refine closer_of_kept (congrArg (fun m => m.completion.written) hm)
      (Nat.le_of_eq (by rw [hcancellations])) fun last => ?_
    rw [hp]
    exact Nat.le_refl 5

/-- Every step of the runner answers in turn. -/
theorem inTurn_runner (mode : BlockingMode) (h : InTurn s) : InTurn (runnerStep mode s).1 := by
  have heffect := runnerStep_effect mode s
  generalize (runnerStep mode s).1 = next at heffect
  unfold InTurn at h ⊢
  -- A step of the command at hand receives nothing and signals nothing.
  have hkept : ∀ {shared : SharedState eventCapacity} {command : Command},
      BlockingPhase.current s.phase = [command] → shared.commands = s.frame.shared.commands →
      shared.completion = s.frame.shared.completion →
      shared.commands.received.map Command.sequence =
        shared.completion.written.map Completion.sequence ++ [command].map Command.sequence := by
    intro shared command hc hcommands hcompletion
    rw [hcommands, hcompletion, h, hc]
  -- The completion of the command at hand joins the others.
  have hsignal : ∀ {shared : SharedState eventCapacity} {command : Command}
      {kind : CompletionKind} {polls : Bool}, BlockingPhase.current s.phase = [command] →
      shared.commands = s.frame.shared.commands →
      shared.completion.written =
        s.frame.shared.completion.written ++ [⟨command.sequence, kind⟩] →
      shared.commands.received.map Command.sequence =
        shared.completion.written.map Completion.sequence ++
          (BlockingPhase.current (afterSignal polls)).map Command.sequence := by
    intro shared command kind polls hc hcommands hwritten
    rw [hcommands, hwritten, h, hc, current_afterSignal, List.map_append, List.map_nil,
      List.append_nil]
    rfl
  cases heffect with
  | passed frame phase hp hm hn =>
    have hcurrent : BlockingPhase.current phase = [] := by
      rcases hn with rfl | ⟨didWork, rfl⟩ <;> rfl
    have hcommands : frame.shared.commands = s.frame.shared.commands :=
      congrArg Mailbox.commands hm
    have hcompletion : frame.shared.completion = s.frame.shared.completion :=
      congrArg Mailbox.completion hm
    dsimp only
    rw [hcurrent, hcommands, hcompletion, h, hp]
  | received command rest polls frame hp hq hm =>
    have hcommands : frame.shared.commands = s.frame.shared.commands.tryReceive.2 :=
      congrArg Mailbox.commands hm
    have hcompletion : frame.shared.completion = s.frame.shared.completion :=
      congrArg Mailbox.completion hm
    rw [hp] at h
    dsimp only
    rw [hcommands, hcompletion, (tryReceive_of_cons hq).2.1, List.map_append, h]
    exact congrArg (· ++ [command].map Command.sequence) (List.append_nil _)
  | drained command polls hp hq => exact hkept (by rw [hp]; rfl) rfl rfl
  | skipped command polls taken rest hp hq hn => exact h
  | matched command polls rest hp hq => exact hkept (by rw [hp]; rfl) rfl rfl
  | cancelled command polls hp =>
    have hm := cancelCommand_mailbox command s.frame.shared
    exact hsignal (by rw [hp]; rfl) (congrArg Mailbox.commands hm)
      ((congrArg (fun m => m.completion.written) hm).trans (signal_written _ _))
  | called command polls hp =>
    obtain ⟨scanResults, hm⟩ := callBackend_mailbox command s.frame
    exact hkept (by rw [hp]; rfl) (congrArg Mailbox.commands hm) (congrArg Mailbox.completion hm)
  | signalled command kind polls hp =>
    exact hsignal (by rw [hp]; rfl) rfl (signal_written _ _)

/-- The runner sends no command and takes no completion back. -/
theorem runner_keeps (mode : BlockingMode) (s : BlockingSystem B eventCapacity) :
    (runnerStep mode s).1.frame.shared.commands.sent = s.frame.shared.commands.sent ∧
      s.frame.shared.completion.written <+:
        (runnerStep mode s).1.frame.shared.completion.written := by
  have heffect := runnerStep_effect mode s
  generalize (runnerStep mode s).1 = next at heffect
  -- The channel and the signal of the next mailbox decide.
  have hkeeps : ∀ {shared : SharedState eventCapacity} {commands : Channel Command 1}
      {completion : Signal Completion}, shared.commands = commands →
      shared.completion = completion → commands.sent = s.frame.shared.commands.sent →
      s.frame.shared.completion.written <+: completion.written →
      shared.commands.sent = s.frame.shared.commands.sent ∧
        s.frame.shared.completion.written <+: shared.completion.written := by
    rintro shared _ _ rfl rfl hc hw
    exact ⟨hc, hw⟩
  have hsame : s.frame.shared.completion.written <+: s.frame.shared.completion.written :=
    List.prefix_refl _
  have hsignal : ∀ x : Completion, s.frame.shared.completion.written <+:
      (s.frame.shared.completion.signal x).written := by
    intro x
    rw [signal_written]
    exact List.prefix_append _ _
  cases heffect with
  | passed frame phase hp hm hn =>
    exact hkeeps (congrArg Mailbox.commands hm) (congrArg Mailbox.completion hm) rfl hsame
  | received command rest polls frame hp hq hm =>
    exact hkeeps (congrArg Mailbox.commands hm) (congrArg Mailbox.completion hm)
      (tryReceive_sent _) hsame
  | drained command polls hp hq => exact ⟨rfl, hsame⟩
  | skipped command polls taken rest hp hq hn => exact ⟨rfl, hsame⟩
  | matched command polls rest hp hq => exact ⟨rfl, hsame⟩
  | cancelled command polls hp =>
    have hm := cancelCommand_mailbox command s.frame.shared
    exact hkeeps (congrArg Mailbox.commands hm) (congrArg Mailbox.completion hm) rfl (hsignal _)
  | called command polls hp =>
    obtain ⟨scanResults, hm⟩ := callBackend_mailbox command s.frame
    exact hkeeps (congrArg Mailbox.commands hm) (congrArg Mailbox.completion hm) rfl hsame
  | signalled command kind polls hp => exact ⟨rfl, hsignal _⟩

end Runner

section Inputs

variable [WifiBackend B] {interrupt : E → B → B} {s : BlockingSystem B eventCapacity} {k : ℕ}

omit [WifiBackend B] in
/-- Only a dropped future queues a cancellation, and no more than one. -/
theorem control_cancellations (plane : ControlPlane) (shared : SharedState eventCapacity)
    (step : ControlStep) :
    (plane.step shared step).2.cancellations.queued.length + plane.dropped.length ≤
      shared.cancellations.queued.length + (plane.step shared step).1.dropped.length := by
  have heffect := step_effect plane shared step
  generalize plane.step shared step = next at heffect
  cases heffect with
  | quiet shared' hm =>
    have hcancellations : shared'.cancellations = shared.cancellations :=
      congrArg Mailbox.cancellations hm
    rw [hcancellations]
  | sent sequence call hf shared' commands hq hr hs hm =>
    have hcancellations : shared'.cancellations = shared.cancellations :=
      congrArg Mailbox.cancellations hm
    rw [hcancellations]
  | dropped command hf =>
    have hqueued : (shared.cancellations.trySend command.sequence).2.queued.length ≤
        shared.cancellations.queued.length + 1 := by
      by_cases hroom : shared.cancellations.queued.length < 3
      · rw [(trySend_of_lt hroom).2.2, List.length_append, List.length_singleton]
      · rw [trySend_of_full hroom]
        exact Nat.le_succ _
    simp only [ControlPlane.dropGuard, List.length_append, List.length_singleton]
    omega
  | _ => exact Nat.le_refl _

/-- The runner leaves the controller alone. -/
theorem runner_plane (mode : BlockingMode) :
    ((blockingMachine interrupt).next s (.runner mode)).plane = s.plane := by
  show (runnerStep mode s).1.plane = s.plane
  have heffect := runnerStep_effect mode s
  generalize (runnerStep mode s).1 = next at heffect
  cases heffect <;> rfl

omit [WifiBackend B] in
/-- The controller only adds to the commands sent. -/
theorem control_sent (plane : ControlPlane) (shared : SharedState eventCapacity)
    (step : ControlStep) : shared.commands.sent <+: (plane.step shared step).2.commands.sent := by
  have hforwards := control_forwards (step_effect plane shared step)
  have hreceived : (plane.step shared step).2.commands.received = shared.commands.received :=
    hforwards.commandsReceived
  rw [Channel.sent, Channel.sent, hreceived]
  exact (List.prefix_append_right_inj _).mpr hforwards.commands

/-- No input takes a sent command or a completion back. -/
theorem history_next (s : BlockingSystem B eventCapacity) (input : BlockingInput E) :
    s.frame.shared.commands.sent <+:
        ((blockingMachine interrupt).next s input).frame.shared.commands.sent ∧
      s.frame.shared.completion.written <+:
        ((blockingMachine interrupt).next s input).frame.shared.completion.written := by
  cases input with
  | control step =>
    have hwritten : (s.plane.step s.frame.shared step).2.completion.written =
        s.frame.shared.completion.written :=
      (control_forwards (step_effect s.plane s.frame.shared step)).written
    exact ⟨control_sent s.plane s.frame.shared step, (hwritten ▸ List.prefix_refl _)⟩
  | runner mode =>
    obtain ⟨hsent, hwritten⟩ := runner_keeps mode s
    exact ⟨(hsent ▸ List.prefix_refl _), hwritten⟩
  | backendEvent event => exact ⟨List.prefix_refl _, List.prefix_refl _⟩

/-- Every input answers in turn. -/
theorem inTurn_next (h : InTurn s) (input : BlockingInput E) :
    InTurn ((blockingMachine interrupt).next s input) := by
  cases input with
  | control step =>
    have hforwards := control_forwards (step_effect s.plane s.frame.shared step)
    have hreceived : (s.plane.step s.frame.shared step).2.commands.received =
        s.frame.shared.commands.received := hforwards.commandsReceived
    have hwritten : (s.plane.step s.frame.shared step).2.completion.written =
        s.frame.shared.completion.written := hforwards.written
    show (s.plane.step s.frame.shared step).2.commands.received.map Command.sequence =
      (s.plane.step s.frame.shared step).2.completion.written.map Completion.sequence ++ _
    rw [hreceived, hwritten]
    exact h
  | runner mode => exact inTurn_runner mode h
  | backendEvent event => exact h

/-- Every input answers all commands that are waited for, or keeps them waiting; a step of the
runner brings them closer, and only a dropped future delays them, by its one cancellation. -/
theorem stepsLeft_next (h : InTurn s) (hk : k ≤ s.frame.shared.commands.sent.length)
    (hn : ¬ Answered k s) (input : BlockingInput E) :
    Answered k ((blockingMachine interrupt).next s input) ∨
      stepsLeft k ((blockingMachine interrupt).next s input) + input.isRunner.toNat +
          s.plane.dropped.length ≤
        stepsLeft k s + ((blockingMachine interrupt).next s input).plane.dropped.length := by
  cases input with
  | control step =>
    have hwritten : (s.plane.step s.frame.shared step).2.completion.written =
        s.frame.shared.completion.written :=
      (control_forwards (step_effect s.plane s.frame.shared step)).written
    have hcancellations := control_cancellations s.plane s.frame.shared step
    have hlast : isLast k ((blockingMachine interrupt).next s (.control step)) = isLast k s := by
      show decide (k = (s.plane.step s.frame.shared step).2.completion.written.length + 1) = _
      rw [hwritten]
      rfl
    refine Or.inr ?_
    unfold stepsLeft
    rw [hlast]
    show (s.plane.step s.frame.shared step).2.cancellations.queued.length +
      stepsTo (isLast k s) s.phase + 0 + s.plane.dropped.length ≤
        s.frame.shared.cancellations.queued.length + stepsTo (isLast k s) s.phase +
          (s.plane.step s.frame.shared step).1.dropped.length
    omega
  | runner mode =>
    rw [runner_plane]
    exact (runner_closer mode h hk hn).imp id fun hcloser => Nat.add_le_add_right hcloser _
  | backendEvent event => exact Or.inr (Nat.le_refl _)

omit [WifiBackend B] in
/-- No command waits for more than the three cancellations that fit and one other command. -/
theorem stepsLeft_le (k : ℕ) (s : BlockingSystem B eventCapacity) : stepsLeft k s ≤ 11 := by
  have hbounded := s.frame.shared.cancellations.bounded
  have hsteps : ∀ last, stepsTo last s.phase ≤ 8 := by
    intro last
    cases s.phase <;> cases last <;> simp [stepsTo]
  have hphase := hsteps (isLast k s)
  unfold stepsLeft
  omega

end Inputs

section Runs

variable [WifiBackend B] (interrupt : E → B → B) (backend : B) (config : WifiConfig)
  (hpos : 0 < eventCapacity)

/-- Every run answers in turn. -/
theorem run_inTurn (inputs : List (BlockingInput E)) :
    InTurn (blockingRun interrupt backend config hpos inputs) :=
  run_invariant (blockingMachine interrupt) (I := InTurn)
    (show InTurn (blockingStart backend config hpos) from rfl)
    (fun _ input h => inTurn_next h input) inputs

/-- A run that goes on keeps what was sent. -/
theorem run_sent (s : BlockingSystem B eventCapacity) (after : List (BlockingInput E)) :
    s.frame.shared.commands.sent <+:
      ((blockingMachine interrupt).run s after).frame.shared.commands.sent :=
  run_invariant (blockingMachine interrupt)
    (I := fun next => s.frame.shared.commands.sent <+: next.frame.shared.commands.sent)
    (List.prefix_refl _) (fun next input h => h.trans (history_next next input).1) after

/-- After so many steps all commands sent before have their completions. -/
theorem run_answered (before after : List (BlockingInput E))
    (hsteps : 11 + (blockingRun interrupt backend config hpos
        (before ++ after)).plane.dropped.length ≤
      after.countP BlockingInput.isRunner +
        (blockingRun interrupt backend config hpos before).plane.dropped.length) :
    Answered (blockingRun interrupt backend config hpos before).frame.shared.commands.sent.length
      (blockingRun interrupt backend config hpos (before ++ after)) := by
  have hturn := run_inTurn interrupt backend config hpos before
  have hcut : blockingRun interrupt backend config hpos (before ++ after) =
      (blockingMachine interrupt).run (blockingRun interrupt backend config hpos before) after :=
    run_append _ _ before after
  rw [hcut]
  refine run_ranked (blockingMachine interrupt)
    (I := fun s => InTurn s ∧ (blockingRun interrupt backend config hpos
      before).frame.shared.commands.sent.length ≤ s.frame.shared.commands.sent.length)
    (R := stepsLeft (blockingRun interrupt backend config hpos
      before).frame.shared.commands.sent.length) (K := fun s => s.plane.dropped.length)
    (C := BlockingInput.isRunner) (A := fun _ => True)
    ?_ ?_ ?_ ?_ ⟨hturn, Nat.le_refl _⟩ after (fun _ _ => trivial) ?_
  · rintro s input - ⟨h, hk⟩
    exact ⟨inTurn_next h input, hk.trans (history_next s input).1.length_le⟩
  · exact fun s input _ ha => Nat.le_trans ha (history_next s input).2.length_le
  · exact fun s input _ ⟨h, hk⟩ hn => stepsLeft_next h hk hn input
  · intro s _ _
    exact Nat.lt_of_lt_of_le (stepsTo_pos _ s.phase) (Nat.le_add_left _ _)
  · rw [hcut] at hsteps
    exact le_trans (Nat.add_le_add_right (stepsLeft_le _ _) _) hsteps

/-- So their completions are signalled, in the order of sending. -/
theorem sent_answered (before after : List (BlockingInput E))
    (hsteps : 11 + (blockingRun interrupt backend config hpos
        (before ++ after)).plane.dropped.length ≤
      after.countP BlockingInput.isRunner +
        (blockingRun interrupt backend config hpos before).plane.dropped.length) :
    (blockingRun interrupt backend config hpos before).frame.shared.commands.sent.map
        Command.sequence <+:
      (blockingRun interrupt backend config hpos
        (before ++ after)).frame.shared.completion.written.map Completion.sequence := by
  have hanswered := run_answered interrupt backend config hpos before after hsteps
  have hturn := run_inTurn interrupt backend config hpos (before ++ after)
  have hsent := run_sent interrupt
    (blockingRun interrupt backend config hpos before) after
  rw [blockingRun, ← run_append] at hsent
  refine List.prefix_of_prefix_length_le (hsent.map Command.sequence) hturn.answers ?_
  rw [List.length_map, List.length_map]
  exact hanswered

/-- Whatever the backend answers, the completions signalled are those of the commands sent, one
for each and in their order; and they are those of all commands sent by some moment when the
runner has taken eleven steps after it, and one more for each future dropped meanwhile, whatever
else is interleaved. -/
theorem blocking_commands_answered (before after : List (BlockingInput E))
    (hsteps : 11 + (blockingRun interrupt backend config hpos
        (before ++ after)).plane.dropped.length ≤
      after.countP BlockingInput.isRunner +
        (blockingRun interrupt backend config hpos before).plane.dropped.length) :
    let sent := fun inputs => (blockingRun interrupt backend config hpos
      inputs).frame.shared.commands.sent.map Command.sequence
    let answered := (blockingRun interrupt backend config hpos
      (before ++ after)).frame.shared.completion.written.map Completion.sequence
    sent before <+: answered ∧ answered <+: sent (before ++ after) :=
  ⟨sent_answered interrupt backend config hpos before after hsteps,
    (run_inTurn interrupt backend config hpos (before ++ after)).answers⟩

end Runs

/-- A disconnection is sent. -/
def sentDisconnection : List (BlockingInput Unit) :=
  [.control (.call .disconnect), .control .allocate, .control .send]

/-- Its future is dropped, and the runner takes twelve steps. -/
def droppedAndServed : List (BlockingInput Unit) :=
  .control .drop :: List.replicate 12 (.runner .runOnce)

/-- Twelve steps answer a disconnection that is dropped. -/
theorem blocking_commands_answered_disconnection :
    (scriptedRun (sentDisconnection ++ droppedAndServed)).frame.shared.completion.written.map
      Completion.sequence = [1] := by
  have hsent : (scriptedRun sentDisconnection).frame.shared.commands.sent.map
      Command.sequence = [1] := by decide +kernel
  have hafter : (scriptedRun (sentDisconnection ++ droppedAndServed)).frame.shared.commands.sent.map
      Command.sequence = [1] := by decide +kernel
  have hsteps : 11 + (scriptedRun (sentDisconnection ++ droppedAndServed)).plane.dropped.length ≤
      droppedAndServed.countP BlockingInput.isRunner +
        (scriptedRun sentDisconnection).plane.dropped.length := by decide +kernel
  obtain ⟨hfirst, hlast⟩ := blocking_commands_answered (fun (_ : Unit) backend => backend)
    (⟨[]⟩ : ScriptedBackend) .default Nat.one_pos sentDisconnection droppedAndServed hsteps
  unfold scriptedRun at hsent hafter ⊢
  dsimp only at hfirst hlast
  rw [hsent] at hfirst
  rw [hafter] at hlast
  exact (hlast.eq_of_length_le hfirst.length_le)

end HisiRfCore.BlockingProgress
