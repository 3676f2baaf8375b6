import HisiRfCore.BlockingRunner
import HisiRfCore.ServiceDelivery

/-!
# The blocking runner provides the command service

Each atomic step of the blocking runner is one step of the service. The command
the runner works on is the only one in flight. Cancellations that a drain takes
are never those of a command still queued or of the command being drained.
-/

namespace HisiRfCore.BlockingService

open BoundedChannel WifiTypes RadioStorage AsyncControl ServiceProtocol ServiceDelivery
open BlockingRunner InputOutputMachine

variable {B E : Type} {eventCapacity : ℕ}

/-- Command the runner works on. -/
def BlockingPhase.current : BlockingPhase → List Command
  | .draining command _ | .cancelling command _ | .processing command _
  | .signalling command _ _ => [command]
  | .idle | .polling _ => []

/-- The service state that a state of the blocking system stands for. -/
structure Simulates (s : BlockingSystem B eventCapacity) (t : Service eventCapacity) : Prop where
  /-- The controller's side is the same. -/
  plane : t.plane = s.plane
  /-- The shared state is the same. -/
  shared : t.shared = s.frame.shared
  /-- The command in flight is the runner's current one. -/
  inflight : t.inflight = BlockingPhase.current s.phase
  /-- The runner owes a look at the cancellations only while it drains. -/
  debt : t.owing = true → ∃ command polls, s.phase = .draining command polls

/-- The start of the system is the start of the service. -/
theorem simulates_start (backend : B) (config : WifiConfig) (h : 0 < eventCapacity) :
    Simulates (blockingStart backend config h) (Service.new h) :=
  ⟨rfl, rfl, rfl, fun ho => by cases ho⟩

section Steps

variable {frame : BlockingFrame B eventCapacity}

/-- Nothing is received from an empty channel. -/
theorem receiveCommand_of_nil (hq : frame.shared.commands.queued = []) :
    receiveCommand frame = (none, frame) := by
  rw [receiveCommand, tryReceive_of_nil hq]

/-- The oldest queued command is received. -/
theorem receiveCommand_of_cons {command : Command} {rest : List Command}
    (hq : frame.shared.commands.queued = command :: rest) :
    receiveCommand frame = (some command,
      {frame with shared := {frame.shared with
        commands := frame.shared.commands.tryReceive.2}}) := by
  obtain ⟨commands, hx, -⟩ := tryReceive_taken hq
  rw [receiveCommand, hx]

variable [WifiBackend B]

/-- A backend call writes at most the scan buffer of the mailbox. -/
theorem callBackend_mailbox (command : Command) (frame : BlockingFrame B eventCapacity) :
    ∃ scanResults, (callBackend command frame).2.shared.mailbox =
      {frame.shared.mailbox with scanResults := scanResults} := by
  unfold callBackend
  cases command.kind with
  | initialise =>
    refine ⟨frame.shared.scanResults, ?_⟩
    simp only [SharedState.publishEvent_mailbox, SharedState.publishCapabilities_mailbox]
    rfl
  | scan config =>
    refine ⟨(WifiBackend.scan frame.runner.backend config frame.shared.scanResults).2.2, ?_⟩
    simp only [SharedState.publishEvent_mailbox]
    rfl
  | connect config =>
    refine ⟨frame.shared.scanResults, ?_⟩
    simp only [SharedState.publishEvent_mailbox]
    rfl
  | disconnect =>
    refine ⟨frame.shared.scanResults, ?_⟩
    simp only [SharedState.publishEvent_mailbox]
    rfl

/-- A background poll leaves the mailbox alone. -/
theorem pollBackend_mailbox (didWork : Bool) (frame : BlockingFrame B eventCapacity) :
    (pollBackend didWork frame).2.shared.mailbox = frame.shared.mailbox := by
  unfold pollBackend
  dsimp only
  cases (WifiBackend.poll frame.runner.backend).1 with
  | ok backgroundWork => cases didWork <;> cases backgroundWork <;> rfl
  | error error =>
    dsimp only
    split
    · exact SharedState.publishEvent_mailbox _ _
    · cases didWork <;> rfl

omit [WifiBackend B] in
/-- A cancelled command changes only the completion signal of the mailbox. -/
theorem cancelCommand_mailbox (command : Command) (shared : SharedState eventCapacity) :
    (cancelCommand command shared).mailbox =
      {shared.mailbox with
        completion := shared.mailbox.completion.signal
          ⟨command.sequence, cancelledKind command⟩} := by
  have hm := SharedState.publishEvent_mailbox (.failed cancelledError) shared
  have hc := congrArg Mailbox.completion hm
  show ({(shared.publishEvent (.failed cancelledError)).mailbox with
    completion := (shared.publishEvent (.failed cancelledError)).mailbox.completion.signal _} :
      Mailbox) = _
  rw [hm]

/-- The effects of a runner step on the frame, the phase and the backend calls. -/
inductive RunnerEffect (s : BlockingSystem B eventCapacity) : BlockingSystem B eventCapacity → Prop
  | passed (frame : BlockingFrame B eventCapacity) (phase : BlockingPhase)
      (hp : BlockingPhase.current s.phase = [])
      (hm : frame.shared.mailbox = s.frame.shared.mailbox)
      (hn : phase = .idle ∨ ∃ didWork, phase = .polling didWork) :
      RunnerEffect s {s with frame := frame, phase := phase}
  | received (command : Command) (rest : List Command) (polls : Bool)
      (frame : BlockingFrame B eventCapacity) (hp : s.phase = .idle)
      (hq : s.frame.shared.commands.queued = command :: rest)
      (hm : frame.shared.mailbox = {s.frame.shared.mailbox with
        commands := s.frame.shared.commands.tryReceive.2}) :
      RunnerEffect s {s with frame := frame, phase := .draining command polls}
  | drained (command : Command) (polls : Bool) (hp : s.phase = .draining command polls)
      (hq : s.frame.shared.cancellations.queued = []) :
      RunnerEffect s {s with phase := .processing command polls}
  | skipped (command : Command) (polls : Bool) (taken : UInt32) (rest : List UInt32)
      (hp : s.phase = .draining command polls)
      (hq : s.frame.shared.cancellations.queued = taken :: rest)
      (hn : taken ≠ command.sequence) :
      RunnerEffect s {s with frame := {s.frame with shared := {s.frame.shared with
        cancellations := s.frame.shared.cancellations.tryReceive.2}}}
  | matched (command : Command) (polls : Bool) (rest : List UInt32)
      (hp : s.phase = .draining command polls)
      (hq : s.frame.shared.cancellations.queued = command.sequence :: rest) :
      RunnerEffect s {s with
        frame := {s.frame with shared := {s.frame.shared with
          cancellations := s.frame.shared.cancellations.tryReceive.2}}
        phase := .cancelling command polls}
  | cancelled (command : Command) (polls : Bool) (hp : s.phase = .cancelling command polls) :
      RunnerEffect s {s with
        frame := {s.frame with shared := cancelCommand command s.frame.shared}
        phase := afterSignal polls}
  | called (command : Command) (polls : Bool) (hp : s.phase = .processing command polls) :
      RunnerEffect s {s with
        frame := (callBackend command s.frame).2
        phase := .signalling command (callBackend command s.frame).1 polls
        called := s.called ++ [command]}
  | signalled (command : Command) (kind : CompletionKind) (polls : Bool)
      (hp : s.phase = .signalling command kind polls) :
      RunnerEffect s {s with
        frame := {s.frame with shared := s.frame.shared.signalCompletion command.sequence kind}
        phase := afterSignal polls}

/-- Every runner step has one of the listed effects. -/
theorem runnerStep_effect (mode : BlockingMode) (s : BlockingSystem B eventCapacity) :
    RunnerEffect s (runnerStep mode s).1 := by
  unfold runnerStep
  cases hp : s.phase with
  | idle =>
    cases mode with
    | runOnce =>
      cases hq : s.frame.shared.commands.queued with
      | nil =>
        have hn : receiveCommand (countCall s.frame) = (none, countCall s.frame) :=
          receiveCommand_of_nil hq
        simp only [hn]
        exact .passed _ _ (by rw [hp]; rfl) rfl (Or.inr ⟨false, rfl⟩)
      | cons command rest =>
        have hn := @receiveCommand_of_cons _ _ (countCall s.frame) command rest hq
        simp only [hn]
        exact .received command rest true _ hp hq rfl
    | run =>
      cases hq : s.frame.shared.commands.queued with
      | nil =>
        simp only [receiveCommand_of_nil hq]
        exact .passed _ _ (by rw [hp]; rfl) rfl (Or.inl rfl)
      | cons command rest =>
        simp only [receiveCommand_of_cons hq]
        exact .received command rest false _ hp hq rfl
  | draining command polls =>
    cases hq : s.frame.shared.cancellations.queued with
    | nil =>
      simp only [tryReceive_of_nil hq]
      exact .drained command polls hp hq
    | cons taken rest =>
      obtain ⟨cancellations, hx, -⟩ := tryReceive_taken hq
      by_cases ht : taken = command.sequence
      · subst ht
        have he := RunnerEffect.matched command polls rest hp hq
        rw [hx] at he ⊢
        simpa only [if_true] using he
      · have he := RunnerEffect.skipped command polls taken rest hp hq ht
        rw [hx, hp] at he
        rw [hx]
        simpa only [ht, if_false] using he
  | cancelling command polls => exact .cancelled command polls hp
  | processing command polls => exact .called command polls hp
  | signalling command kind polls => exact .signalled command kind polls hp
  | polling didWork =>
    exact .passed _ _ (by rw [hp]; rfl) (pollBackend_mailbox didWork s.frame) (Or.inl rfl)

section Moves

variable {s : BlockingSystem B eventCapacity} {t : Service eventCapacity}

omit [WifiBackend B] in
/-- A move of the runner is a step of the service. -/
theorem Simulates.move (h : Simulates s t) {v : RunnerView}
    (hm : RunnerMove ⟨s.frame.shared.mailbox, BlockingPhase.current s.phase, t.owing, t.answered⟩ v)
    (next : SharedState eventCapacity) (hn : next.mailbox = v.mailbox) :
    ServiceStep t ⟨s.plane, next, v.inflight, v.owing, v.answered⟩ := by
  refine .runner _ _ h.plane.symm ?_
  rw [Service.view, h.shared, h.inflight]
  rcases v with ⟨mailbox, inflight, owing, answered⟩
  cases hn
  exact hm

omit [WifiBackend B] in
/-- Outside the drain no look at the cancellations is owed. -/
theorem Simulates.unowed (h : Simulates s t) {phase : BlockingPhase} (hp : s.phase = phase)
    (hn : ∀ command polls, phase ≠ .draining command polls) : t.owing = false := by
  rw [Bool.eq_false_iff]
  intro ho
  obtain ⟨command, polls, hc⟩ := h.debt ho
  exact hn command polls (hp.symm.trans hc)

omit [WifiBackend B] in
/-- A state stands for a service in which nothing is owed. -/
theorem simulates_unowed {owing : Bool} {inflight : List Command}
    {answered : List (Command × CompletionKind)} (hi : inflight = BlockingPhase.current s.phase)
    (ho : owing = false) : Simulates s ⟨s.plane, s.frame.shared, inflight, owing, answered⟩ :=
  ⟨rfl, rfl, hi, fun hx => by cases ho.symm.trans hx⟩

end Moves

/-- Each atomic step of a call is one step of the service. -/
theorem simulates_runner {s : BlockingSystem B eventCapacity} {t : Service eventCapacity}
    (h : Simulates s t) (mode : BlockingMode) :
    ∃ u, ServiceStep t u ∧ Simulates (runnerStep mode s).1 u := by
  have he := runnerStep_effect mode s
  have hrun := @h.move
  generalize (runnerStep mode s).1 = next at he
  cases he with
  | passed frame phase hp hm hn =>
    have hcur : BlockingPhase.current phase = [] := by
      rcases hn with rfl | ⟨didWork, rfl⟩ <;> rfl
    have ho : t.owing = false := by
      refine h.unowed rfl fun command polls hc => ?_
      rw [hc] at hp
      cases hp
    exact ⟨_, hrun (.stay _) frame.shared hm, simulates_unowed (hp.trans hcur.symm) ho⟩
  | received command rest polls frame hp hq hm =>
    have ho := h.unowed hp nofun
    rw [hp] at hrun
    exact ⟨_, hrun (.take _ command rest hq ho) frame.shared hm,
      ⟨rfl, rfl, rfl, fun _ => ⟨command, polls, rfl⟩⟩⟩
  | drained command polls hp hq =>
    rw [hp] at hrun
    exact ⟨_, hrun (.noCancellation _ hq) _ rfl, simulates_unowed rfl rfl⟩
  | skipped command polls taken rest hp hq hn =>
    rw [hp] at hrun
    exact ⟨_, hrun (.takeCancellation _ taken rest hq) _ rfl,
      simulates_unowed (congrArg BlockingPhase.current hp).symm rfl⟩
  | matched command polls rest hp hq =>
    rw [hp] at hrun
    exact ⟨_, hrun (.takeCancellation _ _ rest hq) _ rfl, simulates_unowed rfl rfl⟩
  | cancelled command polls hp =>
    have ho := h.unowed hp nofun
    rw [hp] at hrun
    refine ⟨_, hrun (.complete _ [] [] command (cancelledKind command) rfl (Or.inl rfl))
      (cancelCommand command s.frame.shared) (cancelCommand_mailbox command _),
      simulates_unowed ?_ ho⟩
    cases polls <;> rfl
  | called command polls hp =>
    have ho := h.unowed hp nofun
    rw [hp] at hrun
    obtain ⟨scanResults, hscan⟩ := callBackend_mailbox command s.frame
    exact ⟨_, hrun (.write _ scanResults (by simp [BlockingPhase.current]))
      (callBackend command s.frame).2.shared hscan, simulates_unowed rfl ho⟩
  | signalled command kind polls hp =>
    have ho := h.unowed hp nofun
    rw [hp] at hrun
    refine ⟨_, hrun (.complete _ [] [] command kind rfl (Or.inl rfl))
      (s.frame.shared.signalCompletion command.sequence kind) rfl, simulates_unowed ?_ ho⟩
    cases polls <;> rfl

/-- Each atomic step of the blocking system is one step of the service. -/
theorem simulates_step (interrupt : E → B → B) {s : BlockingSystem B eventCapacity}
    {t : Service eventCapacity} (h : Simulates s t) (input : BlockingInput E) :
    ∃ u, ServiceStep t u ∧ Simulates ((blockingMachine interrupt).next s input) u := by
  cases input with
  | control step =>
    have hstep := ServiceStep.control t step
    rw [h.plane, h.shared] at hstep
    exact ⟨_, hstep, ⟨rfl, rfl, h.inflight, h.debt⟩⟩
  | backendEvent event =>
    exact ⟨_, h.move (.stay _) s.frame.shared rfl, ⟨rfl, rfl, rfl, h.debt⟩⟩
  | runner mode => exact simulates_runner h mode

end Steps

end HisiRfCore.BlockingService
