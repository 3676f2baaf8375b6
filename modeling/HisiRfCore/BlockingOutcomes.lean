import HisiRfCore.AwaitedCalls
import HisiRfCore.BlockingAbandonment

/-!
# The blocking runner serves the outcomes

A blocking backend that returns the given outcomes, one for each operation, and has
no background work. The runner publishes each outcome when it calls the backend and
signals it afterwards, so that awaited calls resolve with the outcomes in order.
-/

namespace HisiRfCore.BlockingOutcomes

open BoundedChannel WifiTypes RadioStorage AsyncControl BlockingRunner BlockingService
open BlockingAbandonment IncrementalContract AwaitedCalls InputOutputMachine

variable {B E : Type} {eventCapacity : ℕ}

section Backend

variable [WifiBackend B]

/-- The backend operation of a command, on the scan buffer. -/
def operate (config : WifiConfig) (command : CommandKind) (backend : B) (buffer : ScanBuffer) :
    CompletionKind × B × ScanBuffer :=
  match command with
  | .initialise =>
    let (result, backend) := WifiBackend.initialise backend config
    (.initialise result, backend, buffer)
  | .scan scan =>
    let (result, backend, buffer) := WifiBackend.scan backend scan buffer
    (.scan result, backend, buffer)
  | .connect station =>
    let (result, backend) := WifiBackend.connect backend station
    (.connect result, backend, buffer)
  | .disconnect =>
    let (result, backend) := WifiBackend.disconnect backend config
    (.disconnect result, backend, buffer)

/-- A backend whose states with outcomes left return the next outcome from the next
operation, and whose background polls do nothing. -/
structure Answers (interrupt : E → B → B) (config : WifiConfig) (R : List Outcome → B → Prop) :
    Prop where
  /-- Outside events take no outcome away. -/
  interrupted : ∀ {left backend} (event : E), R left backend → R left (interrupt event backend)
  /-- A background poll reports no work and takes no outcome away. -/
  polled : ∀ {left backend}, R left backend →
    (WifiBackend.poll backend).1 = .ok false ∧ R left (WifiBackend.poll backend).2
  /-- An operation returns its outcome, with its scan buffer and its identity. -/
  operated : ∀ {o rest backend} (buffer : ScanBuffer), R (o :: rest) backend →
    (operate config o.call.command backend buffer).1 = o.completion ∧
    R rest (operate config o.call.command backend buffer).2.1 ∧
    o.Leaves (operate config o.call.command backend buffer).2.2 ∧
    (o.answer = .ok .initialized →
      WifiBackend.l2Capabilities (operate config o.call.command backend buffer).2.1 =
        o.capabilities)

end Backend

section Completions

/-- Event that a completion is published with; a protocol failure has none. -/
def eventOf : CompletionKind → Option WifiEvent
  | .initialise result => some (resultEvent result .initialized)
  | .scan (.ok outcome) => some (.scanCompleted outcome.count outcome.truncated)
  | .connect (.ok info) => some (.connected info)
  | .disconnect result => some (resultEvent result (.disconnected 0))
  | .scan (.error error) | .connect (.error error) => some (.failed error)
  | .protocol => none

/-- The event of an outcome is that of its completion. -/
theorem eventOf_completion (o : Outcome) : eventOf o.completion = some o.event := by
  unfold Outcome.completion Outcome.event
  cases o.answer with
  | ok completion => cases completion <;> rfl
  | error error => cases CommandKindTag.fromCommand o.call.command <;> rfl

/-- Only a successful initialization has the completion of one. -/
theorem initialized_of_completion {o : Outcome} (h : o.completion = .initialise (.ok ())) :
    o.answer = .ok .initialized := by
  unfold Outcome.completion at h
  cases ha : o.answer with
  | ok completion =>
    rw [ha] at h
    cases completion <;> cases h
    rfl
  | error error =>
    simp only [ha] at h
    cases hk : CommandKindTag.fromCommand o.call.command <;> rw [hk] at h <;> cases h

/-- Any other completion publishes no identity. -/
theorem identity_of_completion {o : Outcome} (h : o.completion ≠ .initialise (.ok ())) :
    o.identity = none := by
  unfold Outcome.completion at h
  unfold Outcome.identity
  cases ha : o.answer with
  | ok completion =>
    rw [ha] at h
    cases completion with
    | initialized => exact (h rfl).elim
    | _ => rfl
  | error error => rfl

end Completions

section Calls

variable [WifiBackend B] {interrupt : E → B → B} {config : WifiConfig}
  {R : List Outcome → B → Prop} {served rest : List Outcome} {o : Outcome} {command : Command}
  {frame : BlockingFrame B eventCapacity}

/-- The backend call of a command publishes its outcome and returns its completion. -/
theorem callBackend_outcome (hR : Answers interrupt config R)
    (hc : frame.runner.config = config) (hk : o.call.command = command.kind)
    (hr : R (o :: rest) frame.runner.backend) (hp : Published served frame.shared) :
    (callBackend command frame).1 = o.completion ∧
    (callBackend command frame).2.runner.config = config ∧
    R rest (callBackend command frame).2.runner.backend ∧
    o.Leaves (callBackend command frame).2.shared.scanResults ∧
    Published (served ++ [o]) (callBackend command frame).2.shared := by
  obtain ⟨hanswer, hrest, hleaves, hidentity⟩ := hR.operated frame.shared.scanResults hr
  have hevent := eventOf_completion o
  have hother := @identity_of_completion o
  have hscan : ∀ (shared : SharedState eventCapacity) (event : WifiEvent),
      (shared.publishEvent event).scanResults = shared.scanResults :=
    fun shared event => congrArg Mailbox.scanResults (SharedState.publishEvent_mailbox event shared)
  have hquiet : ∀ (shared : SharedState eventCapacity) (event : WifiEvent), o.event = event →
      o.identity = none → Published served shared →
      Published (served ++ [o]) (shared.publishEvent event) := by
    intro shared event he hi h
    have hpublish := h.publish o
    rw [hi, he] at hpublish
    exact hpublish
  have hcounted : Published served {frame.shared with
      commandsProcessed := saturatingIncrement frame.shared.commandsProcessed} :=
    ⟨hp.events, hp.identity⟩
  rw [hk, ← hc] at hanswer hrest hleaves hidentity
  unfold callBackend
  cases hkind : command.kind with
  | initialise =>
    rw [hkind] at hanswer hrest hleaves hidentity
    rcases hx : WifiBackend.initialise frame.runner.backend frame.runner.config with
      ⟨result, backend⟩
    simp only [operate, hx] at hanswer hrest hleaves hidentity ⊢
    rw [← hanswer] at hevent hother
    have hsame : o.event = resultEvent result .initialized := (Option.some.inj hevent).symm
    cases result with
    | error error =>
      refine ⟨hanswer, hc, hrest, ?_, hquiet _ _ hsame (hother (by simp)) hcounted⟩
      rw [hscan]
      exact hleaves
    | ok value =>
      cases value
      have hinit := initialized_of_completion hanswer.symm
      have hid : WifiBackend.l2Capabilities backend = o.identity := by
        rw [hidentity hinit, Outcome.identity, hinit]
      refine ⟨hanswer, hc, hrest, ?_, ?_⟩
      · rw [hscan]
        cases WifiBackend.l2Capabilities backend <;> exact hleaves
      · rw [hid, ← hsame]
        exact hcounted.publish o
  | scan scan =>
    rw [hkind] at hanswer hrest hleaves
    rcases hx : WifiBackend.scan frame.runner.backend scan frame.shared.scanResults with
      ⟨result, backend, output⟩
    simp only [operate, hx] at hanswer hrest hleaves ⊢
    rw [← hanswer] at hevent hother
    refine ⟨hanswer, hc, hrest, ?_,
      hquiet _ _ ?_ (hother (fun he => by cases he)) ⟨hp.events, hp.identity⟩⟩
    · rw [hscan]
      exact hleaves
    · cases result <;> exact (Option.some.inj hevent).symm
  | connect station =>
    rw [hkind] at hanswer hrest hleaves
    rcases hx : WifiBackend.connect frame.runner.backend station with ⟨result, backend⟩
    simp only [operate, hx] at hanswer hrest hleaves ⊢
    rw [← hanswer] at hevent hother
    refine ⟨hanswer, hc, hrest, ?_,
      hquiet _ _ ?_ (hother (fun he => by cases he)) hcounted⟩
    · rw [hscan]
      exact hleaves
    · cases result <;> exact (Option.some.inj hevent).symm
  | disconnect =>
    rw [hkind] at hanswer hrest hleaves
    rcases hx : WifiBackend.disconnect frame.runner.backend frame.runner.config with
      ⟨result, backend⟩
    simp only [operate, hx] at hanswer hrest hleaves ⊢
    rw [← hanswer] at hevent hother
    refine ⟨hanswer, hc, hrest, ?_,
      hquiet _ _ (Option.some.inj hevent).symm (hother (fun he => by cases he)) hcounted⟩
    rw [hscan]
    exact hleaves

end Calls

/-- Where the runner stands with the command it works on: the outcome is published when
the backend returns it, before its completion is signalled. -/
inductive Place (R : List Outcome → B → Prop) (served left : List Outcome)
    (busy : Option Command) (frame : BlockingFrame B eventCapacity) : BlockingPhase → Prop
  | resting (phase : BlockingPhase) (hn : phase = .idle ∨ ∃ didWork, phase = .polling didWork)
      (hb : busy = none) (hr : R left frame.runner.backend) (hp : Published served frame.shared) :
      Place R served left busy frame phase
  | draining (command : Command) (polls : Bool) (hb : busy = some command)
      (hr : R left frame.runner.backend) (hp : Published served frame.shared) :
      Place R served left busy frame (.draining command polls)
  | processing (command : Command) (polls : Bool) (hb : busy = some command)
      (hr : R left frame.runner.backend) (hp : Published served frame.shared) :
      Place R served left busy frame (.processing command polls)
  | signalling (command : Command) (kind : CompletionKind) (polls : Bool) (o : Outcome)
      (rest : List Outcome) (hb : busy = some command) (hl : left = o :: rest)
      (hk : kind = o.completion) (hr : R rest frame.runner.backend)
      (hs : o.Leaves frame.shared.scanResults) (hp : Published (served ++ [o]) frame.shared) :
      Place R served left busy frame (.signalling command kind polls)

/-- What the blocking runner keeps about the outcomes. -/
structure Work (config : WifiConfig) (R : List Outcome → B → Prop) (served left : List Outcome)
    (busy : Option Command) (s : BlockingSystem B eventCapacity) : Prop where
  /-- The defaults of the runner. -/
  defaults : s.frame.runner.config = config
  /-- The command it works on. -/
  place : Place R served left busy s.frame s.phase

/-- Controller step that an input is. -/
def controlStep : BlockingInput E → Option ControlStep
  | .control step => some step
  | _ => none

section Steps

variable [WifiBackend B] {interrupt : E → B → B} {config : WifiConfig}
  {R : List Outcome → B → Prop} {served left : List Outcome} {busy : Option Command}
  {s : BlockingSystem B eventCapacity}

/-- A background poll without work changes the counters alone. -/
theorem pollBackend_outcome (hR : Answers interrupt config R) (didWork : Bool)
    {frame : BlockingFrame B eventCapacity} (hc : frame.runner.config = config)
    (hr : R left frame.runner.backend) (hp : Published served frame.shared) :
    (pollBackend didWork frame).2.runner.config = config ∧
    R left (pollBackend didWork frame).2.runner.backend ∧
    Published served (pollBackend didWork frame).2.shared := by
  obtain ⟨hpoll, hleft⟩ := hR.polled hr
  unfold pollBackend
  rcases hx : WifiBackend.poll frame.runner.backend with ⟨result, backend⟩
  rw [hx] at hpoll hleft
  dsimp only at hpoll hleft
  subst hpoll
  simp only [hx]
  refine ⟨hc, hleft, ?_⟩
  cases didWork <;> exact ⟨hp.events, hp.identity⟩

omit [WifiBackend B] in
/-- A controller step does not disturb the runner. -/
theorem Place.control {frame : BlockingFrame B eventCapacity} {phase : BlockingPhase}
    (h : Place R served left busy frame phase) (plane : ControlPlane) (step : ControlStep) :
    Place R served left busy {frame with shared := (plane.step frame.shared step).2} phase := by
  have hscan : (plane.step frame.shared step).2.scanResults = frame.shared.scanResults :=
    (control_forwards (step_effect plane frame.shared step)).scanResults
  cases h with
  | resting _ hn hb hr hp => exact .resting _ hn hb hr (hp.control plane step)
  | draining command polls hb hr hp => exact .draining command polls hb hr (hp.control plane step)
  | processing command polls hb hr hp =>
    exact .processing command polls hb hr (hp.control plane step)
  | signalling command kind polls o rest hb hl hk hr hs hp =>
    refine .signalling command kind polls o rest hb hl hk hr ?_ (hp.control plane step)
    rw [hscan]
    exact hs

/-- An outside event takes no outcome away. -/
theorem Place.interrupted (hR : Answers interrupt config R) (event : E)
    {frame : BlockingFrame B eventCapacity} {phase : BlockingPhase}
    (h : Place R served left busy frame phase) :
    Place R served left busy
      {frame with runner := {frame.runner with
        backend := interrupt event frame.runner.backend}} phase := by
  cases h with
  | resting _ hn hb hr hp => exact .resting _ hn hb (hR.interrupted event hr) hp
  | draining command polls hb hr hp =>
    exact .draining command polls hb (hR.interrupted event hr) hp
  | processing command polls hb hr hp =>
    exact .processing command polls hb (hR.interrupted event hr) hp
  | signalling command kind polls o rest hb hl hk hr hs hp =>
    exact .signalling command kind polls o rest hb hl hk (hR.interrupted event hr) hs hp

/-- The outcomes are served up to a state whose runner keeps them. -/
def Serving (config : WifiConfig) (R : List Outcome → B → Prop) (outcomes : List Outcome)
    (plane : ControlPlane) (s : BlockingSystem B eventCapacity) : Prop :=
  ∃ served left busy, served ++ left = outcomes ∧
    Awaits served left busy plane s.frame.shared.mailbox ∧ Work config R served left busy s

omit [WifiBackend B] in
/-- A runner that rests keeps the outcomes when it goes on without a command. -/
theorem serving_resting {frame : BlockingFrame B eventCapacity} {phase : BlockingPhase}
    (hn : phase = .idle ∨ ∃ didWork, phase = .polling didWork)
    (hw : Awaits served left none s.plane frame.shared.mailbox)
    (hc : frame.runner.config = config) (hr : R left frame.runner.backend)
    (hp : Published served frame.shared) :
    Serving config R (served ++ left) s.plane {s with frame := frame, phase := phase} :=
  ⟨served, left, none, rfl, hw, hc, .resting phase hn rfl hr hp⟩

omit [WifiBackend B] in
/-- A runner that rests takes the queued command. -/
theorem serving_received {frame : BlockingFrame B eventCapacity} {command : Command}
    {commands : List Command} (polls : Bool)
    (hq : frame.shared.commands.queued = command :: commands)
    (hw : Awaits served left none s.plane frame.shared.mailbox)
    (hc : frame.runner.config = config) (hr : R left frame.runner.backend)
    (hp : Published served frame.shared) :
    Serving config R (served ++ left) s.plane {s with
      frame := {frame with shared := {frame.shared with
        commands := frame.shared.commands.tryReceive.2}}
      phase := .draining command polls} :=
  ⟨served, left, some command, rfl, hw.take hq, hc,
    .draining command polls rfl hr ⟨hp.events, hp.identity⟩⟩

/-- Every runner step serves the outcomes in order. -/
theorem serving_runner (hR : Answers interrupt config R) (mode : BlockingMode)
    (hw : Awaits served left busy s.plane s.frame.shared.mailbox)
    (h : Work config R served left busy s) :
    Serving config R (served ++ left) s.plane (runnerStep mode s).1 := by
  obtain ⟨hc, hplace⟩ := h
  unfold runnerStep
  generalize s.phase = phase at hplace
  cases hplace with
  | resting _ hn hb hr hp =>
    subst hb
    rcases hn with rfl | ⟨didWork, rfl⟩
    · cases hq : s.frame.shared.commands.queued with
      | nil =>
        cases mode with
        | runOnce =>
          have hnone : receiveCommand (countCall s.frame) = (none, countCall s.frame) :=
            receiveCommand_of_nil hq
          simp only [hnone]
          exact serving_resting (Or.inr ⟨false, rfl⟩) hw hc hr ⟨hp.events, hp.identity⟩
        | run =>
          simp only [receiveCommand_of_nil hq]
          exact serving_resting (Or.inl rfl) hw hc hr hp
      | cons command commands =>
        cases mode with
        | runOnce =>
          have hsome := @receiveCommand_of_cons _ _ (countCall s.frame) command commands hq
          simp only [hsome]
          exact serving_received true hq hw hc hr ⟨hp.events, hp.identity⟩
        | run =>
          simp only [receiveCommand_of_cons hq]
          exact serving_received false hq hw hc hr hp
    · obtain ⟨hc', hr', hp'⟩ := pollBackend_outcome hR didWork hc hr hp
      have hm := pollBackend_mailbox didWork s.frame
      refine serving_resting (Or.inl rfl) ?_ hc' hr' hp'
      rw [hm]
      exact hw
  | draining command polls hb hr hp =>
    have hq : s.frame.shared.cancellations.queued = [] := hw.cancellations
    simp only [tryReceive_of_nil hq]
    exact ⟨served, left, busy, rfl, hw, hc, .processing command polls hb hr hp⟩
  | processing command polls hb hr hp =>
    subst hb
    obtain ⟨-, o, rest, rfl, hk⟩ := hw.working
    obtain ⟨hkind, hc', hr', hs, hp'⟩ := callBackend_outcome hR hc hk hr hp
    obtain ⟨output, hm⟩ := callBackend_mailbox command s.frame
    refine ⟨served, o :: rest, some command, rfl, ?_, hc',
      .signalling command _ polls o rest rfl rfl hkind hr' hs hp'⟩
    rw [hm]
    exact hw.write output
  | signalling command kind polls o rest hb hl hk hr hs hp =>
    subst hb hl hk
    refine ⟨served ++ [o], rest, none, ?_, hw.reply hs, hc,
      .resting _ ?_ rfl hr ⟨hp.events, hp.identity⟩⟩
    · rw [List.append_assoc]
      rfl
    · cases polls with
      | true => exact Or.inr ⟨true, rfl⟩
      | false => exact Or.inl rfl

/-- The blocking runner serves the outcomes of its backend. -/
theorem serves_outcomes (hR : Answers interrupt config R) :
    Serves (blockingMachine interrupt) (fun s : BlockingSystem B eventCapacity => s.plane)
      (fun s => s.frame.shared) controlStep (Work config R) := by
  constructor
  · intro served left busy s i step hi h
    cases i with
    | control step' => exact ⟨h.defaults, h.place.control s.plane step'⟩
    | _ => cases hi
  · intro served left busy s i hi hw h
    cases i with
    | control step => cases hi
    | runner mode => exact serving_runner hR mode hw h
    | backendEvent event =>
      exact ⟨served, left, busy, rfl, hw, h.defaults, h.place.interrupted hR event⟩

/-- Only the controller's inputs move its side of the blocking system. -/
theorem hosts_controller (interrupt : E → B → B) :
    Hosts (blockingMachine interrupt) (fun s : BlockingSystem B eventCapacity => s.plane)
      (fun s => s.frame.shared) controlStep := by
  constructor
  · intro s i step hi
    cases i with
    | control step' =>
      cases hi
      rfl
    | _ => cases hi
  · intro s i hi
    cases i with
    | control step => cases hi
    | runner mode => exact effect_plane (runnerStep_effect mode s)
    | backendEvent event => rfl

end Steps

section Runs

variable [WifiBackend B] {interrupt : E → B → B} {config : WifiConfig} {backend : B}
  {outcomes : List Outcome} {hpos : 0 < eventCapacity} {inputs : List (BlockingInput E)}

/-- The backend returns the outcomes from its next operations. -/
def Plays (interrupt : E → B → B) (config : WifiConfig) (outcomes : List Outcome) (backend : B) :
    Prop :=
  ∃ R, Answers interrupt config R ∧ R outcomes backend

/-- Awaited calls resolve with the outcomes, and the runner publishes them in order. -/
theorem run_outcomes (hb : Plays interrupt config outcomes backend)
    (hr : Resolves outcomes (issuedCalls controlStep inputs)
      (blockingRun interrupt backend config hpos inputs).plane) :
    results (blockingRun interrupt backend config hpos inputs).plane =
        outcomes.map Outcome.result ∧
      Published outcomes (blockingRun interrupt backend config hpos inputs).frame.shared := by
  obtain ⟨R, hR, hstart⟩ := hb
  obtain ⟨hresults, -, hplace⟩ := awaited_run (hosts_controller interrupt) (serves_outcomes hR)
    rfl (awaits_new outcomes hpos)
    ⟨rfl, .resting .idle (Or.inl rfl) rfl hstart (published_new hpos)⟩ hr
  refine ⟨hresults, ?_⟩
  generalize ((blockingMachine interrupt).run (blockingStart backend config hpos) inputs).phase =
    phase at hplace
  cases hplace with
  | resting _ hn hb hl hp => exact hp
  | _ => contradiction

end Runs

end HisiRfCore.BlockingOutcomes
