import HisiRfCore.AsyncControl
import HisiRfCore.IncrementalContract
import HisiRfCore.InputOutputMachine

/-!
# Awaited calls

A list of calls, each resolved before the next one is made, with an outcome of the
backend for each. What the application observes of them is a function of the
outcomes. The controller's side of the argument is made once, for any machine that
hosts the controller: its calls resolve in order with the results of the outcomes,
whatever the runner does in between.
-/

namespace HisiRfCore.AwaitedCalls

open NonZeroCounter BoundedChannel WifiTypes RadioStorage AsyncControl IncrementalContract
open InputOutputMachine

/-- A call and the outcome that the backend has for it. -/
structure Outcome where
  /-- The call. -/
  call : ControlCall
  /-- Success or error of the backend operation. -/
  answer : Except BackendError IncrementalCompletion
  /-- A success is of the call's own kind. -/
  own : ∀ completion, answer = .ok completion → completion.tag = .fromCommand call.command
  /-- Scan buffer left by a successful scan. -/
  buffer : ScanBuffer
  /-- Identity answered after a successful initialization. -/
  capabilities : Option WifiL2Capabilities

/-- Completion and event that a success stands for. -/
def successOf : IncrementalCompletion → CompletionKind × WifiEvent
  | .initialized => (.initialise (.ok ()), .initialized)
  | .scan outcome => (.scan (.ok outcome), .scanCompleted outcome.count outcome.truncated)
  | .connected info => (.connect (.ok info), .connected info)
  | .disconnected => (.disconnect (.ok ()), .disconnected 0)

namespace Outcome

/-- Completion that the call takes. -/
def completion (o : Outcome) : CompletionKind :=
  match o.answer with
  | .ok completion => (successOf completion).1
  | .error error => (CommandKindTag.fromCommand o.call.command).failed error

/-- Event that the application receives. -/
def event (o : Outcome) : WifiEvent :=
  match o.answer with
  | .ok completion => (successOf completion).2
  | .error error => .failed error

/-- Identity that the outcome publishes. -/
def identity (o : Outcome) : Option WifiL2Capabilities :=
  match o.answer with
  | .ok .initialized => o.capabilities
  | _ => none

/-- Result of the call; a panicking copy has none. -/
def result (o : Outcome) : Option ControlResult := o.call.resolve o.completion o.buffer

/-- The buffer holds the entries that a successful scan counted. -/
def Leaves (o : Outcome) (buffer : ScanBuffer) : Prop :=
  ∀ outcome, o.answer = .ok (.scan outcome) →
    buffer.toList.take outcome.count = o.buffer.toList.take outcome.count

/-- A call copies only the entries counted by a successful scan. -/
theorem Leaves.copied {o : Outcome} {buffer : ScanBuffer} (h : o.Leaves buffer) :
    o.call.resolve o.completion buffer = o.result := by
  have hsame : ∀ kind : CompletionKind, (∀ outcome, kind = .scan (.ok outcome) →
      buffer.toList.take outcome.count = o.buffer.toList.take outcome.count) →
      o.call.resolve kind buffer = o.call.resolve kind o.buffer := by
    intro kind hk
    cases o.call with
    | scan config output =>
      cases kind with
      | scan answer =>
        cases answer with
        | ok outcome =>
          have hcopy : buffer.toList.take (min outcome.count output.length) =
              o.buffer.toList.take (min outcome.count output.length) := by
            rw [Nat.min_comm, ← List.take_take, ← List.take_take, hk outcome rfl]
          simp only [ControlCall.resolve, hcopy]
        | error error => rfl
      | _ => rfl
    | _ => cases kind <;> rfl
  refine hsame _ (fun outcome hx => h outcome ?_)
  unfold completion at hx
  cases ha : o.answer with
  | ok completion =>
    rw [ha] at hx
    cases completion <;> cases hx
    rfl
  | error error =>
    simp only [ha] at hx
    cases hkind : CommandKindTag.fromCommand o.call.command <;> rw [hkind] at hx <;> cases hx

/-- State of the published identity after the outcome. -/
def identify (state : L2CapabilityState) (o : Outcome) : L2CapabilityState :=
  match o.identity with
  | some capabilities => state.publishOnce capabilities
  | none => state

end Outcome

variable {eventCapacity : ℕ}

/-- The events and the identity of the outcomes are published, and nothing else. -/
structure Published (served : List Outcome) (shared : SharedState eventCapacity) : Prop where
  /-- Every event was sent, in order. -/
  events : shared.events.sent = served.map Outcome.event
  /-- The identity is the first one answered. -/
  identity : shared.l2Capabilities = served.foldl Outcome.identify .new

/-- Unclaimed storage has published nothing. -/
theorem published_new (h : 0 < eventCapacity) : Published [] (SharedState.new h) := ⟨rfl, rfl⟩

/-- Publishing the identity and the event of an outcome publishes the outcome. -/
theorem Published.publish {served : List Outcome} {shared : SharedState eventCapacity}
    (h : Published served shared) (o : Outcome) :
    Published (served ++ [o]) ((shared.publishCapabilities o.identity).publishEvent o.event) := by
  constructor
  · have hsame : (shared.publishCapabilities o.identity).events = shared.events := by
      cases o.identity <;> rfl
    rw [SharedState.publishEvent_sent, hsame, h.events, List.map_append]
    rfl
  · have hstate : (shared.publishCapabilities o.identity).l2Capabilities =
        Outcome.identify shared.l2Capabilities o := by
      unfold Outcome.identify
      cases o.identity <;> rfl
    rw [SharedState.publishEvent_l2Capabilities, hstate, h.identity, List.foldl_append]
    rfl

/-- The controller publishes nothing. -/
theorem Published.control {served : List Outcome} {shared : SharedState eventCapacity}
    (h : Published served shared) (plane : ControlPlane) (step : ControlStep) :
    Published served (plane.step shared step).2 := by
  have hquiet : ∀ next : SharedState eventCapacity, next.events.sent = shared.events.sent →
      next.l2Capabilities = shared.l2Capabilities → Published served next :=
    fun next he hl => ⟨he.trans h.events, hl.trans h.identity⟩
  cases step with
  | nextEvent =>
    have hsent := tryReceive_sent shared.events
    simp only [ControlPlane.step, ControlPlane.nextEvent]
    rcases hx : shared.events.tryReceive with ⟨event, events⟩
    rw [hx] at hsent
    cases event with
    | none => exact h
    | some event => exact hquiet _ hsent rfl
  | send =>
    cases hf : plane.future with
    | sending sequence call =>
      simp only [ControlPlane.step, hf, ControlPlane.sendCommand]
      rcases shared.commands.trySend ⟨sequence, call.command⟩ with ⟨result, commands⟩
      cases result <;> exact hquiet _ rfl rfl
    | _ =>
      simp only [ControlPlane.step, hf]
      exact h
  | observe =>
    cases hf : plane.future with
    | waiting sequence call =>
      simp only [ControlPlane.step, hf, ControlPlane.observeCompletion]
      rcases shared.completion.tryTake with ⟨taken, signal⟩
      cases taken with
      | none => exact h
      | some completion =>
        dsimp only
        split <;> exact hquiet _ rfl rfl
    | _ =>
      simp only [ControlPlane.step, hf]
      exact h
  | finish =>
    cases hf : plane.future with
    | finishing sequence call kind =>
      simp only [ControlPlane.step, hf, ControlPlane.finishCall]
      cases call.resolve kind shared.scanResults <;> exact hquiet _ rfl rfl
    | _ =>
      simp only [ControlPlane.step, hf]
      exact h
  | _ =>
    cases hf : plane.future <;> simp only [ControlPlane.step, hf] <;> exact hquiet _ rfl rfl

/-- The next outcome is one of the call. -/
def Next (left : List Outcome) (call : ControlCall) : Prop :=
  ∃ o rest, left = o :: rest ∧ o.call = call

/-- No command is queued and no completion waits. -/
structure Free (mailbox : Mailbox) : Prop where
  /-- The command channel is empty. -/
  queued : mailbox.commands.queued = []
  /-- The completion signal is empty. -/
  value : mailbox.completion.value = none

/-- Results of the calls resolved so far. -/
def results (plane : ControlPlane) : List (Option ControlResult) :=
  plane.resolved.map fun r => some r.result

/-- Where the outstanding call stands, given the outcomes served and left, the command
the runner works on and the results so far. -/
inductive Stage (served left : List Outcome) (busy : Option Command) (mailbox : Mailbox)
    (results : List (Option ControlResult)) : ControlFuture → Prop
  | idle (hf : Free mailbox) (hb : busy = none) (hr : results = served.map Outcome.result) :
      Stage served left busy mailbox results .idle
  | created (call : ControlCall) (hn : Next left call) (hf : Free mailbox) (hb : busy = none)
      (hr : results = served.map Outcome.result) :
      Stage served left busy mailbox results (.created call)
  | sending (sequence : UInt32) (call : ControlCall) (hz : sequence ≠ 0) (hn : Next left call)
      (hf : Free mailbox) (hb : busy = none) (hr : results = served.map Outcome.result) :
      Stage served left busy mailbox results (.sending sequence call)
  | queued (sequence : UInt32) (call : ControlCall) (hz : sequence ≠ 0) (hn : Next left call)
      (hq : mailbox.commands.queued = [⟨sequence, call.command⟩])
      (hv : mailbox.completion.value = none) (hb : busy = none)
      (hr : results = served.map Outcome.result) :
      Stage served left busy mailbox results (.waiting sequence call)
  | working (sequence : UInt32) (call : ControlCall) (hz : sequence ≠ 0) (hn : Next left call)
      (hf : Free mailbox) (hb : busy = some ⟨sequence, call.command⟩)
      (hr : results = served.map Outcome.result) :
      Stage served left busy mailbox results (.waiting sequence call)
  | replied (sequence : UInt32) (call : ControlCall) (earlier : List Outcome) (o : Outcome)
      (hs : served = earlier ++ [o]) (hq : mailbox.commands.queued = [])
      (hv : mailbox.completion.value = some ⟨sequence, o.completion⟩) (hb : busy = none)
      (hc : call.resolve o.completion mailbox.scanResults = o.result)
      (hr : results = earlier.map Outcome.result) :
      Stage served left busy mailbox results (.waiting sequence call)
  | finishing (sequence : UInt32) (call : ControlCall) (kind : CompletionKind)
      (earlier : List Outcome) (o : Outcome) (hs : served = earlier ++ [o]) (hf : Free mailbox)
      (hb : busy = none) (hk : kind = o.completion)
      (hc : call.resolve kind mailbox.scanResults = o.result)
      (hr : results = earlier.map Outcome.result) :
      Stage served left busy mailbox results (.finishing sequence call kind)

/-- The controller awaits its calls in order, and cancelled none. -/
structure Awaits (served left : List Outcome) (busy : Option Command) (plane : ControlPlane)
    (mailbox : Mailbox) : Prop where
  /-- No cancellation is queued. -/
  cancellations : mailbox.cancellations.queued = []
  /-- The outstanding call is at one of the stages. -/
  stage : Stage served left busy mailbox (results plane) plane.future

/-- A claimed radio awaits the first call. -/
theorem awaits_new (outcomes : List Outcome) (h : 0 < eventCapacity) :
    Awaits [] outcomes none .new (SharedState.new h).mailbox :=
  ⟨rfl, .idle ⟨rfl, rfl⟩ rfl rfl⟩

section Runner

variable {served left rest : List Outcome} {busy : Option Command} {command : Command}
  {plane : ControlPlane} {mailbox : Mailbox} {o : Outcome}

/-- The command being worked on is that of the next outcome. -/
theorem Awaits.working (h : Awaits served left (some command) plane mailbox) :
    command.sequence ≠ 0 ∧ ∃ o rest, left = o :: rest ∧ o.call.command = command.kind := by
  have hstage := h.stage
  generalize plane.future = future at hstage
  cases hstage with
  | working sequence call hz hn hf hb hr =>
    obtain ⟨o, rest, hl, hc⟩ := hn
    cases hb
    exact ⟨hz, o, rest, hl, congrArg ControlCall.command hc⟩
  | _ => contradiction

/-- A command is queued only while none is worked on. -/
theorem Awaits.queued {commands : List Command} (h : Awaits served left busy plane mailbox)
    (hq : mailbox.commands.queued = command :: commands) : busy = none := by
  have hstage := h.stage
  generalize plane.future = future at hstage
  cases hstage with
  | working sequence call hz hn hf hb hr =>
    rw [hf.queued] at hq
    cases hq
  | _ => assumption

/-- The runner receives the queued command. -/
theorem Awaits.take {commands : List Command} (h : Awaits served left none plane mailbox)
    (hq : mailbox.commands.queued = command :: commands) :
    Awaits served left (some command) plane
      {mailbox with commands := mailbox.commands.tryReceive.2} := by
  have hrest := (tryReceive_of_cons hq).2.2
  have hstage := h.stage
  refine ⟨h.cancellations, ?_⟩
  generalize plane.future = future at hstage ⊢
  cases hstage with
  | queued sequence call hz hn hq' hv hb hr =>
    rw [hq'] at hq
    cases hq
    exact .working sequence call hz hn ⟨hrest, hv⟩ rfl hr
  | replied sequence call earlier o hs hq' hv hb hc hr =>
    rw [hq'] at hq
    cases hq
  | working sequence call hz hn hf hb hr => cases hb
  | idle hf hb hr =>
    rw [hf.queued] at hq
    cases hq
  | created call hn hf hb hr =>
    rw [hf.queued] at hq
    cases hq
  | sending sequence call hz hn hf hb hr =>
    rw [hf.queued] at hq
    cases hq
  | finishing sequence call kind earlier o hs hf hb hk hc hr =>
    rw [hf.queued] at hq
    cases hq

/-- While the runner works it may write the scan buffer. -/
theorem Awaits.write (h : Awaits served left (some command) plane mailbox)
    (output : ScanBuffer) :
    Awaits served left (some command) plane {mailbox with scanResults := output} := by
  have hstage := h.stage
  refine ⟨h.cancellations, ?_⟩
  generalize plane.future = future at hstage ⊢
  cases hstage with
  | working sequence call hz hn hf hb hr =>
    exact .working sequence call hz hn ⟨hf.queued, hf.value⟩ hb hr
  | _ => contradiction

/-- The runner signals the completion of the next outcome. -/
theorem Awaits.reply (h : Awaits served (o :: rest) (some command) plane mailbox)
    (hl : o.Leaves mailbox.scanResults) :
    Awaits (served ++ [o]) rest none plane
      {mailbox with
        completion := mailbox.completion.signal ⟨command.sequence, o.completion⟩} := by
  have hstage := h.stage
  refine ⟨h.cancellations, ?_⟩
  generalize plane.future = future at hstage ⊢
  cases hstage with
  | working sequence call hz hn hf hb hr =>
    obtain ⟨x, later, hx, hc⟩ := hn
    cases hx
    cases hb
    subst hc
    exact .replied sequence _ served o rfl hf.queued rfl rfl hl.copied hr
  | _ => contradiction

end Runner

/-- The future is outstanding. -/
def outstanding : ControlFuture → ℕ
  | .idle => 0
  | _ => 1

/-- Calls that were made and not dropped. -/
def progress (plane : ControlPlane) : ℕ := plane.resolved.length + outstanding plane.future

/-- Call that a step makes. -/
def issued : ControlStep → Option ControlCall
  | .call call => some call
  | _ => none

section Control

variable {served left : List Outcome} {busy : Option Command} {plane : ControlPlane}
  {shared : SharedState eventCapacity}

/-- A step makes at most the call it issues. -/
theorem progress_step (plane : ControlPlane) (shared : SharedState eventCapacity)
    (step : ControlStep) :
    progress (plane.step shared step).1 ≤ progress plane + (issued step).toList.length := by
  cases hf : plane.future with
  | idle => cases step <;> simp [ControlPlane.step, hf, progress, outstanding, issued]
  | created call =>
    cases step <;>
      simp [ControlPlane.step, ControlPlane.allocateSequence, hf, progress, outstanding, issued]
  | sending sequence call =>
    cases step with
    | send =>
      simp only [ControlPlane.step, hf, ControlPlane.sendCommand]
      split <;> simp [progress, outstanding, hf]
    | _ => simp [ControlPlane.step, hf, progress, outstanding, issued]
  | waiting sequence call =>
    cases step with
    | observe =>
      simp only [ControlPlane.step, hf, ControlPlane.observeCompletion]
      split
      · split <;> simp [progress, outstanding, hf]
      · exact Nat.le_add_right _ _
    | _ =>
      simp [ControlPlane.step, ControlPlane.dropGuard, hf, progress, outstanding, issued]
  | finishing sequence call kind =>
    cases step with
    | finish =>
      simp only [ControlPlane.step, hf, ControlPlane.finishCall, ControlPlane.dropGuard]
      split <;> simp [progress, outstanding, hf, issued]
    | _ => simp [ControlPlane.step, hf, progress, outstanding, issued]

/-- Only a call creates a future, and only while there is none. -/
theorem created_step {step : ControlStep} {call : ControlCall}
    (h : (plane.step shared step).1.future = .created call) :
    plane.future = .created call ∨ plane.future = .idle ∧ step = .call call := by
  cases hf : plane.future with
  | idle =>
    cases step with
    | call created =>
      simp only [ControlPlane.step, hf, ControlFuture.created.injEq] at h
      exact Or.inr ⟨rfl, by rw [h]⟩
    | _ => simp [ControlPlane.step, hf] at h
  | created created =>
    cases step <;> simp [ControlPlane.step, ControlPlane.allocateSequence, hf] at h <;>
      exact Or.inl (by rw [h])
  | sending sequence created =>
    cases step with
    | send =>
      simp only [ControlPlane.step, hf, ControlPlane.sendCommand] at h
      split at h <;> simp [hf] at h
    | _ => simp [ControlPlane.step, hf] at h
  | waiting sequence created =>
    cases step with
    | observe =>
      simp only [ControlPlane.step, hf, ControlPlane.observeCompletion] at h
      split at h
      · split at h <;> simp [hf] at h
      · simp [hf] at h
    | _ => simp [ControlPlane.step, ControlPlane.dropGuard, hf] at h
  | finishing sequence created kind =>
    cases step with
    | finish =>
      simp only [ControlPlane.step, hf, ControlPlane.finishCall, ControlPlane.dropGuard] at h
      split at h <;> cases h
    | _ => simp [ControlPlane.step, hf] at h

/-- A controller step that drops nothing keeps the stages, when the call it makes is the
next one. -/
theorem Awaits.control (h : Awaits served left busy plane shared.mailbox)
    {next : ControlPlane × SharedState eventCapacity} (he : ControlEffect plane shared next)
    (hp : progress plane ≤ progress next.1)
    (hn : ∀ call, next.1.future = .created call → Next left call) :
    Awaits served left busy next.1 next.2.mailbox := by
  obtain ⟨hcancel, hstage⟩ := h
  cases he with
  | quiet shared' hm =>
    rw [hm]
    exact ⟨hcancel, hstage⟩
  | unsent future hu hf =>
    refine ⟨hcancel, ?_⟩
    have hresults : results {plane with future := future} = results plane := rfl
    rw [hresults]
    rcases hf with rfl | ⟨call, rfl⟩
    · cases hx : plane.future with
      | idle =>
        rw [hx] at hstage
        exact hstage
      | _ =>
        simp only [progress, outstanding, hx] at hp
        omega
    · have hnext := hn call rfl
      generalize plane.future = future at hstage hu
      cases hstage with
      | idle hf hb hr => exact .created call hnext hf hb hr
      | created call' hn' hf hb hr => exact .created call hnext hf hb hr
      | sending sequence call' hz hn' hf hb hr => exact .created call hnext hf hb hr
      | _ => cases hu
  | allocated call hf =>
    rw [hf] at hstage
    refine ⟨hcancel, ?_⟩
    cases hstage with
    | created _ hn' hf hb hr => exact .sending _ call (advance_ne_zero _) hn' hf hb hr
  | sent sequence call hf shared' commands hq hr hs hm =>
    rw [hf] at hstage
    rw [hm]
    refine ⟨hcancel, ?_⟩
    cases hstage with
    | sending _ _ hz hn' hf hb hr => exact .queued sequence call hz hn' hs hf.value hb hr
  | discarded sequence call hf completion hv hs =>
    rw [hf] at hstage
    cases hstage with
    | queued _ _ hz hn' hq hv' hb hr => cases hv'.symm.trans hv
    | working _ _ hz hn' hf hb hr => cases hf.value.symm.trans hv
    | replied _ _ earlier o ho hq hv' hb hc hr =>
      cases hv'.symm.trans hv
      exact (hs rfl).elim
  | taken sequence call kind hf hv =>
    rw [hf] at hstage
    refine ⟨hcancel, ?_⟩
    cases hstage with
    | queued _ _ hz hn' hq hv' hb hr => cases hv'.symm.trans hv
    | working _ _ hz hn' hf hb hr => cases hf.value.symm.trans hv
    | replied _ _ earlier o ho hq hv' hb hc hr =>
      cases hv'.symm.trans hv
      exact .finishing sequence call _ earlier o ho ⟨hq, rfl⟩ hb rfl hc hr
  | resolved sequence call kind hf result hr =>
    rw [hf] at hstage
    refine ⟨hcancel, ?_⟩
    cases hstage with
    | finishing _ _ _ earlier o ho hf hb hk hc hr' =>
      have hresult : o.result = some result := hc.symm.trans hr
      refine .idle hf hb ?_
      rw [results, List.map_append, ho, List.map_append, ← hr']
      simp only [List.map_cons, List.map_nil, hresult]
      rfl
  | dropped command hf =>
    cases hx : plane.future <;> rw [hx] at hf <;> cases hf <;>
      simp only [progress, outstanding, hx, ControlPlane.dropGuard] at hp <;> omega

end Control

section Runs

variable {σ ι ο : Type}

/-- The inputs of a machine that are steps of its controller are carried out as such, and
no other input moves the controller. -/
structure Hosts (m : Machine σ ι ο) (plane : σ → ControlPlane)
    (shared : σ → SharedState eventCapacity) (control : ι → Option ControlStep) : Prop where
  /-- A controller step is one of the control plane. -/
  controller : ∀ {s i step}, control i = some step →
    (plane (m.next s i), shared (m.next s i)) = (plane s).step (shared s) step
  /-- Any other input leaves the control plane alone. -/
  other : ∀ {s i}, control i = none → plane (m.next s i) = plane s

/-- What the runner of the machine keeps about the outcomes served and left. -/
structure Serves (m : Machine σ ι ο) (plane : σ → ControlPlane)
    (shared : σ → SharedState eventCapacity) (control : ι → Option ControlStep)
    (W : List Outcome → List Outcome → Option Command → σ → Prop) : Prop where
  /-- The controller does not disturb it. -/
  controller : ∀ {served left busy s i step}, control i = some step → W served left busy s →
    W served left busy (m.next s i)
  /-- Every other input serves the outcomes in order. -/
  runner : ∀ {served left busy s i}, control i = none →
    Awaits served left busy (plane s) (shared s).mailbox → W served left busy s →
    ∃ served' left' busy', served' ++ left' = served ++ left ∧
      Awaits served' left' busy' (plane s) (shared (m.next s i)).mailbox ∧
      W served' left' busy' (m.next s i)

/-- Calls made by the inputs, in order. -/
def issuedCalls (control : ι → Option ControlStep) (inputs : List ι) : List ControlCall :=
  inputs.filterMap fun i => (control i).bind issued

/-- The calls made are those of the outcomes, and each of them resolved. -/
structure Resolves (outcomes : List Outcome) (calls : List ControlCall) (plane : ControlPlane) :
    Prop where
  /-- The calls are made in order. -/
  issued : calls = outcomes.map Outcome.call
  /-- Each call resolved. -/
  resolved : plane.resolved.length = outcomes.length

/-- The call made while all earlier ones are served is that of the next outcome. -/
theorem next_of_issued {outcomes served left : List Outcome} {earlier later : List ControlCall}
    {call : ControlCall} (ho : served ++ left = outcomes) (hl : earlier.length = served.length)
    (hi : earlier ++ call :: later = outcomes.map Outcome.call) : Next left call := by
  rw [← ho, List.map_append] at hi
  have hleft := (List.append_inj hi (by rw [hl, List.length_map])).2
  cases left with
  | nil => cases hleft
  | cons o rest =>
    rw [List.map_cons, List.cons.injEq] at hleft
    exact ⟨o, rest, rfl, hleft.1.symm⟩

variable {m : Machine σ ι ο} {plane : σ → ControlPlane}
  {shared : σ → SharedState eventCapacity} {control : ι → Option ControlStep}
  {W : List Outcome → List Outcome → Option Command → σ → Prop}

/-- In a run that resolves every call none was dropped or ignored. -/
theorem resolves_progress (hm : Hosts m plane shared control) {start : σ}
    (hp : progress (plane start) = 0) {outcomes : List Outcome} {before after : List ι}
    (hr : Resolves outcomes (issuedCalls control (before ++ after))
      (plane (m.run start (before ++ after)))) :
    progress (plane (m.run start before)) = (issuedCalls control before).length := by
  have hstep : ∀ s i, progress (plane (m.next s i)) ≤
      progress (plane s) + ((control i).bind issued).toList.length := by
    intro s i
    cases hc : control i with
    | some step =>
      have hplane := congrArg Prod.fst (hm.controller (s := s) hc)
      rw [show plane (m.next s i) = ((plane s).step (shared s) step).1 from hplane]
      exact progress_step _ _ step
    | none =>
      rw [hm.other hc]
      exact Nat.le_add_right _ _
  have htight := @run_tight _ _ _ _ m (fun s => progress (plane s))
    (fun i => (control i).bind issued) hstep start before after
  rw [hp, Nat.zero_add, Nat.zero_add] at htight
  refine htight ?_
  have hlen := congrArg List.length hr.issued
  rw [List.length_map, ← hr.resolved] at hlen
  exact Nat.le_trans (Nat.le_of_eq hlen) (Nat.le_add_right _ _)

/-- Wherever a run stands that resolves every call, the runner has served some of the outcomes
and the controller awaits the next one. -/
theorem run_awaits (hm : Hosts m plane shared control) (hw : Serves m plane shared control W)
    {start : σ} {outcomes : List Outcome} {inputs : List ι} (hp : progress (plane start) = 0)
    (ha : Awaits [] outcomes none (plane start) (shared start).mailbox)
    (h0 : W [] outcomes none start)
    (hr : Resolves outcomes (issuedCalls control inputs) (plane (m.run start inputs))) :
    ∀ before after, inputs = before ++ after →
      ∃ served left busy, served ++ left = outcomes ∧
        Awaits served left busy (plane (m.run start before)) (shared (m.run start before)).mailbox ∧
        W served left busy (m.run start before) := by
  intro before
  induction before using List.reverseRecOn with
  | nil => exact fun _ _ => ⟨[], outcomes, none, rfl, ha, h0⟩
  | append_singleton before i ih =>
    intro after he
    have hi : inputs = before ++ ([i] ++ after) := by rw [he, List.append_assoc]
    obtain ⟨served, left, busy, ho, hawait, hwork⟩ := ih _ hi
    have hbefore := resolves_progress hm hp (hi ▸ hr)
    have hnext := resolves_progress hm hp (he ▸ hr)
    rw [run_concat] at hnext ⊢
    generalize m.run start before = s at hawait hwork hbefore hnext ⊢
    cases hc : control i with
    | none =>
      obtain ⟨served', left', busy', hsame, hawait', hwork'⟩ := hw.runner hc hawait hwork
      rw [hm.other hc]
      exact ⟨served', left', busy', hsame.trans ho, hawait', hwork'⟩
    | some step =>
      have hstep := hm.controller (s := s) hc
      have hplane : plane (m.next s i) = ((plane s).step (shared s) step).1 :=
        congrArg Prod.fst hstep
      have hshared : shared (m.next s i) = ((plane s).step (shared s) step).2 :=
        congrArg Prod.snd hstep
      refine ⟨served, left, busy, ho, ?_, hw.controller hc hwork⟩
      rw [hplane] at hnext
      rw [hplane, hshared]
      have hcalls : issuedCalls control (before ++ [i]) =
          issuedCalls control before ++ (issued step).toList := by
        rw [issuedCalls, List.filterMap_append]
        cases hs : issued step <;> simp [issuedCalls, hc, hs]
      refine hawait.control (step_effect _ _ step) ?_ ?_
      · rw [hbefore, hnext, hcalls, List.length_append]
        exact Nat.le_add_right _ _
      · intro call hcreated
        have hstage := hawait.stage
        rcases created_step hcreated with hold | ⟨hidle, hcall⟩
        · rw [hold] at hstage
          cases hstage with
          | created _ hn hf hb hr => exact hn
        · rw [hidle] at hstage
          cases hstage with
          | idle hf hb hres =>
            have hcount : (issuedCalls control before).length = served.length := by
              rw [← hbefore, progress, hidle, outstanding, Nat.add_zero]
              simpa [results] using congrArg List.length hres
            have hissued := hr.issued
            rw [he, issuedCalls, List.filterMap_append] at hissued
            rw [← issuedCalls, ← issuedCalls, hcalls, hcall, List.append_assoc] at hissued
            exact next_of_issued ho hcount hissued

/-- A run that resolves every call resolves each with the result of its outcome, and
leaves the runner with all of them served. -/
theorem awaited_run (hm : Hosts m plane shared control) (hw : Serves m plane shared control W)
    {start : σ} {outcomes : List Outcome} {inputs : List ι} (hp : progress (plane start) = 0)
    (ha : Awaits [] outcomes none (plane start) (shared start).mailbox)
    (h0 : W [] outcomes none start)
    (hr : Resolves outcomes (issuedCalls control inputs) (plane (m.run start inputs))) :
    results (plane (m.run start inputs)) = outcomes.map Outcome.result ∧
      W outcomes [] none (m.run start inputs) := by
  obtain ⟨served, left, busy, ho, hawait, hwork⟩ :=
    run_awaits hm hw hp ha h0 hr inputs [] (List.append_nil _).symm
  have hdone : progress (plane (m.run start inputs)) = (issuedCalls control inputs).length := by
    refine @resolves_progress _ _ _ _ _ _ _ _ hm start hp outcomes inputs [] ?_
    rw [List.append_nil]
    exact hr
  have hlen := congrArg List.length hr.issued
  rw [List.length_map] at hlen
  have hresolved := hr.resolved
  generalize m.run start inputs = s at hawait hwork hdone hresolved ⊢
  have hstage := hawait.stage
  have hfuture : (plane s).future = .idle := by
    cases hx : (plane s).future with
    | idle => rfl
    | _ =>
      simp only [progress, hx, outstanding] at hdone
      omega
  rw [hfuture] at hstage
  cases hstage with
  | idle hf hb hres =>
    have hcount : served.length = outcomes.length := by
      rw [← hresolved]
      simpa [results] using (congrArg List.length hres).symm
    have hnil : left = [] := by
      have hsum := congrArg List.length ho
      rw [List.length_append] at hsum
      exact List.eq_nil_of_length_eq_zero (by omega)
    rw [hnil, List.append_nil] at ho
    rw [ho] at hres hwork
    rw [hnil, hb] at hwork
    exact ⟨hres, hwork⟩

end Runs

end HisiRfCore.AwaitedCalls
