import HisiRfCore.NonZeroCounter
import HisiRfCore.RadioStorage

/-!
# Async control plane

The controller owns at most one control future. Each step here is one atomic
operation of that future: a sequence allocation, one channel operation, the
copy of a finished scan, or its drop. A future waiting for its completion holds
an armed guard, whose drop queues a cancellation. Histories of allocations,
resolutions and armed drops are kept beside the state; no operation reads them.
-/

namespace HisiRfCore.AsyncControl

open NonZeroCounter BoundedChannel WifiTypes RadioStorage

/-- One async call of the controller. -/
inductive ControlCall
  | initialise
  | scan (config : ScanConfig) (output : List ScanResult)
  | connect (config : StationConfig)
  | disconnect
  deriving DecidableEq

/-- Command sent by a call. -/
def ControlCall.command : ControlCall → CommandKind
  | .initialise => .initialise
  | .scan config _ => .scan config
  | .connect config => .connect config
  | .disconnect => .disconnect

/-- Result a call resolves with; a scan also returns the caller's buffer. -/
inductive ControlResult
  | initialise (result : Except Error Unit)
  | scan (result : Except Error ScanOutcome) (output : List ScanResult)
  | connect (result : Except Error ConnectionInfo)
  | disconnect (result : Except Error Unit)
  deriving DecidableEq

/-- Result of a call from the completion it took and the runner's scan buffer.
A reported count past the end of that buffer panics in the copy. -/
def ControlCall.resolve (call : ControlCall) (kind : CompletionKind) (buffer : ScanBuffer) :
    Option ControlResult :=
  match call, kind with
  | .initialise, .initialise result => some (.initialise (result.mapError .backend))
  | .initialise, _ => some (.initialise (.error .protocol))
  | .scan _ output, .scan (.ok backend) =>
    let count := min backend.count output.length
    if count ≤ maxScanResults then
      some (.scan (.ok ⟨count, backend.truncated || backend.count > output.length⟩)
        (buffer.toList.take count ++ output.drop count))
    else none
  | .scan _ output, .scan (.error error) => some (.scan (.error (.backend error)) output)
  | .scan _ output, _ => some (.scan (.error .protocol) output)
  | .connect _, .connect result => some (.connect (result.mapError .backend))
  | .connect _, _ => some (.connect (.error .protocol))
  | .disconnect, .disconnect result => some (.disconnect (result.mapError .backend))
  | .disconnect, _ => some (.disconnect (.error .protocol))

/-- The one outstanding control future. -/
inductive ControlFuture
  | idle
  | created (call : ControlCall)
  | sending (sequence : UInt32) (call : ControlCall)
  | waiting (sequence : UInt32) (call : ControlCall)
  | finishing (sequence : UInt32) (call : ControlCall) (kind : CompletionKind)
  deriving DecidableEq

/-- Command whose sequence is guarded by an armed cancellation. -/
def ControlFuture.armed : ControlFuture → Option Command
  | .waiting sequence call | .finishing sequence call _ => some ⟨sequence, call.command⟩
  | _ => none

/-- Command whose sequence the future allocated. -/
def ControlFuture.requested : ControlFuture → Option Command
  | .sending sequence call | .waiting sequence call | .finishing sequence call _ =>
    some ⟨sequence, call.command⟩
  | _ => none

/-- A resolved call with the completion it took. -/
structure Resolution where
  /-- Sequence of the call. -/
  sequence : UInt32
  /-- The call. -/
  call : ControlCall
  /-- Completion taken for it. -/
  kind : CompletionKind
  /-- Result returned to the application. -/
  result : ControlResult
  deriving DecidableEq

/-- The unique controller, its future and their histories. -/
structure ControlPlane where
  /-- Last sequence allocated. -/
  nextSequence : UInt32
  /-- The outstanding future. -/
  future : ControlFuture
  /-- Number of allocated sequences. -/
  allocated : ℕ
  /-- Resolved calls, oldest first. -/
  resolved : List Resolution
  /-- Sequences of armed guards that were dropped, oldest first. -/
  dropped : List UInt32
  deriving DecidableEq

/-- One atomic step of the control plane. -/
inductive ControlStep
  | call (call : ControlCall)
  | allocate
  | send
  | observe
  | finish
  | drop
  | nextEvent
  deriving DecidableEq

variable {eventCapacity : ℕ}

namespace ControlPlane

/-- A controller with no future. -/
def new : ControlPlane := ⟨0, .idle, 0, [], []⟩

/-- Allocate the next non-zero sequence for a created future. -/
def allocateSequence (call : ControlCall) (plane : ControlPlane) : ControlPlane :=
  {plane with
    nextSequence := advance plane.nextSequence
    future := .sending (advance plane.nextSequence) call
    allocated := plane.allocated + 1}

/-- Offer the command to the channel; the future stays pending while it is full. -/
def sendCommand (sequence : UInt32) (call : ControlCall) (plane : ControlPlane)
    (shared : SharedState eventCapacity) : ControlPlane × SharedState eventCapacity :=
  match shared.commands.trySend ⟨sequence, call.command⟩ with
  | (.ok (), commands) =>
    ({plane with future := .waiting sequence call},
      {shared with commands := commands}.recordCommandAccepted)
  | (.error _, _) => (plane, shared)

/-- Take the latest completion; one of another sequence is discarded. -/
def observeCompletion (sequence : UInt32) (call : ControlCall) (plane : ControlPlane)
    (shared : SharedState eventCapacity) : ControlPlane × SharedState eventCapacity :=
  match shared.completion.tryTake with
  | (some completion, signal) =>
    if completion.sequence = sequence then
      ({plane with future := .finishing sequence call completion.kind},
        {shared with completion := signal})
    else (plane, {shared with completion := signal})
  | (none, _) => (plane, shared)

/-- Drop an armed guard: its sequence is offered to the cancellation channel. -/
def dropGuard (sequence : UInt32) (plane : ControlPlane) (shared : SharedState eventCapacity) :
    ControlPlane × SharedState eventCapacity :=
  ({plane with future := .idle, dropped := plane.dropped ++ [sequence]},
    {shared with cancellations := (shared.cancellations.trySend sequence).2})

/-- Copy the result and disarm the guard; a panic in the copy drops it armed. -/
def finishCall (sequence : UInt32) (call : ControlCall) (kind : CompletionKind)
    (plane : ControlPlane) (shared : SharedState eventCapacity) :
    ControlPlane × SharedState eventCapacity :=
  match call.resolve kind shared.scanResults with
  | some result =>
    ({plane with
      future := .idle, resolved := plane.resolved ++ [⟨sequence, call, kind, result⟩]}, shared)
  | none => plane.dropGuard sequence shared

/-- Take the next event, if there is one. -/
def nextEvent (shared : SharedState eventCapacity) : SharedState eventCapacity :=
  match shared.events.tryReceive with
  | (some _, events) =>
    {shared with
      events := events, consumedEvents := saturatingIncrement shared.consumedEvents}
  | (none, _) => shared

/-- Effect of one step; a step the future is not ready for changes nothing. -/
def step (plane : ControlPlane) (shared : SharedState eventCapacity) :
    ControlStep → ControlPlane × SharedState eventCapacity
  | .call call =>
    match plane.future with
    | .idle => ({plane with future := .created call}, shared)
    | _ => (plane, shared)
  | .allocate =>
    match plane.future with
    | .created call => (plane.allocateSequence call, shared)
    | _ => (plane, shared)
  | .send =>
    match plane.future with
    | .sending sequence call => plane.sendCommand sequence call shared
    | _ => (plane, shared)
  | .observe =>
    match plane.future with
    | .waiting sequence call => plane.observeCompletion sequence call shared
    | _ => (plane, shared)
  | .finish =>
    match plane.future with
    | .finishing sequence call kind => plane.finishCall sequence call kind shared
    | _ => (plane, shared)
  | .drop =>
    match plane.future with
    | .created _ | .sending _ _ => ({plane with future := .idle}, shared)
    | .waiting sequence _ => plane.dropGuard sequence shared
    | .idle | .finishing _ _ _ => (plane, shared)
  | .nextEvent => (plane, nextEvent shared)

end ControlPlane

/-- The effects of a step on the future, the histories and the mailbox. -/
inductive ControlEffect (plane : ControlPlane) (shared : SharedState eventCapacity) :
    ControlPlane × SharedState eventCapacity → Prop
  | quiet (next : SharedState eventCapacity) (hm : next.mailbox = shared.mailbox) :
      ControlEffect plane shared (plane, next)
  | unsent (future : ControlFuture) (hu : plane.future.armed = none)
      (hf : future = .idle ∨ ∃ call, future = .created call) :
      ControlEffect plane shared ({plane with future := future}, shared)
  | allocated (call : ControlCall) (hf : plane.future = .created call) :
      ControlEffect plane shared (plane.allocateSequence call, shared)
  | sent (sequence : UInt32) (call : ControlCall) (hf : plane.future = .sending sequence call)
      (next : SharedState eventCapacity) (commands : Channel Command 1)
      (hq : shared.commands.queued = [])
      (hr : commands.received = shared.commands.received)
      (hs : commands.queued = [⟨sequence, call.command⟩])
      (hm : next.mailbox = {shared.mailbox with commands := commands}) :
      ControlEffect plane shared ({plane with future := .waiting sequence call}, next)
  | discarded (sequence : UInt32) (call : ControlCall)
      (hf : plane.future = .waiting sequence call) (completion : Completion)
      (hv : shared.completion.value = some completion) (hs : completion.sequence ≠ sequence) :
      ControlEffect plane shared (plane, {shared with completion := shared.completion.tryTake.2})
  | taken (sequence : UInt32) (call : ControlCall) (kind : CompletionKind)
      (hf : plane.future = .waiting sequence call)
      (hv : shared.completion.value = some ⟨sequence, kind⟩) :
      ControlEffect plane shared ({plane with future := .finishing sequence call kind},
        {shared with completion := shared.completion.tryTake.2})
  | resolved (sequence : UInt32) (call : ControlCall) (kind : CompletionKind)
      (hf : plane.future = .finishing sequence call kind) (result : ControlResult)
      (hr : call.resolve kind shared.scanResults = some result) :
      ControlEffect plane shared
        ({plane with
          future := .idle
          resolved := plane.resolved ++ [⟨sequence, call, kind, result⟩]}, shared)
  | dropped (command : Command) (hf : plane.future.armed = some command) :
      ControlEffect plane shared (plane.dropGuard command.sequence shared)

/-- Every step has one of the listed effects. -/
theorem step_effect (plane : ControlPlane) (shared : SharedState eventCapacity)
    (step : ControlStep) : ControlEffect plane shared (plane.step shared step) := by
  cases step with
  | call call =>
    cases hf : plane.future with
    | idle =>
      simp only [ControlPlane.step, hf]
      exact .unsent _ (by rw [hf]; rfl) (Or.inr ⟨call, rfl⟩)
    | _ =>
      simp only [ControlPlane.step, hf]
      exact .quiet _ rfl
  | allocate =>
    cases hf : plane.future with
    | created call =>
      simp only [ControlPlane.step, hf]
      exact .allocated call hf
    | _ =>
      simp only [ControlPlane.step, hf]
      exact .quiet _ rfl
  | send =>
    cases hf : plane.future with
    | sending sequence call =>
      simp only [ControlPlane.step, hf, ControlPlane.sendCommand]
      by_cases hq : shared.commands.queued.length < 1
      · obtain ⟨commands, hx, -, hr, hs⟩ :=
          trySend_accepted (⟨sequence, call.command⟩ : Command) hq
        have hnil : shared.commands.queued = [] := List.eq_nil_of_length_eq_zero (by omega)
        rw [hx]
        rw [hnil, List.nil_append] at hs
        exact .sent sequence call hf _ commands hnil hr hs rfl
      · rw [trySend_of_full hq]
        exact .quiet _ rfl
    | _ =>
      simp only [ControlPlane.step, hf]
      exact .quiet _ rfl
  | observe =>
    cases hf : plane.future with
    | waiting sequence call =>
      simp only [ControlPlane.step, hf, ControlPlane.observeCompletion, Signal.tryTake]
      cases hv : shared.completion.value with
      | none => exact .quiet _ rfl
      | some completion =>
        dsimp only
        split
        · next hs =>
          subst hs
          exact .taken _ call completion.kind hf hv
        · next hs => exact .discarded sequence call hf completion hv hs
    | _ =>
      simp only [ControlPlane.step, hf]
      exact .quiet _ rfl
  | finish =>
    cases hf : plane.future with
    | finishing sequence call kind =>
      simp only [ControlPlane.step, hf, ControlPlane.finishCall]
      cases hr : call.resolve kind shared.scanResults with
      | some result => exact .resolved sequence call kind hf result hr
      | none => exact .dropped ⟨sequence, call.command⟩ (by rw [hf]; rfl)
    | _ =>
      simp only [ControlPlane.step, hf]
      exact .quiet _ rfl
  | drop =>
    cases hf : plane.future with
    | created call =>
      simp only [ControlPlane.step, hf]
      exact .unsent _ (by rw [hf]; rfl) (Or.inl rfl)
    | sending sequence call =>
      simp only [ControlPlane.step, hf]
      exact .unsent _ (by rw [hf]; rfl) (Or.inl rfl)
    | waiting sequence call =>
      simp only [ControlPlane.step, hf]
      exact .dropped ⟨sequence, call.command⟩ (by rw [hf]; rfl)
    | _ =>
      simp only [ControlPlane.step, hf]
      exact .quiet _ rfl
  | nextEvent =>
    refine .quiet _ ?_
    unfold ControlPlane.nextEvent
    split <;> rfl

/-- Only a drop step and a panicking copy drop a guard. -/
theorem step_dropped {plane : ControlPlane} {shared : SharedState eventCapacity}
    {step : ControlStep} (h : (plane.step shared step).1.dropped ≠ plane.dropped) :
    step = .drop ∨ ∃ sequence call kind, plane.future = .finishing sequence call kind := by
  cases hf : plane.future with
  | finishing sequence call kind => exact Or.inr ⟨sequence, call, kind, rfl⟩
  | idle => cases step <;> simp [ControlPlane.step, hf] at h
  | created call =>
    cases step <;> simp [ControlPlane.step, ControlPlane.allocateSequence, hf] at h
  | sending sequence call =>
    cases step with
    | send =>
      simp only [ControlPlane.step, hf, ControlPlane.sendCommand] at h
      split at h <;> exact (h rfl).elim
    | _ => simp [ControlPlane.step, hf] at h
  | waiting sequence call =>
    cases step with
    | drop => exact Or.inl rfl
    | observe =>
      simp only [ControlPlane.step, hf, ControlPlane.observeCompletion] at h
      split at h
      · split at h <;> exact (h rfl).elim
      · exact (h rfl).elim
    | _ => simp [ControlPlane.step, hf] at h

/-- A controller step only adds to the queues and takes from the signal. -/
structure Forwards (before after : Mailbox) : Prop where
  /-- Queued commands stay queued. -/
  commands : before.commands.queued <+: after.commands.queued
  /-- No command is received. -/
  commandsReceived : after.commands.received = before.commands.received
  /-- Queued cancellations stay queued. -/
  cancellations : before.cancellations.queued <+: after.cancellations.queued
  /-- No cancellation is received. -/
  cancellationsReceived : after.cancellations.received = before.cancellations.received
  /-- No completion is signalled. -/
  written : after.completion.written = before.completion.written
  /-- The scan buffer is not written. -/
  scanResults : after.scanResults = before.scanResults

/-- Nothing changes. -/
theorem Forwards.rfl (mailbox : Mailbox) : Forwards mailbox mailbox :=
  ⟨List.prefix_refl _, Eq.refl _, List.prefix_refl _, Eq.refl _, Eq.refl _, Eq.refl _⟩

/-- Every controller step is of that kind. -/
theorem control_forwards {plane : ControlPlane} {shared : SharedState eventCapacity}
    {next : ControlPlane × SharedState eventCapacity} (he : ControlEffect plane shared next) :
    Forwards shared.mailbox next.2.mailbox := by
  cases he with
  | quiet shared' hm =>
    rw [hm]
    exact .rfl _
  | sent sequence call hf shared' commands hq hr hs hm =>
    rw [hm]
    refine {Forwards.rfl shared.mailbox with commands := ?_, commandsReceived := hr}
    have hnil : shared.mailbox.commands.queued = [] := hq
    rw [hnil]
    exact List.nil_prefix
  | dropped command hf =>
    refine {Forwards.rfl shared.mailbox with cancellations := ?_, cancellationsReceived := ?_}
    · exact prefix_trySend_queued shared.cancellations command.sequence
    · exact trySend_received _ _
  | unsent future hu hf => exact .rfl _
  | allocated call hf => exact .rfl _
  | discarded sequence call hf completion hv hs => exact {Forwards.rfl shared.mailbox with}
  | taken sequence call kind hf hv => exact {Forwards.rfl shared.mailbox with}
  | resolved sequence call kind hf result hr => exact .rfl _

/-- No step takes an allocation back. -/
theorem allocated_le_step (plane : ControlPlane) (shared : SharedState eventCapacity)
    (step : ControlStep) : plane.allocated ≤ (plane.step shared step).1.allocated := by
  have h := step_effect plane shared step
  generalize plane.step shared step = effect at h
  cases h with
  | allocated call hf => exact Nat.le_succ _
  | _ => exact Nat.le_refl _

end HisiRfCore.AsyncControl
