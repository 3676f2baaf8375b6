import HisiRfCore.IncrementalContract

/-!
# Active and pending command ownership

The arbiter keeps one active command, one start in progress and one pending
replacement. Its next action is a derived view of those three slots and of the
two cancellation flags of the active command.
-/

namespace HisiRfCore.CommandArbitration

open NonZeroCounter StateBorrow IncrementalContract

/-- Non-zero sequence assigned by the async control plane. -/
structure CommandSequence where
  /-- Validated raw sequence. -/
  raw : NonZeroU32
  deriving DecidableEq

namespace CommandSequence

/-- Validate a raw controller sequence. -/
def tryFromRaw (value : UInt32) : Option CommandSequence :=
  if h : value ≠ 0 then some ⟨⟨value, h⟩⟩ else none

/-- Stable numeric representation used by the completion channel. -/
def get (sequence : CommandSequence) : UInt32 := sequence.raw.1

/-- Validation succeeds exactly on the non-zero words, and keeps the word. -/
theorem tryFromRaw_of_ne_zero {value : UInt32} (h : value ≠ 0) :
    ∃ sequence, tryFromRaw value = some sequence ∧ sequence.get = value :=
  ⟨⟨⟨value, h⟩⟩, dif_pos h, rfl⟩

theorem get_ne_zero (sequence : CommandSequence) : sequence.get ≠ 0 := sequence.raw.2

/-- A valid sequence is read back from its word. -/
theorem tryFromRaw_get (sequence : CommandSequence) : tryFromRaw sequence.get = some sequence :=
  dif_pos sequence.get_ne_zero

theorem get_injective : Function.Injective get := by
  rintro ⟨⟨a, ha⟩⟩ ⟨⟨b, hb⟩⟩ h
  cases h
  rfl

@[simp] theorem get_inj {a b : CommandSequence} : a.get = b.get ↔ a = b := get_injective.eq_iff

end CommandSequence

/-- One bounded command waiting to start. -/
structure PendingCommand (C : Type) where
  /-- Controller sequence associated with this command. -/
  sequence : CommandSequence
  /-- Owned command. -/
  command : C
  deriving DecidableEq

/-- Reason a bounded command arbitration transition was rejected. -/
inductive CommandArbiterError
  | busy | invalidTransition | staleOperation
  deriving DecidableEq

/-- Failed submission that returns ownership of the unqueued command. -/
structure SubmitError (C : Type) where
  /-- Stable rejection reason. -/
  reason : CommandArbiterError
  /-- Command that did not enter the bounded queue. -/
  command : PendingCommand C
  deriving DecidableEq

/-- Next control-plane action selected by the arbiter. -/
inductive CommandArbiterAction
  | idle
  | startPending (sequence : CommandSequence)
  | starting (sequence : CommandSequence)
  | cancelActive (operation : OperationId)
  | waitActive (operation : OperationId)
  deriving DecidableEq

/-- Command whose operation the backend accepted. -/
structure ActiveCommand where
  /-- Controller sequence that owns the operation. -/
  sequence : CommandSequence
  /-- Generation-tagged backend identity. -/
  operation : OperationId
  /-- The controller asked for cancellation. -/
  cancelIntent : Bool
  /-- The backend accepted the one cancellation call. -/
  cancelRequested : Bool
  deriving DecidableEq

/-- Effect of a cancellation request on the arbiter. -/
inductive CancelArbiterAction
  | requestActive | removePending | alreadyRequested | notFound
  deriving DecidableEq

/-- Bounded active and pending command ownership. -/
structure CommandArbiter (C : Type) where
  /-- Command owning the backend operation. -/
  active : Option ActiveCommand
  /-- Command whose backend start is in progress. -/
  starting : Option CommandSequence
  /-- The one retained replacement. -/
  pending : Option (PendingCommand C)
  deriving DecidableEq

namespace CommandArbiter

variable {C : Type}

/-- Construct an empty arbiter. -/
def new : CommandArbiter C := ⟨none, none, none⟩

/-- Whether the one-entry pending command slot is available. -/
def canSubmit (arbiter : CommandArbiter C) : Bool := arbiter.pending.isNone

/-- Queue one command without replacing an existing pending command. -/
def submit (command : PendingCommand C) : EStateM (SubmitError C) (CommandArbiter C) Unit :=
  fun arbiter =>
    if arbiter.pending.isSome then .error ⟨.busy, command⟩ arbiter
    else .ok () {arbiter with pending := some command}

/-- Select the next control-plane action. -/
def action (arbiter : CommandArbiter C) : CommandArbiterAction :=
  match arbiter.active with
  | some active =>
    if (arbiter.pending.isSome || active.cancelIntent) && !active.cancelRequested then
      .cancelActive active.operation
    else .waitActive active.operation
  | none =>
    match arbiter.starting with
    | some sequence => .starting sequence
    | none =>
      match arbiter.pending with
      | some pending => .startPending pending.sequence
      | none => .idle

/-- Take the command selected by the start action. -/
def takeStartable : EStateM CommandArbiterError (CommandArbiter C) (PendingCommand C) :=
  fun arbiter =>
    if arbiter.active.isSome || arbiter.starting.isSome then .error .invalidTransition arbiter
    else
      match arbiter.pending with
      | none => .error .invalidTransition arbiter
      | some pending =>
        .ok pending {arbiter with pending := none, starting := some pending.sequence}

/-- Bind a successful backend start to its operation identity. -/
def markStarted (sequence : CommandSequence) (operation : OperationId) :
    EStateM CommandArbiterError (CommandArbiter C) Unit := fun arbiter =>
  if arbiter.starting ≠ some sequence ∨ arbiter.active.isSome then
    .error .invalidTransition arbiter
  else
    .ok () {arbiter with starting := none, active := some ⟨sequence, operation, false, false⟩}

/-- Sequence retained in the one-entry pending queue. -/
def pendingSequence (arbiter : CommandArbiter C) : Option CommandSequence :=
  arbiter.pending.map PendingCommand.sequence

/-- Record cancellation intent on the active command, or drop the pending one. -/
def requestCancel (sequence : CommandSequence) (arbiter : CommandArbiter C) :
    CancelArbiterAction × CommandArbiter C :=
  match arbiter.active with
  | some active =>
    if active.sequence = sequence then
      if active.cancelRequested || active.cancelIntent then (.alreadyRequested, arbiter)
      else (.requestActive, {arbiter with active := some {active with cancelIntent := true}})
    else if arbiter.pendingSequence = some sequence then
      (.removePending, {arbiter with pending := none})
    else (.notFound, arbiter)
  | none =>
    if arbiter.pendingSequence = some sequence then
      (.removePending, {arbiter with pending := none})
    else (.notFound, arbiter)

/-- Clear a failed backend start so another pending command may proceed. -/
def rejectStart (sequence : CommandSequence) :
    EStateM CommandArbiterError (CommandArbiter C) Unit := fun arbiter =>
  if arbiter.starting ≠ some sequence then .error .invalidTransition arbiter
  else .ok () {arbiter with starting := none}

/-- Record that the one cancellation request was sent to the backend. -/
def markCancelRequested (operation : OperationId) :
    EStateM CommandArbiterError (CommandArbiter C) Unit := fun arbiter =>
  match arbiter.active with
  | none => .error .staleOperation arbiter
  | some active =>
    if active.operation ≠ operation then .error .staleOperation arbiter
    else if active.cancelRequested then .error .invalidTransition arbiter
    else .ok () {arbiter with active := some {active with cancelRequested := true}}

/-- Finish exactly the current operation and free the active slot. -/
def finishActive (operation : OperationId) :
    EStateM CommandArbiterError (CommandArbiter C) CommandSequence := fun arbiter =>
  match arbiter.active with
  | none => .error .staleOperation arbiter
  | some active =>
    if active.operation ≠ operation then .error .staleOperation arbiter
    else .ok active.sequence {arbiter with active := none}

/-- Current active command and backend operation identity. -/
def activeOperation (arbiter : CommandArbiter C) : Option (CommandSequence × OperationId) :=
  arbiter.active.map fun active => (active.sequence, active.operation)

/-- Controller sequence of the active command. -/
def activeSequence (arbiter : CommandArbiter C) : Option CommandSequence :=
  arbiter.active.map ActiveCommand.sequence

/-- Both are read off the active command. -/
theorem activeOperation_of_active {arbiter : CommandArbiter C} {active : ActiveCommand}
    (h : arbiter.active = some active) :
    arbiter.activeOperation = some (active.sequence, active.operation) :=
  congrArg (Option.map _) h

theorem activeSequence_of_active {arbiter : CommandArbiter C} {active : ActiveCommand}
    (h : arbiter.active = some active) : arbiter.activeSequence = some active.sequence :=
  congrArg (Option.map _) h

/-- Sequences owned by the arbiter between two driver calls, oldest first. -/
def owned (arbiter : CommandArbiter C) : List CommandSequence :=
  arbiter.activeSequence.toList ++ arbiter.pendingSequence.toList

/-- Submission fills the empty pending slot. -/
theorem submit_of_none {arbiter : CommandArbiter C} (h : arbiter.pending = none)
    (command : PendingCommand C) :
    submit command arbiter = .ok () {arbiter with pending := some command} := by
  simp [submit, h]

/-- A second pending command is handed back and the arbiter is unchanged. -/
theorem submit_of_some {arbiter : CommandArbiter C} {held : PendingCommand C}
    (h : arbiter.pending = some held) (command : PendingCommand C) :
    submit command arbiter = .error ⟨.busy, command⟩ arbiter := by
  simp [submit, h]

/-- With both other slots empty the pending command is handed out. -/
theorem takeStartable_of_pending {arbiter : CommandArbiter C} {held : PendingCommand C}
    (ha : arbiter.active = none) (hs : arbiter.starting = none)
    (hp : arbiter.pending = some held) :
    takeStartable arbiter = .ok held ⟨none, some held.sequence, none⟩ := by
  rcases arbiter with ⟨active, starting, pending⟩
  cases ha
  cases hs
  cases hp
  rfl

/-- A start in progress becomes the active command without cancellation flags. -/
theorem markStarted_of_starting {sequence : CommandSequence} {pending : Option (PendingCommand C)}
    (operation : OperationId) :
    markStarted sequence operation ⟨none, some sequence, pending⟩ =
      .ok () ⟨some ⟨sequence, operation, false, false⟩, none, pending⟩ := by
  simp [markStarted]

/-- A failed start in progress is forgotten. -/
theorem rejectStart_of_starting {sequence : CommandSequence} {active : Option ActiveCommand}
    {pending : Option (PendingCommand C)} :
    rejectStart sequence ⟨active, some sequence, pending⟩ = .ok () ⟨active, none, pending⟩ := by
  simp [rejectStart]

/-- The first delivered cancellation of the active operation is recorded. -/
theorem markCancelRequested_of_active {arbiter : CommandArbiter C} {active : ActiveCommand}
    (ha : arbiter.active = some active) (hr : active.cancelRequested = false) :
    markCancelRequested active.operation arbiter =
      .ok () {arbiter with active := some {active with cancelRequested := true}} := by
  simp [markCancelRequested, ha, hr]

/-- The active operation is released under its own sequence. -/
theorem finishActive_of_active {arbiter : CommandArbiter C} {active : ActiveCommand}
    (ha : arbiter.active = some active) :
    finishActive active.operation arbiter =
      .ok active.sequence {arbiter with active := none} := by
  simp [finishActive, ha]

/-- The effect of a cancellation request, by the slot that owns the sequence. -/
inductive CancelEffect (sequence : CommandSequence) (arbiter : CommandArbiter C) :
    CancelArbiterAction × CommandArbiter C → Prop
  | requestActive (active : ActiveCommand) (ha : arbiter.active = some active)
      (hs : active.sequence = sequence) (hr : active.cancelRequested = false)
      (hi : active.cancelIntent = false) :
      CancelEffect sequence arbiter
        (.requestActive, {arbiter with active := some {active with cancelIntent := true}})
  | alreadyRequested (active : ActiveCommand) (ha : arbiter.active = some active)
      (hs : active.sequence = sequence)
      (hr : active.cancelRequested = true ∨ active.cancelIntent = true) :
      CancelEffect sequence arbiter (.alreadyRequested, arbiter)
  | removePending (hs : arbiter.activeSequence ≠ some sequence)
      (hp : arbiter.pendingSequence = some sequence) :
      CancelEffect sequence arbiter (.removePending, {arbiter with pending := none})
  | notFound (hs : arbiter.activeSequence ≠ some sequence)
      (hp : arbiter.pendingSequence ≠ some sequence) :
      CancelEffect sequence arbiter (.notFound, arbiter)

/-- Every cancellation request has one of the four effects. -/
theorem requestCancel_effect (sequence : CommandSequence) (arbiter : CommandArbiter C) :
    CancelEffect sequence arbiter (requestCancel sequence arbiter) := by
  cases ha : arbiter.active with
  | none =>
    have hs : arbiter.activeSequence ≠ some sequence := by simp [activeSequence, ha]
    by_cases hp : arbiter.pendingSequence = some sequence
    · simpa only [requestCancel, ha, if_pos hp] using CancelEffect.removePending hs hp
    · simpa only [requestCancel, ha, if_neg hp] using CancelEffect.notFound hs hp
  | some active =>
    by_cases hs : active.sequence = sequence
    · cases hr : active.cancelRequested with
      | true =>
        simpa [requestCancel, ha, hs, hr] using
          CancelEffect.alreadyRequested active ha hs (Or.inl hr)
      | false =>
        cases hi : active.cancelIntent with
        | true =>
          simpa [requestCancel, ha, hs, hr, hi] using
            CancelEffect.alreadyRequested active ha hs (Or.inr hi)
        | false =>
          simpa [requestCancel, ha, hs, hr, hi] using
            CancelEffect.requestActive active ha hs hr hi
    · have hn : arbiter.activeSequence ≠ some sequence := by simp [activeSequence, ha, hs]
      by_cases hp : arbiter.pendingSequence = some sequence
      · simpa only [requestCancel, ha, if_neg hs, if_pos hp] using
          CancelEffect.removePending hn hp
      · simpa only [requestCancel, ha, if_neg hs, if_neg hp] using CancelEffect.notFound hn hp

end CommandArbiter

end HisiRfCore.CommandArbitration
