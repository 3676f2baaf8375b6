import Mathlib.Data.List.Basic
import HisiRfCore.DriverCalls

/-!
# Calls made on the backend

A recorder wraps any backend and keeps the calls made on it, with their
results. The contract of the backend trait is a property of that trace: which
call is allowed after which earlier calls. The driver's invariant relates the
trace to the active command, its flags, the generation counter and the wait set.
-/

namespace HisiRfCore.BackendTrace

open NonZeroCounter StateBorrow WifiTypes IncrementalContract CommandArbitration RunnerState
open BackendDriver DriverCoherence DriverCalls InputOutputMachine IncrementalRunnerState
open IncrementalBackendDriver

/-- One call on the backend and its result. -/
inductive BackendCall
  | start (id : OperationId) (request : IncrementalRequest) (result : Except BackendError Unit)
  | poll (id : OperationId) (reason : WakeReason) (result : Except BackendError WorkReport)
  | cancel (id : OperationId) (result : Except BackendError Unit)

/-- A backend together with the calls made on it. -/
structure BackendRecorder (B : Type) where
  /-- The wrapped backend. -/
  inner : B
  /-- Calls made so far, oldest first. -/
  calls : List BackendCall

/-- Append one call. -/
def BackendRecorder.record {B : Type} (recorder : BackendRecorder B) (inner : B)
    (call : BackendCall) : BackendRecorder B :=
  ⟨inner, recorder.calls ++ [call]⟩

instance {B : Type} [IncrementalWifiBackend B] : IncrementalWifiBackend (BackendRecorder B) where
  start recorder id request :=
    let answer := IncrementalWifiBackend.start recorder.inner id request
    (answer.1, recorder.record answer.2 (.start id request answer.1))
  poll recorder id reason budget scanOutput :=
    let answer := IncrementalWifiBackend.poll recorder.inner id reason budget scanOutput
    (answer.1, recorder.record answer.2.1 (.poll id reason answer.1), answer.2.2)
  cancel recorder id :=
    let answer := IncrementalWifiBackend.cancel recorder.inner id
    (answer.1, recorder.record answer.2 (.cancel id answer.1))
  nextDeadlineUs recorder id := IncrementalWifiBackend.nextDeadlineUs recorder.inner id
  l2Capabilities recorder := IncrementalWifiBackend.l2Capabilities recorder.inner

section Recorder

variable {B : Type} [IncrementalWifiBackend B] {recorder backend : BackendRecorder B}
  {id : OperationId}

/-- A start is recorded with its answer. -/
theorem start_calls {request : IncrementalRequest} {result : Except BackendError Unit}
    (h : IncrementalWifiBackend.start recorder id request = (result, backend)) :
    backend.calls = recorder.calls ++ [.start id request result] := by
  obtain ⟨hr, hb⟩ := Prod.mk.inj h
  rw [← hb, ← hr]
  rfl

/-- A cancellation is recorded with its answer. -/
theorem cancel_calls {result : Except BackendError Unit}
    (h : IncrementalWifiBackend.cancel recorder id = (result, backend)) :
    backend.calls = recorder.calls ++ [.cancel id result] := by
  obtain ⟨hr, hb⟩ := Prod.mk.inj h
  rw [← hb, ← hr]
  rfl

/-- A poll is recorded with its answer. -/
theorem poll_calls {n : ℕ} {reason : WakeReason} {budget : WorkBudget}
    {scan output : Vector ScanResult n} {result : Except BackendError WorkReport}
    (h : IncrementalWifiBackend.poll recorder id reason budget scan = (result, backend, output)) :
    backend.calls = recorder.calls ++ [.poll id reason result] := by
  obtain ⟨hr, hp⟩ := Prod.mk.inj h
  obtain ⟨hb, -⟩ := Prod.mk.inj hp
  rw [← hb, ← hr]
  rfl

end Recorder

/-- An operation that ends leaves no live operation behind. -/
def ended (live : Option OperationId) (id : OperationId) : Option OperationId :=
  if live = some id then none else live

/-- Live operation after one more call: an accepted start begins it; a final
report carrying its identity, a poll error or a cancel error ends it. -/
def liveAfter (live : Option OperationId) : BackendCall → Option OperationId
  | .start id _ (.ok ()) => some id
  | .start _ _ (.error _) => live
  | .poll _ _ (.ok report) =>
    match report.disposition with
    | .complete _ | .cancelled => ended live report.operation
    | .pending _ | .budgetExhausted _ => live
  | .poll id _ (.error _) => ended live id
  | .cancel _ (.ok ()) => live
  | .cancel id (.error _) => ended live id

/-- Live operation of a trace. -/
def live (trace : List BackendCall) : Option OperationId := trace.foldl liveAfter none

/-- Identities a trace passed to `start`. -/
def startIds (trace : List BackendCall) : List OperationId :=
  trace.filterMap fun
    | .start id _ _ => some id
    | _ => none

/-- Identities a trace passed to `cancel`. -/
def cancelIds (trace : List BackendCall) : List OperationId :=
  trace.filterMap fun
    | .cancel id _ => some id
    | _ => none

/-- The trait contract: the calls allowed after a trace. -/
def Allowed (before : List BackendCall) : BackendCall → Prop
  | .start id _ _ => live before = none ∧ id ∉ startIds before
  | .poll id _ _ => live before = some id
  | .cancel id _ => live before = some id ∧ id ∉ cancelIds before

/-- Every call of the trace was allowed when it was made. -/
def ObeysContract (trace : List BackendCall) : Prop :=
  ∀ before call after, trace = before ++ call :: after → Allowed before call

/-- Operation owed an immediate call: the last call was its accepted start or cancellation. -/
def owed (trace : List BackendCall) : Option OperationId :=
  match trace.getLast? with
  | some (.start id _ (.ok ())) | some (.cancel id (.ok ())) => some id
  | _ => none

/-- A call that advances or cancels one operation. -/
def CallsOn (id : OperationId) : BackendCall → Prop
  | .poll x _ _ | .cancel x _ => x = id
  | .start _ _ _ => False

section Traces

variable (trace : List BackendCall) (call : BackendCall)

@[simp] theorem live_concat : live (trace ++ [call]) = liveAfter (live trace) call := by
  rw [live, List.foldl_append]
  rfl

@[simp] theorem startIds_concat :
    startIds (trace ++ [call]) = startIds trace ++ startIds [call] := List.filterMap_append

@[simp] theorem cancelIds_concat :
    cancelIds (trace ++ [call]) = cancelIds trace ++ cancelIds [call] := List.filterMap_append

variable {trace call}

/-- The contract is checked one call at a time. -/
theorem ObeysContract.concat (h : ObeysContract trace) (ha : Allowed trace call) :
    ObeysContract (trace ++ [call]) := by
  intro before c after he
  rcases List.eq_nil_or_concat after with hnil | ⟨rest, last, hrest⟩
  · subst hnil
    obtain ⟨hb, hc⟩ := List.append_inj' he rfl
    cases hc
    rw [← hb]
    exact ha
  · subst hrest
    rw [List.concat_eq_append, ← List.cons_append, ← List.append_assoc] at he
    obtain ⟨hb, -⟩ := List.append_inj' he rfl
    exact h before c rest hb

end Traces

/-- Agreement of the recorded trace with the driver: the active slot, the
generation counter and the wait set. -/
structure Recorded (trace : List BackendCall) (active : Option ActiveCommand)
    (generation : UInt32) (waitFor : WaitSet) : Prop where
  /-- Every recorded call was allowed. -/
  obeys : ObeysContract trace
  /-- The live operation is the active command's. -/
  liveActive : live trace = active.map ActiveCommand.operation
  /-- The counter is the number of starts. -/
  counted : generation.toNat = (startIds trace).length
  /-- No started identity is newer than the counter. -/
  bounded : ∀ id ∈ startIds trace, id.generation.1.toNat ≤ generation.toNat
  /-- Only started identities were cancelled. -/
  cancelStarted : ∀ id ∈ cancelIds trace, id ∈ startIds trace
  /-- The active operation was started. -/
  activeStarted : ∀ a, active = some a → a.operation ∈ startIds trace
  /-- The cancellation flag says whether the backend saw a cancellation call. -/
  cancelled : ∀ a, active = some a → (a.operation ∈ cancelIds trace ↔ a.cancelRequested = true)
  /-- An operation owed a call has an empty wait set. -/
  prompt : ∀ id, owed trace = some id → waitFor = .empty

/-- Nothing is recorded before the first call. -/
theorem recorded_nil : Recorded [] none 0 .empty where
  obeys := by
    intro before call after h
    simp at h
  liveActive := rfl
  counted := rfl
  bounded := by simp [startIds]
  cancelStarted := by simp [cancelIds]
  activeStarted := by simp
  cancelled := by simp
  prompt := fun _ _ => rfl

section Recorded

variable {trace : List BackendCall} {a : ActiveCommand} {generation : UInt32} {waitFor : WaitSet}

/-- The next identity was never started before. -/
theorem Recorded.fresh {active : Option ActiveCommand}
    (h : Recorded trace active generation waitFor) (hg : generation.toNat + 1 < 2 ^ 32)
    {id : OperationId} (hi : id.generation.1 = advance generation) : id ∉ startIds trace := by
  intro hm
  have hb := h.bounded id hm
  rw [hi, advance_toNat hg] at hb
  omega

/-- The operation owed a call is the active one. -/
theorem Recorded.owed_active {active : Option ActiveCommand}
    (h : Recorded trace active generation waitFor) {id : OperationId}
    (ho : owed trace = some id) : ∃ b, active = some b ∧ b.operation = id := by
  have hl : live trace = some id := by
    rcases List.eq_nil_or_concat trace with hnil | ⟨rest, last, hrest⟩
    · simp [hnil, owed] at ho
    · rw [List.concat_eq_append] at hrest
      subst hrest
      rw [live_concat]
      cases last with
      | start x request result =>
        cases result with
        | error error => simp [owed] at ho
        | ok value =>
          have hx : x = id := by simpa [owed] using ho
          rw [hx]
          rfl
      | poll x reason result => simp [owed] at ho
      | cancel x result =>
        cases result with
        | error error => simp [owed] at ho
        | ok value =>
          have hx : x = id := by simpa [owed] using ho
          have ha : live rest = some x := (h.obeys rest _ [] rfl).1
          rw [ha, hx]
          rfl
  rw [h.liveActive] at hl
  simpa using hl

/-- A start with the next identity is allowed while nothing is live, and counted. -/
theorem Recorded.start (h : Recorded trace none generation waitFor)
    (hg : generation.toNat + 1 < 2 ^ 32) (id : OperationId)
    (hi : id.generation.1 = advance generation) (request : IncrementalRequest)
    (result : Except BackendError Unit) (sequence : CommandSequence) :
    Recorded (trace ++ [.start id request result])
      (match result with
        | .ok () => some ⟨sequence, id, false, false⟩
        | .error _ => none)
      (advance generation) .empty := by
  have hfresh := h.fresh hg hi
  have hnc : id ∉ cancelIds trace := fun hm => hfresh (h.cancelStarted id hm)
  have hstart : startIds (trace ++ [.start id request result]) = startIds trace ++ [id] :=
    startIds_concat _ _
  have hcancel : cancelIds (trace ++ [.start id request result]) = cancelIds trace := by
    rw [cancelIds_concat]
    exact List.append_nil _
  constructor
  · exact h.obeys.concat ⟨h.liveActive, hfresh⟩
  · rw [live_concat, h.liveActive]
    cases result <;> rfl
  · rw [hstart, List.length_append, advance_toNat hg, h.counted]
    rfl
  · intro x hx
    rw [hstart, List.mem_append, List.mem_singleton] at hx
    rcases hx with hx | hx
    · have hb := h.bounded x hx
      rw [advance_toNat hg]
      omega
    · rw [hx, hi]
  · intro x hx
    rw [hcancel] at hx
    rw [hstart]
    exact List.mem_append_left _ (h.cancelStarted x hx)
  · intro b hb
    rw [hstart]
    cases result with
    | error error => cases hb
    | ok value =>
      cases hb
      simp
  · intro b hb
    rw [hcancel]
    cases result with
    | error error => cases hb
    | ok value =>
      cases hb
      simpa using hnc
  · exact fun _ _ => rfl

/-- The one cancellation of the active operation is allowed. -/
theorem Recorded.cancel (h : Recorded trace (some a) generation waitFor)
    (hr : a.cancelRequested = false) (result : Except BackendError Unit) :
    Recorded (trace ++ [.cancel a.operation result])
      (match result with
        | .ok () => some {a with cancelRequested := true}
        | .error _ => none)
      generation .empty := by
  have hn : a.operation ∉ cancelIds trace := by
    intro hm
    have ht := (h.cancelled a rfl).mp hm
    rw [hr] at ht
    cases ht
  have hstart : startIds (trace ++ [.cancel a.operation result]) = startIds trace := by
    rw [startIds_concat]
    exact List.append_nil _
  have hcancel : cancelIds (trace ++ [.cancel a.operation result]) =
      cancelIds trace ++ [a.operation] := cancelIds_concat _ _
  have hl : live trace = some a.operation := h.liveActive
  constructor
  · exact h.obeys.concat ⟨hl, hn⟩
  · rw [live_concat, hl]
    cases result with
    | ok value => rfl
    | error error => exact if_pos rfl
  · rw [hstart, h.counted]
  · rw [hstart]
    exact h.bounded
  · intro x hx
    rw [hcancel, List.mem_append, List.mem_singleton] at hx
    rw [hstart]
    rcases hx with hx | hx
    · exact h.cancelStarted x hx
    · rw [hx]
      exact h.activeStarted a rfl
  · intro b hb
    rw [hstart]
    cases result with
    | error error => cases hb
    | ok value =>
      cases hb
      exact h.activeStarted a rfl
  · intro b hb
    rw [hcancel]
    cases result with
    | error error => cases hb
    | ok value =>
      cases hb
      simp
  · exact fun _ _ => rfl

/-- A poll of the active operation is allowed; it stays live exactly when the
live operation after the call says so. -/
theorem Recorded.poll (h : Recorded trace (some a) generation waitFor) (reason : WakeReason)
    (result : Except BackendError WorkReport) (active : Option ActiveCommand)
    (next : WaitSet) (hkeep : active = some a ∨ active = none)
    (hlive : liveAfter (some a.operation) (.poll a.operation reason result) =
      active.map ActiveCommand.operation) :
    Recorded (trace ++ [.poll a.operation reason result]) active generation next := by
  have hl : live trace = some a.operation := h.liveActive
  have hstart : startIds (trace ++ [.poll a.operation reason result]) = startIds trace := by
    rw [startIds_concat]
    exact List.append_nil _
  have hcancel : cancelIds (trace ++ [.poll a.operation reason result]) = cancelIds trace := by
    rw [cancelIds_concat]
    exact List.append_nil _
  have hsame : ∀ b, active = some b → b = a := by
    intro b hb
    rcases hkeep with hk | hk
    · exact Option.some.inj (hb.symm.trans hk)
    · rw [hk] at hb
      cases hb
  constructor
  · exact h.obeys.concat hl
  · rw [live_concat, hl, hlive]
  · rw [hstart, h.counted]
  · rw [hstart]
    exact h.bounded
  · rw [hstart, hcancel]
    exact h.cancelStarted
  · intro b hb
    rw [hstart, hsame b hb]
    exact h.activeStarted a rfl
  · intro b hb
    rw [hcancel, hsame b hb]
    exact h.cancelled a rfl
  · intro id ho
    simp [owed] at ho

/-- Without a backend call only the intent flag and a wait set that owes nothing may change. -/
theorem Recorded.quiet {active next : Option ActiveCommand} {wait : WaitSet}
    (h : Recorded trace active generation waitFor)
    (hop : next.map (fun b => (b.operation, b.cancelRequested)) =
      active.map fun b => (b.operation, b.cancelRequested))
    (hw : ∀ id, owed trace = some id → waitFor = .empty → wait = .empty) :
    Recorded trace next generation wait := by
  have hex : ∀ b, next = some b → ∃ c, active = some c ∧ c.operation = b.operation ∧
      c.cancelRequested = b.cancelRequested := by
    intro b hb
    cases active with
    | none => simp [hb] at hop
    | some c =>
      simp only [hb, Option.map_some, Option.some.injEq, Prod.mk.injEq] at hop
      exact ⟨c, rfl, hop.1.symm, hop.2.symm⟩
  refine ⟨h.obeys, ?_, h.counted, h.bounded, h.cancelStarted, ?_, ?_, ?_⟩
  · rw [h.liveActive]
    have hm := congrArg (Option.map Prod.fst) hop
    simpa [Option.map_map, Function.comp_def] using hm.symm
  · intro b hb
    obtain ⟨c, hc, ho, -⟩ := hex b hb
    rw [← ho]
    exact h.activeStarted c hc
  · intro b hb
    obtain ⟨c, hc, ho, hr⟩ := hex b hb
    rw [← ho, ← hr]
    exact h.cancelled c hc
  · exact fun id ho => hw id ho (h.prompt id ho)

end Recorded

end HisiRfCore.BackendTrace
