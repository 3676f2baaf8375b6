import HisiRfCore.BlockingOutcomes
import HisiRfCore.IncrementalOutcomes

/-!
# The two runners agree

With backends that have the same outcomes for the same awaited calls, the blocking and
the incremental runner are the same service to the application, however either of them
is scheduled. Every list of outcomes is that of some backend of either kind.
-/

namespace HisiRfCore.RunnerAgreement

open BoundedChannel WifiTypes RadioStorage AsyncControl BlockingRunner BlockingAbandonment
open IncrementalContract DriverCalls IncrementalFacade IncrementalInterleaving IncrementalService
open AwaitedCalls

variable {B I E F : Type} {eventCapacity : ℕ}

section Runs

variable [WifiBackend B] [IncrementalWifiBackend I] {interrupt : E → B → B} {interfere : F → I → I}
  {backend : B} {incremental : I} {budget : WorkBudget} {config : WifiConfig}
  {hpos : 0 < eventCapacity} {outcomes : List Outcome}

/-- Awaited calls with the same outcomes give the same results, the same events in the
same order and the same identity with either runner, under any two schedules that
resolve every call. -/
theorem runners_agree (hb : BlockingOutcomes.Plays interrupt config outcomes backend)
    (hi : IncrementalOutcomes.Plays interfere config budget outcomes incremental)
    (steps : List (BlockingInput E)) (inputs : List (IncrementalInput F))
    (hs : Resolves outcomes (issuedCalls BlockingOutcomes.controlStep steps)
      (blockingRun interrupt backend config hpos steps).plane)
    (hr : Resolves outcomes (issuedCalls IncrementalOutcomes.controlStep inputs)
      (incrementalRun interfere incremental budget config hpos inputs).plane) :
    (blockingRun interrupt backend config hpos steps).plane.resolved.map Resolution.result =
      (incrementalRun interfere incremental budget config hpos inputs).plane.resolved.map
        Resolution.result ∧
    (blockingRun interrupt backend config hpos steps).frame.shared.events.sent =
      (incrementalRun interfere incremental budget config hpos inputs).frame.shared.events.sent ∧
    (blockingRun interrupt backend config hpos steps).frame.shared.l2Capabilities =
      (incrementalRun interfere incremental budget config hpos inputs).frame.shared.l2Capabilities := by
  obtain ⟨hblocking, hfirst⟩ := BlockingOutcomes.run_outcomes hb hs
  obtain ⟨hincremental, hsecond⟩ := IncrementalOutcomes.run_outcomes hi hr
  have hresults : ∀ plane : ControlPlane,
      results plane = (plane.resolved.map Resolution.result).map some := by
    intro plane
    rw [List.map_map]
    rfl
  refine ⟨?_, hfirst.events.trans hsecond.events.symm,
    hfirst.identity.trans hsecond.identity.symm⟩
  have hsame := hblocking.trans hincremental.symm
  rw [hresults, hresults] at hsame
  exact List.map_injective_iff.mpr (Option.some_injective _) hsame

end Runs

/-- A backend of either kind that carries out a plan. Its incremental operations stay
pending for a fixed number of polls, and fail at their start or at their last poll. -/
structure PlannedBackend where
  /-- Outcomes of the next operations. -/
  plan : List Outcome
  /-- Polls that an operation stays pending for. -/
  delay : ℕ
  /-- Failing operations are rejected at their start. -/
  rejects : Bool
  /-- Polls left before the running operation ends. -/
  remaining : ℕ
  /-- Identity after the last operation. -/
  identity : Option WifiL2Capabilities

namespace PlannedBackend

/-- Backend after its next operation ended. -/
def advance (backend : PlannedBackend) : PlannedBackend :=
  {backend with
    plan := backend.plan.tail, identity := backend.plan.head?.bind Outcome.capabilities}

/-- Completion of the next operation. -/
def completion (backend : PlannedBackend) : CompletionKind :=
  (backend.plan.head?.map Outcome.completion).getD .protocol

/-- Write the planned scan results into a buffer of any size. -/
def fill {n : ℕ} (backend : PlannedBackend) (output : Vector ScanResult n) :
    Vector ScanResult n :=
  match backend.plan with
  | o :: _ => Vector.ofFn fun i => o.buffer.toList.getD i.val output[i]
  | [] => output

end PlannedBackend

instance : WifiBackend PlannedBackend where
  initialise backend _ :=
    (match backend.completion with
      | .initialise result => result
      | _ => .error cancelledError, backend.advance)
  scan backend _ output :=
    (match backend.completion with
      | .scan result => result
      | _ => .error cancelledError, backend.advance, backend.fill output)
  connect backend _ :=
    (match backend.completion with
      | .connect result => result
      | _ => .error cancelledError, backend.advance)
  disconnect backend _ :=
    (match backend.completion with
      | .disconnect result => result
      | _ => .error cancelledError, backend.advance)
  l2Capabilities backend := backend.identity

/-- Report of an operation. -/
def PlannedBackend.report (id : OperationId) (disposition : PollDisposition) : WorkReport :=
  ⟨id, 0, 0, false, true, disposition⟩

instance : IncrementalWifiBackend PlannedBackend where
  start backend _ _ :=
    match backend.plan.head?.map Outcome.answer with
    | some (.error error) =>
      if backend.rejects then (.error error, backend.advance)
      else (.ok (), {backend with remaining := backend.delay})
    | _ => (.ok (), {backend with remaining := backend.delay})
  poll backend id _ _ output :=
    match backend.remaining, backend.plan.head?.map Outcome.answer with
    | 0, some answer =>
      (answer.map fun completion => PlannedBackend.report id (.complete completion),
        backend.advance, backend.fill output)
    | remaining, _ =>
      (.ok (PlannedBackend.report id (.pending .backend)),
        {backend with remaining := remaining - 1}, output)
  cancel backend _ := (.ok (), backend)
  nextDeadlineUs _ _ := none
  l2Capabilities backend := backend.identity

section Plans

variable {backend : PlannedBackend} {o : Outcome} {rest : List Outcome}

/-- The runner's own buffer is filled with the planned one. -/
theorem fill_plan (h : backend.plan = o :: rest) (output : ScanBuffer) :
    backend.fill output = o.buffer := by
  unfold PlannedBackend.fill
  rw [h]
  ext i hi
  simp

/-- The completion of an outcome is of its call's kind. -/
theorem completion_tag (o : Outcome) :
    o.completion.tag = some (.fromCommand o.call.command) := by
  unfold Outcome.completion
  cases ha : o.answer with
  | ok completion =>
    rw [← o.own completion ha]
    cases completion <;> rfl
  | error error => exact failed_tag error _

/-- Only a scan leaves entries in the buffer. -/
theorem leaves_of_kind (h : CommandKindTag.fromCommand o.call.command ≠ .scan)
    (buffer : ScanBuffer) : o.Leaves buffer :=
  fun _ hx => (h (o.own _ hx).symm).elim

/-- The next operation uses up its outcome. -/
theorem advance_plan (h : backend.plan = o :: rest) :
    backend.advance.plan = rest ∧ backend.advance.identity = o.capabilities := by
  rw [PlannedBackend.advance, h]
  exact ⟨rfl, rfl⟩

/-- A planned blocking backend returns its plan. -/
theorem plan_returned (config : WifiConfig) :
    BlockingOutcomes.Answers (fun (_ : E) (backend : PlannedBackend) => backend) config
      fun left backend => backend.plan = left := by
  constructor
  · exact fun _ h => h
  · exact fun h => ⟨rfl, h⟩
  · intro o rest backend buffer h
    have hcompletion : backend.completion = o.completion := by
      rw [PlannedBackend.completion, h]
      rfl
    obtain ⟨hplan, hidentity⟩ := advance_plan h
    have htag := completion_tag o
    have hleaves := @leaves_of_kind o
    cases hk : o.call.command with
    | initialise =>
      rw [hk] at htag hleaves
      refine ⟨?_, hplan, hleaves (by decide) _, fun _ => hidentity⟩
      simp only [BlockingOutcomes.operate, WifiBackend.initialise, hcompletion]
      cases hc : o.completion <;> rw [hc] at htag <;> cases htag
    | scan scan =>
      rw [hk] at htag
      refine ⟨?_, hplan, ?_, fun _ => hidentity⟩
      · simp only [BlockingOutcomes.operate, WifiBackend.scan, hcompletion]
        cases hc : o.completion <;> rw [hc] at htag <;> cases htag
      · intro outcome hx
        simp only [BlockingOutcomes.operate, WifiBackend.scan, fill_plan h]
    | connect station =>
      rw [hk] at htag hleaves
      refine ⟨?_, hplan, hleaves (fun hx => by cases hx) _, fun _ => hidentity⟩
      simp only [BlockingOutcomes.operate, WifiBackend.connect, hcompletion]
      cases hc : o.completion <;> rw [hc] at htag <;> cases htag
    | disconnect =>
      rw [hk] at htag hleaves
      refine ⟨?_, hplan, hleaves (by decide) _, fun _ => hidentity⟩
      simp only [BlockingOutcomes.operate, WifiBackend.disconnect, hcompletion]
      cases hc : o.completion <;> rw [hc] at htag <;> cases htag

/-- Activity of a planned incremental backend. -/
def PlannedBackend.Doing : IncrementalOutcomes.Activity → PlannedBackend → Prop
  | .waiting left, backend => backend.plan = left
  | .running _ o rest, backend => backend.plan = o :: rest
  | .finished o rest, backend => backend.plan = rest ∧ backend.identity = o.capabilities

/-- A planned incremental backend reaches its plan. -/
theorem plan_reached (config : WifiConfig) (budget : WorkBudget) :
    IncrementalOutcomes.Answers (fun (_ : E) (backend : PlannedBackend) => backend) config budget
      PlannedBackend.Doing := by
  constructor
  · exact fun _ h => h
  · intro o rest backend id h
    have hplan : backend.plan = o :: rest := h
    have hanswer : backend.plan.head?.map Outcome.answer = some o.answer := by
      rw [hplan]
      rfl
    simp only [IncrementalWifiBackend.start, hanswer]
    cases ha : o.answer with
    | ok completion => exact hplan
    | error error =>
      cases backend.rejects with
      | true => exact ⟨rfl, advance_plan hplan⟩
      | false => exact hplan
  · intro id o rest backend reason buffer h
    have hplan : backend.plan = o :: rest := h
    have hanswer : backend.plan.head?.map Outcome.answer = some o.answer := by
      rw [hplan]
      rfl
    simp only [IncrementalWifiBackend.poll, hanswer]
    cases hr : backend.remaining with
    | succ remaining => exact ⟨rfl, hplan⟩
    | zero =>
      cases ha : o.answer with
      | error error => exact ⟨rfl, advance_plan hplan⟩
      | ok completion =>
        refine ⟨rfl, ha, ?_, advance_plan hplan⟩
        intro outcome hx
        rw [fill_plan hplan]
  · exact fun h _ => h.2
  · exact fun h => h.1

end Plans

/-- An initialization, a truncated scan and a failing disconnection. -/
def plannedOutcomes : List Outcome :=
  [⟨.initialise, .ok .initialized, (fun _ h => by cases h; rfl), Vector.replicate _ .empty,
      WifiL2Capabilities.tryNew (Vector.replicate _ 2)⟩,
    ⟨.scan shortScan [.empty], .ok (.scan ⟨2, false⟩), (fun _ h => by cases h; rfl),
      Vector.replicate _ {ScanResult.empty with channel := 6}, none⟩,
    ⟨.disconnect, .error (.new .busy 7), (fun _ h => by cases h), Vector.replicate _ .empty, none⟩]

/-- One awaited call, with the steps of the runner that serve it. -/
def awaitedCall {ι : Type} (control : ControlStep → ι) (work : List ι) (o : Outcome) : List ι :=
  [control (.call o.call), control .allocate, control .send] ++ work ++
    [control .observe, control .finish]

/-- The planned calls with the blocking runner. -/
def plannedSteps : List (BlockingInput Unit) :=
  plannedOutcomes.flatMap (awaitedCall .control (List.replicate 5 (.runner .runOnce)))

/-- The planned calls with the incremental runner, whose operations stay pending once. -/
def plannedInputs : List (IncrementalInput Unit) :=
  plannedOutcomes.flatMap (awaitedCall .control (List.replicate 13 (.runner .backend)))

/-- A backend with that plan. -/
def plannedBackend : PlannedBackend := ⟨plannedOutcomes, 1, true, 0, none⟩

/-- An executor that leaves the backend alone between steps. -/
def quiet (_ : Unit) (backend : PlannedBackend) : PlannedBackend := backend

/-- Blocking run of the plan. -/
def plannedBlocking : BlockingSystem PlannedBackend 1 :=
  blockingRun quiet plannedBackend .default Nat.one_pos plannedSteps

/-- Incremental run of the plan. -/
def plannedIncremental : IncrementalSystem PlannedBackend 1 :=
  incrementalRun quiet plannedBackend smallestBudget .default Nat.one_pos plannedInputs

/-- Both runs agree, and publish the planned events. -/
theorem runners_agree_planned :
    plannedBlocking.plane.resolved.map Resolution.result =
      plannedIncremental.plane.resolved.map Resolution.result ∧
    plannedBlocking.frame.shared.events.sent = plannedIncremental.frame.shared.events.sent ∧
    plannedBlocking.frame.shared.l2Capabilities =
      plannedIncremental.frame.shared.l2Capabilities ∧
    plannedIncremental.frame.shared.events.sent =
      [.initialized, .scanCompleted 2 false, .failed (.new .busy 7)] := by
  have hb : BlockingOutcomes.Plays quiet .default plannedOutcomes plannedBackend :=
    ⟨_, plan_returned .default, rfl⟩
  have hi : IncrementalOutcomes.Plays quiet .default smallestBudget plannedOutcomes
      plannedBackend := ⟨_, plan_reached .default _, rfl⟩
  have hs : Resolves plannedOutcomes (issuedCalls BlockingOutcomes.controlStep plannedSteps)
      plannedBlocking.plane := ⟨by decide +kernel, by decide +kernel⟩
  have hr : Resolves plannedOutcomes (issuedCalls IncrementalOutcomes.controlStep plannedInputs)
      plannedIncremental.plane := ⟨by decide +kernel, by decide +kernel⟩
  have hevents : plannedIncremental.frame.shared.events.sent =
      [.initialized, .scanCompleted 2 false, .failed (.new .busy 7)] := by decide +kernel
  obtain ⟨hresults, hsent, hidentity⟩ :=
    runners_agree hb hi plannedSteps plannedInputs hs hr
  refine ⟨?_, ?_, ?_, hevents⟩
  all_goals rw [plannedBlocking, plannedIncremental]
  · exact hresults
  · exact hsent
  · exact hidentity

end HisiRfCore.RunnerAgreement
