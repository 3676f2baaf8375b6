import HisiRfCore.DriverCalls
import HisiRfCore.WakeSelection

/-!
# Backends that come to an end

A diligent backend needs a bounded number of polls for an operation; an attentive one waits,
in addition, only for what can come. A drive of an attentive backend never fails, and each
one with all sources ready brings the active command closer to its end.
-/

namespace HisiRfCore.AttentiveBackends

open StateBorrow WifiTypes IncrementalContract CommandArbitration RunnerState BackendDriver
open DriverCoherence DriverCalls WakeSelection InputOutputMachine

variable {B E : Type}

/-- A set that an operation may wait for: empty, or with a source of the backend, and without
COMMAND. -/
def Wakeable (waitFor : WaitSet) : Prop :=
  waitFor.contains .command = false ∧
    (waitFor.isEmpty = true ∨ ∃ reason, waitFor.contains (source reason) = true)

/-- Every source that a backend may wait for is ready. -/
def allReady (ready : WaitSet) : Bool :=
  ready.contains .backend && ready.contains .l2Rx && ready.contains .timer

/-- Set that a report waits for, while the operation stays live. -/
def waitedFor : PollDisposition → Option WaitSet
  | .pending waitFor | .budgetExhausted waitFor => some waitFor
  | .complete _ | .cancelled => none

/-- A backend that needs a bounded number of polls for each operation, whatever happens in
between, and reports the operation that was polled. -/
structure Diligent (B E : Type) [IncrementalWifiBackend B] (interrupt : E → B → B) where
  /-- Polls that the live operation still needs before the one that ends it. -/
  cost : B → ℕ
  /-- Polls that a new operation needs at most before the one that ends it. -/
  bound : ℕ
  /-- A started operation is within the bound. -/
  start : ∀ {backend next : B} {id : OperationId} {request : IncrementalRequest},
    IncrementalWifiBackend.start backend id request = (.ok (), next) → cost next ≤ bound
  /-- A cancellation takes no longer. -/
  cancel : ∀ {backend next : B} {id : OperationId},
    IncrementalWifiBackend.cancel backend id = (.ok (), next) → cost next ≤ cost backend
  /-- Neither does an event of the backend. -/
  interrupted : ∀ (event : E) (backend : B), cost (interrupt event backend) ≤ cost backend
  /-- A poll reports its operation; one that leaves it live has come closer to its end. -/
  poll : ∀ {n : ℕ} {backend next : B} {id : OperationId} {reason : WakeReason}
    {budget : WorkBudget} {scan output : Vector ScanResult n} {report : WorkReport},
    IncrementalWifiBackend.poll backend id reason budget scan = (.ok report, next, output) →
      report.operation = id ∧
        ∀ waitFor, waitedFor report.disposition = some waitFor → cost next < cost backend

/-- A diligent backend that can be woken: an operation never waits for COMMAND, and for CANCEL
only beside a source of the backend. -/
structure Attentive (B E : Type) [IncrementalWifiBackend B] (interrupt : E → B → B) extends
    Diligent B E interrupt where
  /-- A poll that leaves its operation live waits for what can come. -/
  wakeable : ∀ {n : ℕ} {backend next : B} {id : OperationId} {reason : WakeReason}
    {budget : WorkBudget} {scan output : Vector ScanResult n} {report : WorkReport},
    IncrementalWifiBackend.poll backend id reason budget scan = (.ok report, next, output) →
      ∀ waitFor, waitedFor report.disposition = some waitFor → Wakeable waitFor

variable [IncrementalWifiBackend B] {interrupt : E → B → B}

/-- An event that keeps the operation tells what it waits for. -/
theorem keptEvent_waits {active : ActiveCommand} {madeProgress : Bool}
    {disposition : PollDisposition} {event : IncrementalDriverEvent} {waitFor : WaitSet}
    (h : keptEvent active madeProgress disposition = some (event, waitFor)) :
    waitedFor disposition = some waitFor := by
  cases disposition <;> cases h <;> rfl

/-- Commands that a driver owns, and the calls that the active one still needs. -/
structure Load where
  /-- Active command. -/
  active : Option CommandSequence
  /-- Pending command. -/
  pending : Option CommandSequence
  /-- Calls for the active command. -/
  work : ℕ

/-- Calls for the active command: its polls, the one that ends it, and its cancellation. -/
def activeWork (cost : B → ℕ) (driver : IncrementalBackendDriver B) : ℕ :=
  match driver.arbiter.active with
  | none => 0
  | some active => cost driver.backend + 1 + if active.cancelRequested then 0 else 1

/-- The load of a driver. -/
def load (cost : B → ℕ) (driver : IncrementalBackendDriver B) : Load :=
  ⟨driver.arbiter.activeSequence, driver.arbiter.pendingSequence, activeWork cost driver⟩

/-- What a drive does to the load, and the command that it ends. -/
inductive Drives (bound : ℕ) : Load → Option CommandSequence → Load → Prop
  | idle : Drives bound ⟨none, none, 0⟩ none ⟨none, none, 0⟩
  | started {x : CommandSequence} {work : ℕ} (hw : work ≤ bound + 2) :
      Drives bound ⟨none, some x, 0⟩ none ⟨some x, none, work⟩
  | rejected {x : CommandSequence} : Drives bound ⟨none, some x, 0⟩ (some x) ⟨none, none, 0⟩
  | advanced {x : CommandSequence} {pending : Option CommandSequence} {work less : ℕ}
      (hw : less < work) : Drives bound ⟨some x, pending, work⟩ none ⟨some x, pending, less⟩
  | ended {x : CommandSequence} {pending : Option CommandSequence} {work : ℕ} (hw : 0 < work) :
      Drives bound ⟨some x, pending, work⟩ (some x) ⟨none, pending, 0⟩

/-- The active operation is within the bound and waits for what can come. -/
def Fit (d : Attentive B E interrupt) (driver : IncrementalBackendDriver B) : Prop :=
  driver.arbiter.active.isSome →
    d.cost driver.backend ≤ d.bound ∧ Wakeable driver.runner.waitFor

section Drives

variable {d : Attentive B E interrupt} {cost : B → ℕ} {driver : IncrementalBackendDriver B} {n : ℕ}
  {scan : Vector ScanResult n} {ready : WaitSet}

omit [IncrementalWifiBackend B] in
/-- Nothing to wait for is fine. -/
theorem wakeable_empty : Wakeable .empty := ⟨by decide, Or.inl (by decide)⟩

omit [IncrementalWifiBackend B] in
/-- So is a timer in addition. -/
theorem Wakeable.timer {waitFor : WaitSet} (h : Wakeable waitFor) :
    Wakeable (waitFor.union .timer) := by
  have hcommand := contains_union waitFor .timer .command
  have htimer := contains_union waitFor .timer .timer
  rw [show source .command = WaitSet.command from rfl, h.1] at hcommand
  refine ⟨hcommand, Or.inr ⟨.timer, htimer.trans ?_⟩⟩
  rw [show source .timer = WaitSet.timer from rfl]
  exact Bool.or_eq_true_iff.mpr (Or.inr (by decide))

omit [IncrementalWifiBackend B] in
/-- All sources but commands are in a set of all sources. -/
theorem contains_of_allReady (h : allReady ready = true) {reason : WakeReason}
    (hr : reason ≠ .command) : ready.contains (source reason) = true := by
  obtain ⟨hrest, htimer⟩ := Bool.and_eq_true_iff.mp h
  obtain ⟨hbackend, hl2⟩ := Bool.and_eq_true_iff.mp hrest
  cases reason with
  | command => exact (hr rfl).elim
  | backend => exact hbackend
  | l2Rx => exact hl2
  | timer => exact htimer

omit [IncrementalWifiBackend B] in
/-- Without the cancellation source they still are. -/
theorem allReady_without (ready : WaitSet) :
    allReady (ready.without .cancel) = allReady ready := by
  have h : ∀ reason, (ready.without .cancel).contains (source reason) =
      ready.contains (source reason) := by
    intro reason
    have hother : WaitSet.cancel.contains (source reason) = false := by cases reason <;> decide
    rw [contains_without, hother, Bool.not_false, Bool.and_true]
  have hbackend := h .backend
  have hl2 := h .l2Rx
  have htimer := h .timer
  simp only [source] at hbackend hl2 htimer
  rw [allReady, hbackend, hl2, htimer, allReady]

omit [IncrementalWifiBackend B] in
/-- A live operation that waits for sources of the backend is polled or waits; with all of
them ready it is polled. -/
theorem selects_poll {state : IncrementalRunnerState} {id : OperationId} {cancelled : Bool}
    (h : state.tracker.current = some (id, IncrementalRunnerState.liveLifecycle cancelled))
    (hw : Wakeable state.waitFor) :
    (∃ reason, (state.selectStep ready).1 = .pollBackend id reason) ∨
      allReady ready = false ∧ (state.selectStep ready).1 = .waiting state.waitFor := by
  cases he : state.waitFor.isEmpty with
  | true => exact Or.inl ⟨_, selectStep_of_unsubscribed h ready he⟩
  | false =>
    rw [selectStep_of_subscribed h ready he]
    cases hs : (state.selector.select state.waitFor ready).1 with
    | none =>
      refine Or.inr ⟨Bool.eq_false_iff.mpr fun hall => ?_, rfl⟩
      -- The set has a source of the backend, which is ready and would have been selected.
      obtain ⟨reason, hr⟩ := hw.2.resolve_left (by rw [he]; decide)
      refine select_none hs reason ⟨hr, contains_of_allReady hall ?_⟩
      rintro rfl
      rw [show source .command = WaitSet.command from rfl, hw.1] at hr
      cases hr
    | some reason =>
      have hcontains := (select_some hs).1
      cases reason with
      | command =>
        rw [show source .command = WaitSet.command from rfl, hw.1] at hcontains
        cases hcontains
      | backend => exact Or.inl ⟨.backend, rfl⟩
      | l2Rx => exact Or.inl ⟨.l2Rx, rfl⟩
      | timer => exact Or.inl ⟨.timer, rfl⟩

omit [IncrementalWifiBackend B] in
/-- The load of a driver without an active command. -/
theorem load_of_none (ha : driver.arbiter.active = none) :
    load cost driver = ⟨none, driver.arbiter.pendingSequence, 0⟩ := by
  simp only [load, activeWork, CommandArbiter.activeSequence, ha, Option.map_none]

omit [IncrementalWifiBackend B] in
/-- The load of a driver with an active command. -/
theorem load_of_some {active : ActiveCommand} (ha : driver.arbiter.active = some active) :
    load cost driver = ⟨some active.sequence, driver.arbiter.pendingSequence,
      cost driver.backend + 1 + if active.cancelRequested then 0 else 1⟩ := by
  simp only [load, activeWork, CommandArbiter.activeSequence, ha, Option.map_some]

/-- What is subscribed for a poll is still wakeable. -/
theorem timed_wakeable (ready : WaitSet) (id : OperationId) (h : Wakeable driver.runner.waitFor) :
    Wakeable (timed driver id ready).waitFor ∧
      (timed driver id ready).tracker = driver.runner.tracker := by
  unfold timed
  split
  · exact ⟨h.timer, rfl⟩
  · exact ⟨h, rfl⟩

/-- The active operation is polled, or it waits while not all sources are ready. -/
theorem selects_active (ready : WaitSet) (hc : Coherent driver) (hfit : Fit d driver)
    {active : ActiveCommand}
    (ha : driver.arbiter.active = some active) :
    (∃ reason, ((timed driver active.operation ready).selectStep ready).1 =
        .pollBackend active.operation reason) ∨
      allReady ready = false ∧ ((timed driver active.operation ready).selectStep ready).1 =
        .waiting (timed driver active.operation ready).waitFor := by
  have hw := (hfit (by rw [ha]; rfl)).2
  obtain ⟨htimed, htracker⟩ := timed_wakeable ready active.operation hw
  have hlive := hc.current_of_active ha
  rw [← htracker] at hlive
  exact selects_poll hlive htimed

/-- A drive of an attentive backend succeeds and brings a command closer to its end; it only
waits when not all sources are ready. -/
theorem drive_load (hc : Coherent driver) (hfit : Fit d driver)
    {result : EStateM.Result IncrementalDriverError (DriverFrame B n) IncrementalDriverEvent}
    (h : DriveOutcome driver scan ready result) :
    ∃ event drive, result = .ok event drive ∧ Fit d drive.driver ∧
      (Drives d.bound (load d.cost driver) event.terminal (load d.cost drive.driver) ∨
        allReady ready = false ∧ event.terminal = none ∧
          load d.cost drive.driver = load d.cost driver) := by
  cases h with
  | idle ha hp =>
    refine ⟨_, _, rfl, hfit, Or.inl ?_⟩
    rw [load_of_none ha, CommandArbiter.pendingSequence, hp]
    exact .idle
  | started held backend ha hp hb =>
    refine ⟨_, _, rfl, fun _ => ⟨d.start hb, wakeable_empty⟩, Or.inl ?_⟩
    rw [load_of_none ha, CommandArbiter.pendingSequence, hp]
    exact .started (Nat.add_le_add_right (d.start hb) 2)
  | startFailed held backend error ha hp hb =>
    refine ⟨_, _, rfl, fun hs => (by cases hs), Or.inl ?_⟩
    rw [load_of_none ha, CommandArbiter.pendingSequence, hp]
    exact .rejected
  | cancelDelivered active backend ha hd hb =>
    have hdue := not_requested_of_due hd
    have hcost := d.cancel hb
    refine ⟨_, _, rfl, fun _ => ⟨le_trans hcost (hfit (by rw [ha]; rfl)).1, wakeable_empty⟩,
      Or.inl ?_⟩
    rw [load_of_some ha, hdue]
    exact .advanced (by simp only [activeWork, notified]; simp; omega)
  | cancelFailed active backend error ha hd hb =>
    refine ⟨_, _, rfl, fun hs => (by cases hs), Or.inl ?_⟩
    rw [load_of_some ha]
    exact .ended (by omega)
  | waiting active waitFor runner ha hd hs =>
    rcases selects_active ready hc hfit ha with ⟨reason, hpoll⟩ | ⟨hnot, hwait⟩
    · rw [hs] at hpoll
      cases hpoll
    · have hsame : runner = timed driver active.operation ready :=
        congrArg Prod.snd (hs.symm.trans (selectStep_of_waiting hwait))
      have hold := hfit (by rw [ha]; rfl)
      refine ⟨_, _, rfl, fun _ => ⟨hold.1, ?_⟩, Or.inr ⟨hnot, rfl, rfl⟩⟩
      rw [show (polled driver runner driver.backend).runner = runner from rfl, hsame]
      exact (timed_wakeable ready active.operation hold.2).1
  | commandReady active runner ha hd hs =>
    rcases selects_active ready hc hfit ha with ⟨reason, hpoll⟩ | ⟨hnot, hwait⟩
    · rw [hs] at hpoll
      cases hpoll
    · rw [hs] at hwait
      cases hwait
  | pollFailed active reason runner error backend output ha hd hs hb =>
    refine ⟨_, _, rfl, fun hs => (by cases hs), Or.inl ?_⟩
    rw [load_of_some ha]
    exact .ended (by omega)
  | staleReport active reason runner report backend output ha hd hs hb hr =>
    exact (hr (d.poll hb).1).elim
  | kept active reason runner report backend output event waitFor ha hd hs hb hr he =>
    have hwaited := keptEvent_waits he
    have hcost := (d.poll hb).2 waitFor hwaited
    refine ⟨_, _, rfl, fun _ => ⟨?_, d.wakeable hb waitFor hwaited⟩, Or.inl ?_⟩
    · exact le_trans (Nat.le_of_lt hcost) (hfit (by rw [ha]; rfl)).1
    · have hnext : (polled driver (runner.settle (some (active.operation,
          IncrementalRunnerState.liveLifecycle active.cancelRequested)) waitFor)
          backend).arbiter.active = some active := ha
      rw [load_of_some ha, load_of_some hnext, (keptEvent_names he).1]
      refine .advanced ?_
      show d.cost backend + 1 + _ < _
      omega
  | ended active reason runner report backend output event ha hd hs hb hr he =>
    refine ⟨_, _, rfl, fun hs => (by cases hs), Or.inl ?_⟩
    rw [load_of_some ha, endedEvent_terminal he]
    exact .ended (by omega)

end Drives

end HisiRfCore.AttentiveBackends
