import HisiRfCore.WaitReadiness

/-!
# The wait intent agrees with the drive

The intent decides from the wait set as it stands; a drive subscribes the timer
of a due deadline first and selects afterwards. In every reachable state they
agree: the intent asks for an immediate drive exactly when a drive with nothing
ready calls the backend, and otherwise a drive polls exactly for the sources
that the intent asks for, and leaves the driver as it was for any other.
-/

namespace HisiRfCore.WaitAgreement

open StateBorrow WifiTypes IncrementalContract CommandArbitration RunnerState BackendDriver
open DriverCoherence DriverCalls BackendTrace BackendContract InputOutputMachine WakeSelection
open IncrementalRunnerState IncrementalBackendDriver DriverErrors WaitReadiness

variable {B E : Type} {n : ℕ} [IncrementalWifiBackend B]
  {driver : IncrementalBackendDriver (BackendRecorder B)} {scan : Vector ScanResult n}
  {ready : WaitSet} {active : ActiveCommand}
  {result : EStateM.Result IncrementalDriverError (DriverFrame (BackendRecorder B) n)
    IncrementalDriverEvent}

/-- A source other than the command plane is ready and asked for by the intent. -/
def Shares (driver : IncrementalBackendDriver (BackendRecorder B)) (ready : WaitSet) : Prop :=
  ∃ reason : WakeReason, reason ≠ .command ∧ ready.contains (source reason) = true ∧
    driver.waitIntent.sources.contains (source reason) = true

/-- The next state polled the operation once. -/
def Polls (driver next : IncrementalBackendDriver (BackendRecorder B)) (id : OperationId) : Prop :=
  ∃ reason answer, trace next = trace driver ++ [.poll id reason answer]

/-- The intent asks for every source of the set that a poll selects from. -/
theorem intent_of_timed (ha : driver.arbiter.active = some active) {reason : WakeReason}
    (ht : (timed driver active.operation ready).waitFor.contains (source reason) = true) :
    driver.waitIntent.sources.contains (source reason) = true := by
  have hdeadline : driver.nextDeadlineUs =
      IncrementalWifiBackend.nextDeadlineUs driver.backend active.operation := by
    rw [IncrementalBackendDriver.nextDeadlineUs, CommandArbiter.activeOperation_of_active ha]
    rfl
  simp only [IncrementalBackendDriver.waitIntent, hdeadline]
  unfold timed at ht
  split at ht
  · next hdue =>
    rw [if_pos (Bool.and_eq_true_iff.mp hdue).2]
    exact ht
  · split
    · rw [contains_union, ht, Bool.true_or]
    · exact ht

/-- An operation that may sleep is due no cancellation and waits for something. -/
theorem asleep_of_active (ha : driver.arbiter.active = some active)
    (hi : driver.waitIntent.runImmediately = false) :
    cancelDue driver active = false ∧ driver.runner.waitFor.isEmpty = false := by
  rw [runImmediately_of_active ha] at hi
  exact Bool.or_eq_false_iff.mp hi

/-- Subscribing the timer keeps a wait set that is not empty. -/
theorem timed_nonempty (hw : driver.runner.waitFor.isEmpty = false) :
    (timed driver active.operation ready).waitFor.isEmpty = false := by
  unfold timed
  split
  · have htimer : (driver.runner.waitFor.union .timer).contains (source .timer) = true := by
      rw [contains_union]
      exact Bool.or_true _
    exact isEmpty_of_contains htimer
  · exact hw

/-- Without a ready command, the step of an operation that may sleep is a poll for a shared
source; when no source is shared it waits, and nothing was subscribed. -/
theorem selectStep_shares (hc : Coherent driver) (ha : driver.arbiter.active = some active)
    (hi : driver.waitIntent.runImmediately = false) (hr : ready.contains .command = false) :
    Shares driver ready ∧ (∃ reason, ((timed driver active.operation ready).selectStep ready).1 =
        .pollBackend active.operation reason) ∨
      ¬ Shares driver ready ∧ (timed driver active.operation ready).selectStep ready =
        (.waiting driver.runner.waitFor, driver.runner) := by
  have hw := (asleep_of_active ha hi).2
  have hstep := selectStep_of_subscribed (timed_current hc ha ready) ready (timed_nonempty hw)
  cases hs : ((timed driver active.operation ready).selector.select
      (timed driver active.operation ready).waitFor ready).1 with
  | none =>
    rw [hs] at hstep
    have hnone := select_none hs
    have huntimed : timed driver active.operation ready = driver.runner := by
      unfold timed at hnone ⊢
      split
      · next hdue =>
        -- a due deadline with a ready timer would be selected
        rw [if_pos hdue] at hnone
        refine (hnone .timer ⟨?_, (Bool.and_eq_true_iff.mp hdue).1⟩).elim
        rw [contains_union]
        exact Bool.or_true _
      · rfl
    refine Or.inr ⟨?_, ?_⟩
    · rintro ⟨reason, -, hready, hsources⟩
      exact hnone reason ⟨timed_subscribes ha hready hsources, hready⟩
    · rw [selectStep_of_waiting hstep, huntimed]
  | some reason =>
    rw [hs] at hstep
    obtain ⟨hin, hready⟩ := select_some hs
    have hne : reason ≠ .command := by
      rintro rfl
      cases hr.symm.trans hready
    refine Or.inl ⟨⟨reason, hne, hready, intent_of_timed ha hin⟩, reason, ?_⟩
    cases reason with
    | command => exact (hne rfl).elim
    | _ => exact hstep

/-- A drive of an operation that is due no cancellation takes its selected step. -/
theorem drive_takes_step (ha : driver.arbiter.active = some active)
    (hd : cancelDue driver active = false) (h : DriveOutcome driver scan ready result) :
    (∃ waitFor runner,
      (timed driver active.operation ready).selectStep ready = (.waiting waitFor, runner) ∧
      result = .ok (.waiting active.sequence active.operation waitFor)
        ⟨polled driver runner driver.backend, scan⟩) ∨
    (∃ runner, (timed driver active.operation ready).selectStep ready =
      (.commandReady active.operation, runner)) ∨
    ∃ reason runner, (timed driver active.operation ready).selectStep ready =
        (.pollBackend active.operation reason, runner) ∧
      Polls driver (after result).driver active.operation := by
  have hsame : ∀ {other : ActiveCommand}, driver.arbiter.active = some other → other = active :=
    fun ho => Option.some.inj (ho.symm.trans ha)
  cases h with
  | idle hn hp => cases hn.symm.trans ha
  | started held backend hn hp hb => cases hn.symm.trans ha
  | startFailed held backend error hn hp hb => cases hn.symm.trans ha
  | cancelDelivered other backend ho hdue hb =>
    cases hsame ho
    cases hdue.symm.trans hd
  | cancelFailed other backend error ho hdue hb =>
    cases hsame ho
    cases hdue.symm.trans hd
  | waiting other waitFor runner ho hdue hs =>
    cases hsame ho
    exact Or.inl ⟨waitFor, runner, hs, rfl⟩
  | commandReady other runner ho hdue hs =>
    cases hsame ho
    exact Or.inr (Or.inl ⟨runner, hs⟩)
  | pollFailed other reason runner error backend output ho hdue hs hb =>
    cases hsame ho
    exact Or.inr (Or.inr ⟨reason, runner, hs, _, _, poll_calls hb⟩)
  | staleReport other reason runner report backend output ho hdue hs hb hr =>
    cases hsame ho
    exact Or.inr (Or.inr ⟨reason, runner, hs, _, _, poll_calls hb⟩)
  | kept other reason runner report backend output event waitFor ho hdue hs hb hr he =>
    cases hsame ho
    exact Or.inr (Or.inr ⟨reason, runner, hs, _, _, poll_calls hb⟩)
  | ended other reason runner report backend output event ho hdue hs hb hr he =>
    cases hsame ho
    exact Or.inr (Or.inr ⟨reason, runner, hs, _, _, poll_calls hb⟩)

/-- A selected poll is made, and nothing else. -/
theorem drive_polls (ha : driver.arbiter.active = some active)
    (hd : cancelDue driver active = false) {reason : WakeReason}
    (hs : ((timed driver active.operation ready).selectStep ready).1 =
      .pollBackend active.operation reason) (h : DriveOutcome driver scan ready result) :
    Polls driver (after result).driver active.operation := by
  rcases drive_takes_step ha hd h with
    ⟨waitFor, runner, hw, -⟩ | ⟨runner, hcommand⟩ | ⟨-, -, -, hpolls⟩
  · cases (congrArg Prod.fst hw).symm.trans hs
  · cases (congrArg Prod.fst hcommand).symm.trans hs
  · exact hpolls

/-- A step that waits in an unchanged runner is a drive that writes nothing. -/
theorem drive_waits (ha : driver.arbiter.active = some active)
    (hd : cancelDue driver active = false)
    (hs : (timed driver active.operation ready).selectStep ready =
      (.waiting driver.runner.waitFor, driver.runner))
    (h : DriveOutcome driver scan ready result) :
    result = .ok (.waiting active.sequence active.operation driver.runner.waitFor)
      ⟨driver, scan⟩ := by
  rcases drive_takes_step ha hd h with
    ⟨waitFor, runner, hw, hresult⟩ | ⟨runner, hcommand⟩ | ⟨reason, runner, hpoll, -⟩
  · cases hw.symm.trans hs
    exact hresult
  · cases hcommand.symm.trans hs
  · cases hpoll.symm.trans hs

/-- A driver after a drive, as the machine and as the method have it. -/
theorem next_driveOnce (interrupt : E → B → B)
    (driver : IncrementalBackendDriver (BackendRecorder B)) (ready : WaitSet)
    (scan : Vector ScanResult n) :
    (recordedMachine interrupt).next driver (.driveOnce ready scan) =
      (after (driveOnce ready ⟨driver, scan⟩)).driver := rfl

/-- In every reachable state the intent asks for an immediate drive exactly when a drive with
nothing ready makes a start, a cancellation or a poll. Otherwise, without a ready command, a
drive polls the active operation exactly when a ready source is asked for, and for any other
ready set it reports that it waits and leaves the driver, its backend included, as it was. -/
theorem intent_agrees (interrupt : E → B → B) (backend : B) (budget : WorkBudget)
    (calls : List (DriverCall E)) :
    let driver := recordedRun interrupt backend budget calls
    let next (ready : WaitSet) {m : ℕ} (scan : Vector ScanResult m) :=
      (recordedMachine interrupt).next driver (.driveOnce ready scan)
    (∀ {m : ℕ} (scan : Vector ScanResult m), driver.waitIntent.runImmediately = true ↔
      ∃ call, trace (next .empty scan) = trace driver ++ [call]) ∧
    (driver.waitIntent.runImmediately = false → ∀ active, driver.arbiter.active = some active →
      ∀ ready, ready.contains .command = false → ∀ {m : ℕ} (scan : Vector ScanResult m),
        (Polls driver (next ready scan) active.operation ↔ Shares driver ready) ∧
        (¬ Shares driver ready →
          driveOnce ready ⟨driver, scan⟩ =
            .ok (.waiting active.sequence active.operation driver.runner.waitFor)
              ⟨driver, scan⟩ ∧
          next ready scan = driver)) := by
  intro driver next
  have hc : Coherent driver := recordedRun_coherent interrupt backend budget calls
  have hquiet : ∀ call, trace driver ≠ trace driver ++ [call] := by
    intro call he
    have hlength := congrArg List.length he
    simp at hlength
  refine ⟨fun scan => ⟨fun hi => drive_immediate hc hi (driveOnce_outcome hc scan .empty), ?_⟩, ?_⟩
  · rintro ⟨call, hcall⟩
    cases hi : driver.waitIntent.runImmediately with
    | true => rfl
    | false =>
      have hnone := drive_quiet hc hi (driveOnce_outcome hc scan .empty)
      exact (hquiet call (hnone.symm.trans hcall)).elim
  · intro hi active ha ready hr m scan
    have hd := (asleep_of_active ha hi).1
    have hdrive := driveOnce_outcome hc scan ready
    rcases selectStep_shares hc ha hi hr with ⟨hshares, reason, hs⟩ | ⟨hnone, hs⟩
    · exact ⟨iff_of_true (drive_polls ha hd hs hdrive) hshares, fun hn => (hn hshares).elim⟩
    · have hwaits := drive_waits ha hd hs hdrive
      have hnext : next ready scan = driver :=
        (next_driveOnce interrupt driver ready scan).trans (by rw [hwaits]; rfl)
      refine ⟨iff_of_false ?_ hnone, fun _ => ⟨hwaits, hnext⟩⟩
      rintro ⟨reason, answer, hpoll⟩
      rw [hnext] at hpoll
      exact hquiet _ hpoll

end HisiRfCore.WaitAgreement
