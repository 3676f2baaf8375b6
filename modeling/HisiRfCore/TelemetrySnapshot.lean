import HisiRfCore.RelaxedWords
import HisiRfCore.TelemetryBalance
import Mathlib.Tactic.FinCases

/-!
# Snapshots of the counters

The published counters are eighteen words without order. The runner stores them one by
one; a snapshot of the controller loads them one by one, and may mix publications. The
runner stores the counters of a call, and of a removed command, before it looks at a
channel or signals, and all others after what they count. A completion is signalled
inside a critical section, and so releases what was stored before; taking it acquires it.
-/

namespace HisiRfCore.TelemetrySnapshot

open StateBorrow BoundedChannel WifiTypes RadioStorage IncrementalContract CommandArbitration
open BackendDriver DriverCoherence IncrementalFacade IncrementalInterleaving IncrementalService
open RunnerTelemetry TelemetryAccount TelemetryBalance InputOutputMachine RelaxedWords
open DriverCalls (ReplayBackend completingBackend smallestBudget)
open EventPublication (saturated saturated_toNat)

/-- A word is smaller when it is not larger. -/
theorem lt_iff_le_not_ge (a b : UInt32) : a < b ↔ a ≤ b ∧ ¬b ≤ a := by
  rw [UInt32.lt_iff_toNat_lt, UInt32.le_iff_toNat_le, UInt32.le_iff_toNat_le]
  omega

/-- Words in their numeric order. -/
scoped instance wordOrder : Preorder UInt32 where
  le := (· ≤ ·)
  lt := (· < ·)
  le_refl := UInt32.le_refl
  le_trans _ _ _ := UInt32.le_trans
  lt_iff_le_not_ge := lt_iff_le_not_ge

/-- Counters as a function of their position. -/
def wordsOf (d : IncrementalRunnerDiagnostics) : Fin 18 → UInt32 := (asArray d).get

/-- Counters read back from their positions. -/
def fromWords (values : Fin 18 → UInt32) : IncrementalRunnerDiagnostics :=
  fromArray (.ofFn values)

variable {B E : Type} {eventCapacity : ℕ}

/-- Counters that the next step of the runner publishes before it takes effect. -/
def announcement (ready : WaitSet) (s : IncrementalSystem B eventCapacity) :
    Option IncrementalRunnerDiagnostics :=
  match s.phase with
  | .idle => some (beginCall ready s.frame).runner.diagnostics
  | .requesting taken _ =>
    match CommandSequence.tryFromRaw taken with
    | none => none
    | some sequence =>
      match (CommandArbiter.requestCancel sequence s.frame.runner.driver.arbiter).1 with
      | .removePending => some (recordEvent (.cancelled sequence false) s.frame.runner.diagnostics)
      | _ => none
  | _ => none

/-- The step publishes the counters after its effect. -/
def publishesAfter : IncrementalPhase → Option CallResult → Bool
  | .driving _, _ => true
  | .submitting _ _, some (.error _) | .publishing _, some (.error _) => true
  | .requesting _ _, some (.error .invalidCommandSequence) => true
  | _, _ => false

/-- The runner, the controller and the published words. -/
structure TelemetrySystem (B : Type) (eventCapacity : ℕ) where
  /-- Both sides between two stores. -/
  system : IncrementalSystem B eventCapacity
  /-- Sources of a step whose counters were published ahead of it. -/
  announced : Option WaitSet
  /-- The published words and the controller's snapshots of them. -/
  words : Words UInt32 18

/-- One step of a side, or one access of a word. -/
inductive TelemetryInput (E : Type)
  | announce (ready : WaitSet)
  | runner (ready : WaitSet)
  | control (step : AsyncControl.ControlStep)
  | backendEvent (event : E)
  | store
  | snapshot
  | load (index : ℕ)

/-- Counters that were published last, or are being stored. -/
def announcedCounters (s : TelemetrySystem B eventCapacity) : IncrementalRunnerDiagnostics :=
  (s.announced.bind fun ready => announcement ready s.system).getD
    s.system.frame.runner.diagnostics

/-- Snapshots that the controller has taken, the oldest first. -/
def snapshots (s : TelemetrySystem B eventCapacity) : List IncrementalRunnerDiagnostics :=
  s.words.returned.map fromWords

/-- Completions signalled so far. -/
def signalled (s : IncrementalSystem B eventCapacity) : ℕ :=
  s.frame.shared.completion.written.length

/-- A step of the controller takes a completion. -/
def takesCompletion (s : IncrementalSystem B eventCapacity)
    (step : AsyncControl.ControlStep) : Bool :=
  s.frame.shared.completion.value.isSome &&
    (s.plane.step s.frame.shared step).2.completion.value.isNone

variable [IncrementalWifiBackend B]

/-- The runner may take its next step: everything is stored that comes before it. -/
def prepared (ready : WaitSet) (s : TelemetrySystem B eventCapacity) : Bool :=
  18 ≤ s.words.next && (s.announced.isSome || (announcement ready s.system).isNone)

/-- The step under way, with the sources that its counters were published for. -/
def stepTaken (ready : WaitSet) (s : TelemetrySystem B eventCapacity) :
    IncrementalSystem B eventCapacity × Option CallResult :=
  runnerStep (s.announced.getD ready) s.system

/-- Accesses of the words by one input. A snapshot in progress acquires nothing. -/
def accesses (s : TelemetrySystem B eventCapacity) :
    TelemetryInput E → List (WordInput UInt32 18)
  | .announce ready =>
    match s.announced, announcement ready s.system with
    | none, some d => if s.words.next < 18 then [] else [.publish (wordsOf d)]
    | _, _ => []
  | .runner ready =>
    if prepared ready s then
      let effect := stepTaken ready s
      (if signalled s.system < signalled effect.1 then [.release] else []) ++
        if publishesAfter s.system.phase effect.2 then
          [.publish (wordsOf effect.1.frame.runner.diagnostics)] else []
    else []
  | .control step => if takesCompletion s.system step then [.acquire] else []
  | .backendEvent _ => []
  | .store => [.store]
  | .snapshot => [.snapshot]
  | .load index => [.load index]

/-- Effect of an input on the two sides. -/
def systemAfter (interrupt : E → B → B) (s : TelemetrySystem B eventCapacity) :
    TelemetryInput E → IncrementalSystem B eventCapacity
  | .runner ready => if prepared ready s then (stepTaken ready s).1 else s.system
  | .control step => (incrementalMachine interrupt).next s.system (.control step)
  | .backendEvent event => (incrementalMachine interrupt).next s.system (.backendEvent event)
  | _ => s.system

/-- Effect of an input on the announced step. -/
def announcedAfter (s : TelemetrySystem B eventCapacity) : TelemetryInput E → Option WaitSet
  | .announce ready =>
    match s.announced, announcement ready s.system with
    | none, some _ => if s.words.next < 18 then none else some ready
    | announced, _ => announced
  | .runner ready => if prepared ready s then none else s.announced
  | _ => s.announced

/-- Both sides and the words under any interleaving. -/
def telemetryMachine (interrupt : E → B → B) :
    Machine (TelemetrySystem B eventCapacity) (TelemetryInput E) Unit where
  step s input :=
    (⟨systemAfter interrupt s input, announcedAfter s input,
      (accesses s input).foldl wordStep s.words⟩, ())

section Words

variable {s : IncrementalSystem B eventCapacity} {t : ServiceProtocol.Service eventCapacity}

omit [IncrementalWifiBackend B] in
/-- Every position holds a counter. -/
theorem exists_index (i : Fin 18) : ∃ c : Counter, c.index = i := by
  fin_cases i
  exacts [⟨.runOnceCalls, rfl⟩, ⟨.commandReadyBatches, rfl⟩, ⟨.backendReadyBatches, rfl⟩,
    ⟨.l2RxReadyBatches, rfl⟩, ⟨.timerReadyBatches, rfl⟩, ⟨.waitReadyCalls, rfl⟩,
    ⟨.waitReadyCompletions, rfl⟩, ⟨.immediateReadyCompletions, rfl⟩, ⟨.waitReadyErrors, rfl⟩,
    ⟨.operationsStarted, rfl⟩, ⟨.cancellationsRequested, rfl⟩, ⟨.pendingPolls, rfl⟩,
    ⟨.budgetExhaustions, rfl⟩, ⟨.operationsCompleted, rfl⟩, ⟨.operationsCancelled, rfl⟩,
    ⟨.operationsFailed, rfl⟩, ⟨.driverErrors, rfl⟩, ⟨.protocolErrors, rfl⟩]

omit [IncrementalWifiBackend B] in
/-- Each counter is read from its position. -/
theorem word_fromWords (values : Fin 18 → UInt32) (c : Counter) :
    word (fromWords values) c = values c.index := by
  have h : ∀ array : Vector UInt32 18, word (fromArray array) c = array.get c.index := by
    intro array
    cases c <;> rfl
  rw [fromWords, h]
  exact Vector.getElem_ofFn _

omit [IncrementalWifiBackend B] in
/-- Each counter is stored at its position. -/
theorem wordsOf_index (d : IncrementalRunnerDiagnostics) (c : Counter) :
    wordsOf d c.index = word d c := asArray_index d c

/-- A word is what it has counted, when it has counted no more than it can hold. -/
theorem saturated_of_word (x : UInt32) : x = saturated x.toNat := by
  have hx := x.toNat_lt
  rw [saturated, Nat.min_eq_left (by simp only [UInt32.size]; omega), UInt32.ofNat_toNat]

/-- A word never holds more than was counted. -/
theorem toNat_saturated (n : ℕ) : (saturated n).toNat = min n (2 ^ 32 - 1) := by
  rw [saturated, UInt32.toNat_ofNat']
  exact Nat.mod_eq_of_lt (by simp only [UInt32.size]; omega)

/-- Counting takes no word down. -/
theorem word_le_tally (d : IncrementalRunnerDiagnostics) (ticks : List Counter) (c : Counter) :
    word d c ≤ word (tally d ticks) c := by
  have hx := (word d c).toNat_lt
  rw [word_tally (saturated_of_word (word d c)), UInt32.le_iff_toNat_le, toNat_saturated]
  omega

/-- Counting takes no stored word down. -/
theorem wordsOf_le_tally (d : IncrementalRunnerDiagnostics) (ticks : List Counter) (i : Fin 18) :
    wordsOf d i ≤ wordsOf (tally d ticks) i := by
  obtain ⟨c, rfl⟩ := exists_index i
  rw [wordsOf_index, wordsOf_index]
  exact word_le_tally d ticks c

omit [IncrementalWifiBackend B] in
/-- Announced counters count a call with its sources, or a removed command. -/
theorem announcement_tally {ready : WaitSet} {d : IncrementalRunnerDiagnostics}
    (h : announcement ready s = some d) : ∃ ticks, d = tally s.frame.runner.diagnostics ticks := by
  unfold announcement at h
  split at h
  · cases h
    exact ⟨_, (@beginCall_ticks _ _ s.frame ready).own⟩
  · split at h
    · cases h
    · split at h <;> cases h
      exact ⟨[.operationsCancelled], rfl⟩
  · cases h

omit [IncrementalWifiBackend B] in
/-- Only the removal of a command is announced of a cancellation. -/
theorem announcement_requesting {sequence : CommandSequence} {ready sources : WaitSet}
    (hp : s.phase = .requesting sequence.get sources) :
    (s.frame.runner.driver.arbiter.activeSequence ≠ some sequence →
      s.frame.runner.driver.arbiter.pendingSequence = some sequence →
      announcement ready s =
        some (recordEvent (.cancelled sequence false) s.frame.runner.diagnostics)) ∧
    (s.frame.runner.driver.arbiter.activeSequence = some sequence ∨
      s.frame.runner.driver.arbiter.pendingSequence ≠ some sequence →
      announcement ready s = none) := by
  have hannounced : announcement ready s =
      match (CommandArbiter.requestCancel sequence s.frame.runner.driver.arbiter).1 with
      | .removePending => some (recordEvent (.cancelled sequence false) s.frame.runner.diagnostics)
      | _ => none := by
    unfold announcement
    simp only [hp, CommandSequence.tryFromRaw_get]
  have heffect := CommandArbiter.requestCancel_effect sequence s.frame.runner.driver.arbiter
  generalize CommandArbiter.requestCancel sequence s.frame.runner.driver.arbiter = effect
    at hannounced heffect
  rw [hannounced]
  cases heffect with
  | requestActive active ha hs hr hi =>
    exact ⟨fun hn => (hn (by rw [CommandArbiter.activeSequence, ha, ← hs]; rfl)).elim, fun _ => rfl⟩
  | alreadyRequested active ha hs hr =>
    exact ⟨fun hn => (hn (by rw [CommandArbiter.activeSequence, ha, ← hs]; rfl)).elim, fun _ => rfl⟩
  | removePending hs hk =>
    exact ⟨fun _ _ => rfl, fun h => (h.elim hs (fun hn => hn hk)).elim⟩
  | notFound hs hk => exact ⟨fun _ h => (hk h).elim, fun _ => rfl⟩

/-- A step publishes its counters after its effect, or they are those announced before. -/
theorem runnerStep_publishes (ready : WaitSet) (h : Accountable s) :
    (publishesAfter s.phase (runnerStep ready s).2 = true ∧ announcement ready s = none) ∨
      (publishesAfter s.phase (runnerStep ready s).2 = false ∧
        (runnerStep ready s).1.frame.runner.diagnostics =
          (announcement ready s).getD s.frame.runner.diagnostics) := by
  have hticks := (runnerStep_ticks ready h).own
  obtain ⟨t, hs, hb, -⟩ := h
  have heffect := runnerStep_effect ready hs hb
  generalize runnerStep ready s = effect at hticks heffect
  have hidle : s.phase = .idle → (announcement ready s).getD s.frame.runner.diagnostics =
      tally s.frame.runner.diagnostics (.runOnceCalls :: readyTicks ready) := by
    intro hp
    simp only [announcement, hp, Option.getD_some]
    exact (@beginCall_ticks _ _ s.frame ready).own
  cases heffect with
  | received command rest ready' frame hp hc hq ho hm =>
    refine Or.inr ⟨by rw [hp]; rfl, ?_⟩
    rw [hidle hp, hticks, hp]
    rfl
  | unreceived ready' frame hp hn ho hm =>
    refine Or.inr ⟨by rw [hp]; rfl, ?_⟩
    rw [hidle hp, hticks, hp]
    rfl
  | submitted command ready' sequence request frame hp hsequence ho hm =>
    refine Or.inr ⟨by rw [hp]; rfl, ?_⟩
    simp only [hp, stepTicks, tally_nil] at hticks
    simp only [announcement, hp, Option.getD_none, hticks]
  | sampled x rest ready' frame hp hq ho hm =>
    refine Or.inr ⟨by rw [hp]; rfl, ?_⟩
    simp only [hp, stepTicks, tally_nil] at hticks
    simp only [announcement, hp, Option.getD_none, hticks]
  | unsampled ready' hp hq =>
    refine Or.inr ⟨by rw [hp]; rfl, ?_⟩
    simp only [announcement, hp, Option.getD_none]
  | requested sequence ready' frame hp hk ho hm =>
    refine Or.inr ⟨by rw [hp]; rfl, ?_⟩
    simp only [hp, stepTicks, tally_nil] at hticks
    rw [(announcement_requesting hp).2 hk, Option.getD_none]
    exact hticks
  | removed sequence kind ready' frame hp ha hh hk ho hm =>
    refine Or.inr ⟨by rw [hp]; rfl, ?_⟩
    rw [(announcement_requesting hp).1 ha hh, hticks, hp]
    rfl
  | driven ready' event drive frame hp hd ho hm =>
    exact Or.inl ⟨by rw [hp]; rfl, by simp only [announcement, hp]⟩
  | failed ready' error drive frame hp hd ho hm =>
    exact Or.inl ⟨by rw [hp]; rfl, by simp only [announcement, hp]⟩
  | published event sequence kind frame hp ht hk ho hm =>
    cases hmis : mismatched kind event with
    | true =>
      simp only [if_true]
      exact Or.inl ⟨by rw [hp]; rfl, by simp only [announcement, hp]⟩
    | false =>
      simp only [Bool.false_eq_true, if_false]
      refine Or.inr ⟨by rw [hp]; rfl, ?_⟩
      simp only [hp, hmis, Bool.false_eq_true, if_false, stepTicks, tally_nil] at hticks
      simp only [announcement, hp, Option.getD_none, hticks]
  | unpublished event hp ht =>
    refine Or.inr ⟨by rw [hp]; rfl, ?_⟩
    simp only [announcement, hp, Option.getD_none]

/-- A step that publishes after its effect signals no more than the command that had ended. -/
theorem signalled_le_ended {effect : IncrementalSystem B eventCapacity × Option CallResult}
    (he : RunnerEffect s effect) (hp : publishesAfter s.phase effect.2 = true) :
    signalled effect.1 ≤ signalled s + (ended s.phase).toList.length := by
  have hwritten : ∀ {frame : FacadeFrame B eventCapacity} {phase : IncrementalPhase},
      frame.shared.completion = s.frame.shared.completion →
      signalled {s with frame := frame, phase := phase} ≤
        signalled s + (ended s.phase).toList.length := by
    intro frame phase hc
    simp only [signalled, hc]
    exact Nat.le_add_right _ _
  cases he with
  | received command rest ready' frame hphase hc hq ho hm => rw [hphase] at hp; cases hp
  | unreceived ready' frame hphase hn ho hm => rw [hphase] at hp; cases hp
  | submitted command ready' sequence request frame hphase hsequence ho hm =>
    rw [hphase] at hp; cases hp
  | sampled x rest ready' frame hphase hq ho hm => rw [hphase] at hp; cases hp
  | unsampled ready' hphase hq => rw [hphase] at hp; cases hp
  | requested sequence ready' frame hphase hk ho hm => rw [hphase] at hp; cases hp
  | removed sequence kind ready' frame hphase ha hh hk ho hm => rw [hphase] at hp; cases hp
  | driven ready' event drive frame hphase hd ho hm =>
    exact hwritten (congrArg Mailbox.completion hm)
  | failed ready' error drive frame hphase hd ho hm =>
    exact hwritten (congrArg Mailbox.completion hm)
  | published event sequence kind frame hphase ht hk ho hm =>
    simp only [signalled, hphase, ended, ht, Option.toList_some, List.length_singleton]
    rw [show frame.shared.completion = s.frame.shared.completion.signal _ from
      congrArg Mailbox.completion hm, signal_written, List.length_append]
    exact le_refl _
  | unpublished event hphase ht => rw [hphase] at hp; cases hp

/-- A completion is signalled when the command that it ends is counted by the counters that
are published by then. -/
theorem signal_covered (ready : WaitSet) (h : Accountable s) {n : Counter → ℕ}
    (hn : Balanced n s)
    (hcalls : (runnerStep ready s).1.frame.runner.diagnostics.runOnceCalls.toNat < 2 ^ 32 - 1) :
    signalled (runnerStep ready s).1 ≤ terminals fun c =>
      (word ((announcement ready s).getD s.frame.runner.diagnostics) c).toNat := by
  have hticks := (runnerStep_ticks ready h).own
  rcases runnerStep_publishes ready h with ⟨hafter, hnone⟩ | ⟨-, hsame⟩
  · -- The ended command was counted before the step, which only signals it.
    have hbefore := hn.exact (lt_of_le_of_lt (UInt32.le_iff_toNat_le.mp (by
      rw [hticks]
      exact word_le_tally _ _ .runOnceCalls)) hcalls)
    obtain ⟨t, hs, hb, -⟩ := h
    have hle := signalled_le_ended (runnerStep_effect ready hs hb) hafter
    have hended := hbefore.signalled
    rw [hnone, Option.getD_none]
    change signalled s + (ended s.phase).toList.length = _ at hended
    omega
  · -- The counters of the step are those announced.
    obtain ⟨m, hm⟩ := balanced_next (fun (_ : Unit) backend => backend) h ⟨n, hn⟩ (.runner ready)
    change Balanced m (runnerStep ready s).1 at hm
    have hended := (hm.exact hcalls).signalled
    change signalled (runnerStep ready s).1 + _ = _ at hended
    rw [← hsame]
    omega

/-- Steps of the other side leave what is announced. -/
theorem announcement_next (interrupt : E → B → B) (ready : WaitSet)
    {input : IncrementalInput E} (hi : ∀ ready, input ≠ .runner ready) :
    announcement ready ((incrementalMachine interrupt).next s input) = announcement ready s ∧
      ((incrementalMachine interrupt).next s input).frame.runner.diagnostics =
        s.frame.runner.diagnostics := by
  cases input with
  | control step => exact ⟨rfl, rfl⟩
  | runner sources => exact (hi sources rfl).elim
  | backendEvent event => exact ⟨rfl, rfl⟩

end Words

/-- What was released counts at least so many commands as ended. -/
def Covers (w : Words UInt32 18) (k : ℕ) : Prop :=
  ∃ floor : Fin 18 → UInt32, (∀ i, (w.stores i)[w.released i]? = some (floor i)) ∧
    k ≤ terminals fun c => (floor c.index).toNat

/-- The words stand for what the runner counts and signals. -/
structure Tracked (s : TelemetrySystem B eventCapacity) : Prop where
  /-- The system is accountable. -/
  accountable : Accountable s.system
  /-- Its counters balance. -/
  balanced : ∃ n, Balanced n s.system
  /-- The words are stored and loaded in their order. -/
  ordered : Ordered s.words
  /-- The last publication is that of the runner's counters, or of those announced. -/
  latest : s.words.latest = wordsOf (announcedCounters s)
  /-- What was announced is still to come. -/
  announced : ∀ ready, s.announced = some ready → (announcement ready s.system).isSome
  /-- What was released counts every command whose completion was signalled. -/
  covered : s.system.frame.runner.diagnostics.runOnceCalls.toNat < 2 ^ 32 - 1 →
    Covers s.words (signalled s.system)

section Runs

variable {s : TelemetrySystem B eventCapacity} {w : Words UInt32 18} {k : ℕ}

omit [IncrementalWifiBackend B] in
/-- Storing a word keeps what was released. -/
theorem Covers.store (h : Covers w k) : Covers (storeWord w) k := by
  obtain ⟨floor, hfloor, hk⟩ := h
  refine ⟨floor, fun i => ?_, hk⟩
  rw [(storeWord_same w).2.1]
  exact getElem?_of_grows (storeWord_grows w i) (hfloor i)

omit [IncrementalWifiBackend B] in
/-- So does everything else that leaves the stores alone. -/
theorem Covers.congr {u : Words UInt32 18} (h : Covers w k) (hs : u.stores = w.stores)
    (hr : u.released = w.released) : Covers u k := by
  obtain ⟨floor, hfloor, hk⟩ := h
  refine ⟨floor, fun i => ?_, hk⟩
  rw [hs, hr]
  exact hfloor i

/-- An announcement is stored ahead of its step. -/
theorem tracked_announce (h : Tracked s) (interrupt : E → B → B) (ready : WaitSet) :
    Tracked ((telemetryMachine interrupt).next s (.announce ready)) := by
  simp only [Machine.next, telemetryMachine, systemAfter, announcedAfter, accesses]
  cases ha : s.announced with
  | some other =>
    simp only [List.foldl_nil, ← ha]
    exact h
  | none =>
    cases hd : announcement ready s.system with
    | none =>
      simp only [List.foldl_nil, ← ha]
      exact h
    | some d =>
      dsimp only
      by_cases hn : s.words.next < 18
      · simp only [if_pos hn, List.foldl_nil, ← ha]
        exact h
      · simp only [if_neg hn, List.foldl_cons, List.foldl_nil]
        have hpublish : wordStep s.words (.publish (wordsOf d)) =
            {s.words with latest := wordsOf d, next := 0} := if_neg hn
        have hrising : Rising s.words (.publish (wordsOf d)) := by
          intro i
          obtain ⟨ticks, rfl⟩ := announcement_tally hd
          rw [h.latest, announcedCounters, ha]
          exact wordsOf_le_tally _ ticks i
        refine ⟨h.accountable, h.balanced, h.ordered.step hrising, ?_, ?_, fun hcalls => ?_⟩
        · rw [hpublish]
          simp only [announcedCounters, Option.bind_some, hd, Option.getD_some]
        · intro other ho
          cases ho
          rw [hd]
          rfl
        · rw [hpublish]
          exact (h.covered hcalls).congr rfl rfl

omit [IncrementalWifiBackend B] in
/-- Fewer commands are covered too. -/
theorem Covers.mono {m : ℕ} (h : Covers w k) (hm : m ≤ k) : Covers w m := by
  obtain ⟨floor, hfloor, hk⟩ := h
  exact ⟨floor, hfloor, le_trans hm hk⟩

/-- Words after the release of a step, if it signals. -/
def releasedWords (ready : WaitSet) (s : TelemetrySystem B eventCapacity) : Words UInt32 18 :=
  if signalled s.system < signalled (stepTaken ready s).1 then wordStep s.words .release
  else s.words

omit [IncrementalWifiBackend B] in
/-- A prepared step finds the announced counters stored. -/
theorem prepared_stored {ready : WaitSet} (hp : prepared ready s = true) :
    18 ≤ s.words.next ∧ (announcement (s.announced.getD ready) s.system).getD
      s.system.frame.runner.diagnostics = announcedCounters s := by
  obtain ⟨hn, ha⟩ := Bool.and_eq_true_iff.mp hp
  refine ⟨of_decide_eq_true hn, ?_⟩
  unfold announcedCounters
  cases hs : s.announced with
  | some sources => rfl
  | none =>
    rw [hs] at ha
    rw [Option.getD_none, Option.isNone_iff_eq_none.mp ha]
    rfl

/-- What a step signals is covered by what it releases. -/
theorem released_covers (h : Tracked s) {ready : WaitSet} (hp : prepared ready s = true)
    (hcalls : (stepTaken ready s).1.frame.runner.diagnostics.runOnceCalls.toNat < 2 ^ 32 - 1) :
    Covers (releasedWords ready s) (signalled (stepTaken ready s).1) := by
  obtain ⟨hn, hcounters⟩ := prepared_stored hp
  obtain ⟨n, hb⟩ := h.balanced
  unfold releasedWords
  split
  · refine ⟨s.words.latest, h.ordered.release hn, ?_⟩
    have hcovered := signal_covered (s.announced.getD ready) h.accountable hb hcalls
    rw [hcounters] at hcovered
    simp only [h.latest, wordsOf_index]
    exact hcovered
  · next hsignal =>
    refine (h.covered (lt_of_le_of_lt (UInt32.le_iff_toNat_le.mp ?_) hcalls)).mono
      (not_lt.mp hsignal)
    rw [stepTaken, (runnerStep_ticks _ h.accountable).own]
    exact word_le_tally _ _ .runOnceCalls

/-- A step of the runner releases what it signals, and publishes what it counted last. -/
theorem tracked_runner (h : Tracked s) (interrupt : E → B → B) (ready : WaitSet) :
    Tracked ((telemetryMachine interrupt).next s (.runner ready)) := by
  simp only [Machine.next, telemetryMachine, systemAfter, announcedAfter, accesses]
  cases hp : prepared ready s with
  | false =>
    simp only [Bool.false_eq_true, if_false, List.foldl_nil]
    exact h
  | true =>
    obtain ⟨hn, hcounters⟩ := prepared_stored hp
    have hreleased : ((if signalled s.system < signalled (stepTaken ready s).1 then
        [WordInput.release] else []).foldl wordStep s.words) = releasedWords ready s := by
      unfold releasedWords
      split <;> rfl
    have hordered : Ordered (releasedWords ready s) := by
      unfold releasedWords
      split
      · have hrising : Rising s.words .release := trivial
        exact h.ordered.step hrising
      · exact h.ordered
    have hlatest : (releasedWords ready s).latest = s.words.latest ∧
        (releasedWords ready s).next = s.words.next := by
      unfold releasedWords
      split <;> exact ⟨rfl, rfl⟩
    have hacc : Accountable (stepTaken ready s).1 := accountable_runner _ h.accountable
    have hbalanced : ∃ n, Balanced n (stepTaken ready s).1 :=
      balanced_next (fun (_ : Unit) backend => backend) h.accountable h.balanced
        (.runner (s.announced.getD ready))
    have hcovers := released_covers h hp
    have hticks := (runnerStep_ticks (s.announced.getD ready) h.accountable).own
    simp only [if_true, List.foldl_append, hreleased]
    rcases runnerStep_publishes (s.announced.getD ready) h.accountable with
      ⟨hafter, hnone⟩ | ⟨hafter, hsame⟩
    · have hpublish : wordStep (releasedWords ready s)
          (.publish (wordsOf (stepTaken ready s).1.frame.runner.diagnostics)) =
          {releasedWords ready s with
            latest := wordsOf (stepTaken ready s).1.frame.runner.diagnostics, next := 0} :=
        if_neg (by rw [hlatest.2]; omega)
      have hrising : Rising (releasedWords ready s)
          (.publish (wordsOf (stepTaken ready s).1.frame.runner.diagnostics)) := by
        intro i
        rw [hlatest.1, h.latest, ← hcounters, hnone, Option.getD_none, stepTaken, hticks]
        exact wordsOf_le_tally _ _ i
      have hordered' := hordered.step hrising
      rw [show publishesAfter s.system.phase (stepTaken ready s).2 = true from hafter]
      simp only [if_true, List.foldl_cons, List.foldl_nil]
      rw [hpublish] at hordered' ⊢
      exact ⟨hacc, hbalanced, hordered', rfl, fun _ hno => (by cases hno),
        fun hcalls => (hcovers hcalls).congr rfl rfl⟩
    · rw [show publishesAfter s.system.phase (stepTaken ready s).2 = false from hafter]
      simp only [Bool.false_eq_true, if_false, List.foldl_nil]
      refine ⟨hacc, hbalanced, hordered, ?_, fun _ hno => (by cases hno), hcovers⟩
      rw [hlatest.1, h.latest, ← hcounters, ← hsame]
      rfl

/-- A step of the other side leaves the counters alone. -/
theorem Tracked.beside (h : Tracked s) (interrupt : E → B → B) {input : IncrementalInput E}
    (hi : ∀ ready, input ≠ .runner ready)
    (hs : signalled ((incrementalMachine interrupt).next s.system input) = signalled s.system) :
    Tracked ⟨(incrementalMachine interrupt).next s.system input, s.announced, s.words⟩ := by
  have hsame := fun ready => announcement_next interrupt (s := s.system) ready hi
  have hcounters : announcedCounters
      ⟨(incrementalMachine interrupt).next s.system input, s.announced, s.words⟩ =
      announcedCounters s := by
    unfold announcedCounters
    cases s.announced with
    | some ready => rw [Option.bind_some, Option.bind_some, (hsame ready).1, (hsame ready).2]
    | none => exact (hsame .empty).2
  refine ⟨accountable_next interrupt h.accountable input,
    balanced_next interrupt h.accountable h.balanced input, h.ordered, ?_, ?_, ?_⟩
  · rw [hcounters]
    exact h.latest
  · intro ready ha
    rw [(hsame ready).1]
    exact h.announced ready ha
  · intro hcalls
    rw [(hsame .empty).2] at hcalls
    rw [hs]
    exact h.covered hcalls

/-- So does an access that publishes and releases nothing. -/
theorem Tracked.access (h : Tracked s) {i : WordInput UInt32 18}
    (hr : Rising s.words i) (hl : (wordStep s.words i).latest = s.words.latest)
    (hc : ∀ k, Covers s.words k → Covers (wordStep s.words i) k) :
    Tracked ⟨s.system, s.announced, wordStep s.words i⟩ :=
  ⟨h.accountable, h.balanced, h.ordered.step hr, hl.trans h.latest, h.announced,
    fun hcalls => hc _ (h.covered hcalls)⟩

/-- Acquiring moves the view alone. -/
theorem Tracked.acquire (h : Tracked s) :
    Tracked ⟨s.system, s.announced, wordStep s.words .acquire⟩ := by
  have hsame : (wordStep s.words .acquire).stores = s.words.stores ∧
      (wordStep s.words .acquire).latest = s.words.latest ∧
      (wordStep s.words .acquire).released = s.words.released := by
    unfold wordStep
    dsimp only
    split <;> exact ⟨rfl, rfl, rfl⟩
  exact h.access (i := .acquire) trivial hsame.2.1 fun _ hc => hc.congr hsame.1 hsame.2.2

/-- Every input keeps the words in step with the runner. -/
theorem tracked_next (interrupt : E → B → B) (h : Tracked s) (input : TelemetryInput E) :
    Tracked ((telemetryMachine interrupt).next s input) := by
  cases input with
  | announce ready => exact tracked_announce h interrupt ready
  | runner ready => exact tracked_runner h interrupt ready
  | control step =>
    have hforwards := AsyncControl.control_forwards
      (AsyncControl.step_effect s.system.plane s.system.frame.shared step)
    have hsignalled : signalled ((incrementalMachine interrupt).next s.system (.control step)) =
        signalled s.system := congrArg List.length hforwards.written
    simp only [Machine.next, telemetryMachine, systemAfter, announcedAfter, accesses]
    cases takesCompletion s.system step with
    | false => exact h.beside interrupt (fun _ he => by cases he) hsignalled
    | true => exact h.acquire.beside interrupt (fun _ he => by cases he) hsignalled
  | backendEvent event => exact h.beside interrupt (fun _ he => by cases he) rfl
  | store => exact h.access (i := .store) trivial (storeWord_same s.words).1 fun _ hc => hc.store
  | snapshot =>
    have hsame : (wordStep s.words .snapshot).stores = s.words.stores ∧
        (wordStep s.words .snapshot).latest = s.words.latest ∧
        (wordStep s.words .snapshot).released = s.words.released := by
      unfold wordStep
      dsimp only
      split <;> exact ⟨rfl, rfl, rfl⟩
    exact h.access (i := .snapshot) trivial hsame.2.1 fun _ hc => hc.congr hsame.1 hsame.2.2
  | load index =>
    obtain ⟨hstores, hlatest, -, hreleased⟩ := loadWord_same s.words index
    exact h.access (i := .load index) trivial hlatest fun _ hc => hc.congr hstores hreleased

/-- No input takes a later snapshot below a floor. -/
theorem beyond_next (interrupt : E → B → B) {floor : Fin 18 → UInt32} (h : Tracked s)
    (hb : Beyond floor k s.words) (input : TelemetryInput E) :
    Beyond floor k ((telemetryMachine interrupt).next s input).words := by
  show Beyond floor k ((accesses s input).foldl wordStep s.words)
  have hone : ∀ access : WordInput UInt32 18, Beyond floor k (wordStep s.words access) :=
    fun access => hb.step h.ordered access
  cases input with
  | announce ready =>
    unfold accesses
    dsimp only
    split
    · split
      · exact hb
      · exact hone (.publish _)
    · exact hb
  | runner ready =>
    have hreleased : Beyond floor k
        ((if signalled s.system < signalled (stepTaken ready s).1 then
          [WordInput.release] else []).foldl wordStep s.words) := by
      split
      · exact hone .release
      · exact hb
    simp only [accesses]
    cases prepared ready s with
    | false => exact hb
    | true =>
      simp only [if_true, List.foldl_append]
      cases publishesAfter s.system.phase (stepTaken ready s).2 with
      | false => exact hreleased
      | true => exact hreleased.publish _
  | control step =>
    unfold accesses
    dsimp only
    split
    · exact hone .acquire
    · exact hb
  | backendEvent event => exact hb
  | store => exact hone .store
  | snapshot => exact hone .snapshot
  | load index => exact hone (.load index)

/-- Once a completion is taken between two snapshots, the later ones count what was
signalled. -/
theorem later_snapshots (h : Tracked s) (interrupt : E → B → B)
    {step : AsyncControl.ControlStep} (htakes : takesCompletion s.system step = true)
    (hloading : s.words.loading = none)
    (hcalls : s.system.frame.runner.diagnostics.runOnceCalls.toNat < 2 ^ 32 - 1)
    (after : List (TelemetryInput E)) :
    ∀ d ∈ (snapshots ((telemetryMachine interrupt).run
        ((telemetryMachine interrupt).next s (.control step)) after)).drop (snapshots s).length,
      signalled s.system ≤ terminals fun c => (word d c).toNat := by
  obtain ⟨floor, hfloor, hk⟩ := h.covered hcalls
  -- The step that takes the completion acquires, and every later one keeps the floor.
  have hacquired : Beyond floor s.words.returned.length
      ((telemetryMachine interrupt).next s (.control step)).words := by
    simp only [Machine.next, telemetryMachine, accesses, if_pos htakes]
    exact beyond_acquire h.ordered hloading hfloor
  have hlater := run_invariant (telemetryMachine interrupt)
    (I := fun m => Tracked m ∧ Beyond floor s.words.returned.length m.words)
    ⟨tracked_next interrupt h _, hacquired⟩
    (fun m input hm => ⟨tracked_next interrupt hm.1 input,
      beyond_next interrupt hm.1 hm.2 input⟩) after
  intro d hd
  unfold snapshots at hd
  rw [List.length_map, ← List.map_drop] at hd
  obtain ⟨r, hr, rfl⟩ := List.mem_map.mp hd
  have hle := fun c : Counter => UInt32.le_iff_toNat_le.mp (hlater.2.returned r hr c.index)
  have h1 := hle .operationsCompleted
  have h2 := hle .operationsCancelled
  have h3 := hle .operationsFailed
  refine le_trans hk ?_
  simp only [terminals, word_fromWords]
  omega

variable (interrupt : E → B → B) (backend : B) (budget : WorkBudget) (config : WifiConfig)
  (hpos : 0 < eventCapacity)

/-- A claimed radio, before the first call and the first snapshot. -/
def telemetryStart : TelemetrySystem B eventCapacity :=
  ⟨incrementalStart backend budget config hpos, none, .new (wordsOf .empty)⟩

/-- State after an interleaving of the steps of both sides and their accesses. -/
def telemetryRun (inputs : List (TelemetryInput E)) : TelemetrySystem B eventCapacity :=
  (telemetryMachine interrupt).run (telemetryStart backend budget config hpos) inputs

/-- Every state of a run is tracked. -/
theorem run_tracked (inputs : List (TelemetryInput E)) :
    Tracked (telemetryRun interrupt backend budget config hpos inputs) := by
  refine run_invariant (telemetryMachine interrupt) (I := Tracked) ?_
    (fun _ input h => tracked_next interrupt h input) inputs
  exact ⟨accountable_start backend budget config hpos,
    ⟨_, balanced_start backend budget config hpos⟩, ordered_new _, rfl,
    fun _ hno => (by cases hno), fun _ => ⟨wordsOf .empty, fun _ => rfl, Nat.zero_le _⟩⟩

/-- In every interleaving of the runner, the controller and their accesses to the single
words: no word of a snapshot is ahead of the published counters, no snapshot falls behind an
earlier one in any word, and when the controller takes a completion between two snapshots,
every later one counts all commands whose completion was signalled by then, as long as the
calls are counted. -/
theorem snapshots_follow (inputs : List (TelemetryInput E)) :
    (∀ d ∈ snapshots (telemetryRun interrupt backend budget config hpos inputs),
      ∀ c, word d c ≤ word
        (announcedCounters (telemetryRun interrupt backend budget config hpos inputs)) c) ∧
    (snapshots (telemetryRun interrupt backend budget config hpos inputs)).Pairwise
      (fun earlier later => ∀ c, word earlier c ≤ word later c) ∧
    ∀ before step after, inputs = before ++ .control step :: after →
      takesCompletion (telemetryRun interrupt backend budget config hpos before).system step →
      (telemetryRun interrupt backend budget config hpos before).words.loading = none →
      (telemetryRun interrupt backend budget config hpos
        before).system.frame.runner.diagnostics.runOnceCalls.toNat < 2 ^ 32 - 1 →
      ∀ d ∈ (snapshots (telemetryRun interrupt backend budget config hpos inputs)).drop
          (snapshots (telemetryRun interrupt backend budget config hpos before)).length,
        signalled (telemetryRun interrupt backend budget config hpos before).system ≤
          terminals fun c => (word d c).toNat := by
  have h := run_tracked interrupt backend budget config hpos inputs
  refine ⟨fun d hd c => ?_, ?_, ?_⟩
  · obtain ⟨r, hr, rfl⟩ := List.mem_map.mp hd
    rw [word_fromWords, ← wordsOf_index, ← h.latest]
    exact h.ordered.returned_le hr c.index
  · refine List.pairwise_map.mpr (h.ordered.rising.imp fun hle c => ?_)
    rw [word_fromWords, word_fromWords]
    exact hle c.index
  · rintro before step after rfl htakes hloading hcalls d hd
    have hbefore := run_tracked interrupt backend budget config hpos before
    have hrun : telemetryRun interrupt backend budget config hpos
        (before ++ .control step :: after) = (telemetryMachine interrupt).run
          ((telemetryMachine interrupt).next
            (telemetryRun interrupt backend budget config hpos before) (.control step)) after := by
      rw [telemetryRun, run_append, run_cons]
      rfl
    rw [hrun] at hd
    exact later_snapshots hbefore interrupt htakes hloading hcalls after d hd

end Runs

/-- A step of the runner with all its stores. -/
def storedStep : List (TelemetryInput Unit) :=
  .announce .backend :: List.replicate 18 .store ++
    .runner .backend :: List.replicate 18 .store

/-- A snapshot that loads the same store of each word. -/
def loadedAt (index : ℕ) : List (TelemetryInput Unit) :=
  .snapshot :: List.replicate 19 (.load index)

/-- A disconnection runs to its completion while an old snapshot is loaded. -/
def signalledDisconnection : List (TelemetryInput Unit) :=
  [.control (.call .disconnect), .control .allocate, .control .send] ++
    (List.replicate 11 storedStep).flatten ++ loadedAt 1

/-- A replayed backend that completes a disconnection. -/
def replayTelemetry (inputs : List (TelemetryInput Unit)) : TelemetrySystem ReplayBackend 1 :=
  telemetryRun (fun _ backend => backend) completingBackend smallestBudget .default
    Nat.one_pos inputs

/-- Before the completion is taken a snapshot may miss it, but not afterwards. -/
theorem snapshots_follow_disconnection :
    (snapshots (replayTelemetry signalledDisconnection)).map (·.operationsCompleted) = [0] ∧
    ∀ d ∈ (snapshots (replayTelemetry
        (signalledDisconnection ++ .control .observe :: loadedAt 4))).drop
        (snapshots (replayTelemetry signalledDisconnection)).length,
      signalled (replayTelemetry signalledDisconnection).system ≤
        terminals fun c => (word d c).toNat :=
  ⟨by decide +kernel, (snapshots_follow _ _ _ _ Nat.one_pos _).2.2 signalledDisconnection .observe
    (loadedAt 4) rfl (by decide +kernel) (by decide +kernel) (by decide +kernel)⟩

end HisiRfCore.TelemetrySnapshot
