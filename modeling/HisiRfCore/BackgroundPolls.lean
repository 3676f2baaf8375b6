import HisiRfCore.BlockingOutcomes
import HisiRfCore.EventPublication
import HisiRfCore.ValueChanges

/-!
# What the blocking runner announces

The blocking runner publishes an event for each command and, between commands, for each
change of the error that its background polls return. It answers each call with a hint
whether another call may be useful at once. Here the account of a runner is kept from
what its calls and polls return alone; every interleaving of the atomic steps agrees
with it, in the events, in the answers and in the diagnostics.
-/

namespace HisiRfCore.BackgroundPolls

open BoundedChannel WifiTypes RadioStorage AsyncControl InputOutputMachine BlockingRunner
open BlockingOutcomes ValueChanges
open EventPublication (saturated saturatingIncrement_saturated)

variable {B E : Type} {eventCapacity : ℕ}

/-- Read-only blocking-runner migration diagnostics. -/
structure BlockingRunnerDiagnostics where
  /-- Commands currently waiting in the control channel. -/
  commandQueuePending : ℕ
  /-- Largest observed control-channel occupancy. -/
  commandQueueHighWater : ℕ
  /-- Calls to `run_once`. -/
  runOnceCalls : UInt32
  /-- Commands processed by either entry point. -/
  commandsProcessed : UInt32
  /-- Calls to `poll`. -/
  backendPollCalls : UInt32
  /-- Polls that reported useful background work. -/
  backendPollWorkBatches : UInt32
  /-- Polls that returned an error, including repeated errors. -/
  backendPollErrors : UInt32
  /-- Calls that asked the platform to schedule another batch. -/
  immediateRepollHints : UInt32
  deriving DecidableEq

/-- Snapshot blocking-runner migration counters. -/
def blockingRunnerDiagnostics (shared : SharedState eventCapacity) : BlockingRunnerDiagnostics where
  commandQueuePending := shared.commands.queued.length
  commandQueueHighWater := shared.commandHighWater.toNat
  runOnceCalls := shared.runOnceCalls
  commandsProcessed := shared.commandsProcessed
  backendPollCalls := shared.backendPollCalls
  backendPollWorkBatches := shared.backendPollWorkBatches
  backendPollErrors := shared.backendPollErrors
  immediateRepollHints := shared.immediateRepollHints

/-- What a step of the runner has to do with the world outside. -/
inductive Happening
  | began (received : Bool)
  | cancelled
  | called (kind : CompletionKind)
  | polled (result : Except BackendError Bool)
  deriving DecidableEq

/-- What the runner publishes. -/
inductive Announcement
  | command (kind : CompletionKind)
  | cancelled
  | background (error : BackendError)
  deriving DecidableEq

/-- Event of an announcement. -/
def Announcement.event : Announcement → Option WifiEvent
  | .command kind => eventOf kind
  | .cancelled => some (.failed cancelledError)
  | .background error => some (.failed error)

/-- Error of a background poll that is announced. -/
def Announcement.error : Announcement → Option BackendError
  | .background error => some error
  | .command _ | .cancelled => none

/-- Error of a poll, none after a success. -/
def failure : Except BackendError Bool → Option BackendError
  | .ok _ => none
  | .error error => some error

namespace Happening

/-- A call of `run_once` begins. -/
def isBegan : Happening → Bool
  | .began _ => true
  | _ => false

/-- A call of `run_once` begins with a command. -/
def isReceived : Happening → Bool
  | .began received => received
  | _ => false

/-- A command is processed. -/
def isCalled : Happening → Bool
  | .called _ => true
  | _ => false

/-- Result of a background poll. -/
def result : Happening → Option (Except BackendError Bool)
  | .polled result => some result
  | _ => none

/-- A poll did background work. -/
def isWork : Happening → Bool
  | .polled (.ok work) => work
  | _ => false

/-- A poll failed. -/
def isFailure : Happening → Bool
  | .polled (.error _) => true
  | _ => false

end Happening

/-- What the runner has said so far, and what its next answer depends on. -/
structure Account where
  /-- Error of the latest poll. -/
  lastError : Option BackendError
  /-- The present call received a command. -/
  received : Bool
  /-- Announcements in order. -/
  announced : List Announcement
  /-- Answers of `run_once` in order. -/
  answers : List Bool

/-- Nothing has happened. -/
def Account.new : Account := ⟨none, false, [], []⟩

/-- A poll ends a call; a repeated error is not announced again. -/
def Account.polled (a : Account) : Except BackendError Bool → Account
  | .ok work =>
    {a with lastError := none, received := false, answers := a.answers ++ [a.received || work]}
  | .error error =>
    if some error = a.lastError then
      {a with received := false, answers := a.answers ++ [a.received]}
    else
      {a with
        lastError := some error, received := false
        announced := a.announced ++ [.background error], answers := a.answers ++ [true]}

/-- The runner's account of one happening. -/
def Account.next (a : Account) : Happening → Account
  | .began received => {a with received := received}
  | .cancelled => {a with announced := a.announced ++ [.cancelled]}
  | .called kind => {a with announced := a.announced ++ [.command kind]}
  | .polled result => a.polled result

/-- Account of a history. -/
def account (history : List Happening) : Account := history.foldl Account.next .new

@[simp] theorem account_concat (history : List Happening) (x : Happening) :
    account (history ++ [x]) = (account history).next x := List.foldl_concat ..

/-- Errors of the polls, in order. -/
def failures (history : List Happening) : List (Option BackendError) :=
  (history.filterMap Happening.result).map failure

section Accounts

variable (history : List Happening)

/-- A poll is the last one. -/
theorem failures_polled (result : Except BackendError Bool) :
    failures (history ++ [.polled result]) = failures history ++ [failure result] := by
  simp only [failures, List.filterMap_append, List.map_append]
  rfl

/-- Anything else is no poll. -/
theorem failures_other {x : Happening} (hx : x.result = none) :
    failures (history ++ [x]) = failures history := by
  simp only [failures, List.filterMap_append, List.filterMap_cons_none hx, List.filterMap_nil,
    List.append_nil]

/-- The account knows the error of the latest poll. -/
theorem account_lastError : (account history).lastError = (failures history).getLastD none := by
  induction history using List.reverseRecOn with
  | nil => rfl
  | append_singleton before x ih =>
    rw [account_concat]
    cases x with
    | polled result =>
      rw [failures_polled, List.getLastD_concat]
      cases result with
      | ok work => rfl
      | error error =>
        by_cases hsame : some error = (account before).lastError
        · rw [Account.next, Account.polled, if_pos hsame]
          exact hsame.symm
        · rw [Account.next, Account.polled, if_neg hsame]
          rfl
    | _ =>
      rw [failures_other before rfl]
      exact ih

/-- A background error is announced exactly when it differs from the one before it. -/
theorem account_background : (account history).announced.filterMap Announcement.error =
    (changes none (failures history)).reduceOption := by
  induction history using List.reverseRecOn with
  | nil => rfl
  | append_singleton before x ih =>
    have hlast := account_lastError before
    rw [account_concat]
    cases x with
    | polled result =>
      rw [failures_polled, changes_concat, List.reduceOption_append, ← hlast, ← ih]
      cases result with
      | ok work =>
        have hquiet : (if failure (.ok work) = (account before).lastError then []
            else [failure (.ok work)]).reduceOption = [] := by
          split <;> rfl
        rw [hquiet]
        exact (List.append_nil _).symm
      | error error =>
        by_cases hsame : some error = (account before).lastError
        · rw [Account.next, Account.polled, if_pos hsame, failure, if_pos hsame]
          exact (List.append_nil _).symm
        · rw [Account.next, Account.polled, if_neg hsame, failure, if_neg hsame]
          exact List.filterMap_append
    | began received =>
      rw [failures_other before rfl]
      exact ih
    | _ =>
      rw [failures_other before rfl, ← ih]
      unfold Account.next
      rw [List.filterMap_append]
      exact List.append_nil _

/-- A hint is owed to the command of its call, to background work or to an error that is
announced. -/
theorem next_answers (a : Account) (x : Happening) :
    (a.next x).answers.count true + (a.next x).received.toNat +
        (a.announced.filterMap Announcement.error).length ≤
      a.answers.count true + a.received.toNat + (x.isReceived.toNat + x.isWork.toNat) +
        ((a.next x).announced.filterMap Announcement.error).length := by
  cases x with
  | began received =>
    simp only [Account.next, Happening.isReceived]
    omega
  | cancelled =>
    simp only [Account.next, List.filterMap_append, List.length_append]
    omega
  | called kind =>
    simp only [Account.next, List.filterMap_append, List.length_append]
    omega
  | polled result =>
    cases result with
    | ok work =>
      have hor : (a.received || work).toNat ≤ a.received.toNat + work.toNat := by
        cases a.received <;> cases work <;> decide
      have hcount : [a.received || work].count true = (a.received || work).toNat := by
        cases a.received || work <;> rfl
      simp only [Account.next, Account.polled, Happening.isWork, List.count_append, hcount,
        Bool.toNat_false]
      omega
    | error error =>
      have hcount : [a.received].count true = a.received.toNat := by cases a.received <;> rfl
      by_cases hsame : some error = a.lastError
      · simp only [Account.next, Account.polled, if_pos hsame, List.count_append, hcount,
          Bool.toNat_false]
        omega
      · simp only [Account.next, Account.polled, if_neg hsame, List.count_append,
          List.filterMap_append, List.length_append, List.count_singleton_self, Bool.toNat_false]
        have hnew : ([Announcement.background error].filterMap Announcement.error).length = 1 := rfl
        omega

/-- One more happening is counted once or not at all. -/
theorem countP_concat (p : Happening → Bool) (x : Happening) :
    (history ++ [x]).countP p = history.countP p + (p x).toNat := by
  rw [List.countP_append]
  cases hp : p x <;> simp [hp]

/-- A call is to be repeated at once only for a command, for background work or for an
error that it announces. -/
theorem account_answers : (account history).answers.count true +
      (account history).received.toNat ≤
    history.countP Happening.isReceived + history.countP Happening.isWork +
      ((account history).announced.filterMap Announcement.error).length := by
  induction history using List.reverseRecOn with
  | nil => exact Nat.le_refl 0
  | append_singleton before x ih =>
    have hnext := next_answers (account before) x
    rw [account_concat, countP_concat, countP_concat]
    omega

end Accounts

section Steps

variable [WifiBackend B] {s : BlockingSystem B eventCapacity} {history : List Happening}

/-- What a step of the runner has to do with the world outside. -/
def happening (mode : BlockingMode) (s : BlockingSystem B eventCapacity) : Option Happening :=
  match s.phase with
  | .idle =>
    match mode with
    | .runOnce => some (.began (receiveCommand (countCall s.frame)).1.isSome)
    | .run => none
  | .cancelling _ _ => some .cancelled
  | .processing command _ => some (.called (callBackend command s.frame).1)
  | .polling _ => some (.polled (WifiBackend.poll s.frame.runner.backend).1)
  | .draining _ _ | .signalling _ _ _ => none

/-- Only the runner's steps are observed. -/
def seen (s : BlockingSystem B eventCapacity) : BlockingInput E → Option Happening
  | .runner mode => happening mode s
  | .control _ | .backendEvent _ => none

/-- The present call received a command, so that it is to be repeated. -/
def worked : BlockingPhase → Bool
  | .idle => false
  | .draining _ polls | .cancelling _ polls | .processing _ polls | .signalling _ _ polls => polls
  | .polling didWork => didWork

/-- Diagnostics that a history accounts for. -/
def accountedDiagnostics (history : List Happening) (commands : Channel Command 1) :
    BlockingRunnerDiagnostics where
  commandQueuePending := commands.queued.length
  commandQueueHighWater := min 1 commands.sent.length
  runOnceCalls := saturated (history.countP Happening.isBegan)
  commandsProcessed := saturated (history.countP Happening.isCalled)
  backendPollCalls := saturated (history.countP fun x => x.result.isSome)
  backendPollWorkBatches := saturated (history.countP Happening.isWork)
  backendPollErrors := saturated (history.countP Happening.isFailure)
  immediateRepollHints := saturated ((account history).answers.count true)

/-- The runner and the shared state agree with the account of a history. -/
structure Accounted (history : List Happening) (s : BlockingSystem B eventCapacity) : Prop where
  /-- The latest poll error is remembered. -/
  lastError : s.frame.runner.lastPollError = (account history).lastError
  /-- So is whether the present call received a command. -/
  received : worked s.phase = (account history).received
  /-- The announcements are the published events. -/
  events : s.frame.shared.events.sent = (account history).announced.filterMap Announcement.event
  /-- The diagnostics count the history. -/
  diagnostics : blockingRunnerDiagnostics s.frame.shared =
    accountedDiagnostics history s.frame.shared.commands

omit [WifiBackend B] in
/-- Publishing an event leaves the diagnostics alone. -/
theorem publishEvent_diagnostics (event : WifiEvent) (shared : SharedState eventCapacity) :
    blockingRunnerDiagnostics (shared.publishEvent event) = blockingRunnerDiagnostics shared := by
  unfold SharedState.publishEvent
  split
  · rfl
  · split <;> rfl

omit [WifiBackend B] in
/-- Publishing an identity leaves the diagnostics alone. -/
theorem publishCapabilities_diagnostics (capabilities : Option WifiL2Capabilities)
    (shared : SharedState eventCapacity) :
    blockingRunnerDiagnostics (shared.publishCapabilities capabilities) =
      blockingRunnerDiagnostics shared := by
  cases capabilities <;> rfl

omit [WifiBackend B] in
/-- It publishes no event. -/
theorem publishCapabilities_sent (capabilities : Option WifiL2Capabilities)
    (shared : SharedState eventCapacity) :
    (shared.publishCapabilities capabilities).events.sent = shared.events.sent := by
  cases capabilities <;> rfl

/-- A backend call publishes the event of its completion and counts as processed. -/
theorem callBackend_account (command : Command) (frame : BlockingFrame B eventCapacity) :
    (callBackend command frame).2.runner.lastPollError = frame.runner.lastPollError ∧
    (callBackend command frame).2.shared.events.sent = frame.shared.events.sent ++
      (eventOf (callBackend command frame).1).toList ∧
    blockingRunnerDiagnostics (callBackend command frame).2.shared =
      {blockingRunnerDiagnostics frame.shared with
        commandsProcessed := saturatingIncrement frame.shared.commandsProcessed} := by
  have hpublished : ∀ (event : WifiEvent) (shared : SharedState eventCapacity),
      shared.events.sent = frame.shared.events.sent →
      (shared.publishEvent event).events.sent = frame.shared.events.sent ++ [event] := by
    intro event shared hs
    rw [SharedState.publishEvent_sent, hs]
  unfold callBackend
  cases command.kind with
  | initialise =>
    refine ⟨rfl, hpublished _ _ ?_, ?_⟩
    · exact publishCapabilities_sent _ _
    · rw [publishEvent_diagnostics]
      exact publishCapabilities_diagnostics _ _
  | scan config =>
    dsimp only
    cases (WifiBackend.scan frame.runner.backend config frame.shared.scanResults).1 with
    | ok outcome => exact ⟨rfl, hpublished _ _ rfl, publishEvent_diagnostics _ _⟩
    | error error => exact ⟨rfl, hpublished _ _ rfl, publishEvent_diagnostics _ _⟩
  | connect config =>
    dsimp only
    cases (WifiBackend.connect frame.runner.backend config).1 with
    | ok info => exact ⟨rfl, hpublished _ _ rfl, publishEvent_diagnostics _ _⟩
    | error error => exact ⟨rfl, hpublished _ _ rfl, publishEvent_diagnostics _ _⟩
  | disconnect =>
    exact ⟨rfl, hpublished _ _ rfl, publishEvent_diagnostics _ _⟩

/-- Count one poll. -/
def countPoll (shared : SharedState eventCapacity) : SharedState eventCapacity :=
  {shared with backendPollCalls := saturatingIncrement shared.backendPollCalls}

/-- Count a poll that did work. -/
def countWork (work : Bool) (shared : SharedState eventCapacity) : SharedState eventCapacity :=
  if work then
    {shared with backendPollWorkBatches := saturatingIncrement shared.backendPollWorkBatches}
  else shared

/-- Count a poll that failed. -/
def countFailure (shared : SharedState eventCapacity) : SharedState eventCapacity :=
  {shared with backendPollErrors := saturatingIncrement shared.backendPollErrors}

/-- Count a call that asks to be repeated. -/
def countHint (hint : Bool) (shared : SharedState eventCapacity) : SharedState eventCapacity :=
  if hint then
    {shared with immediateRepollHints := saturatingIncrement shared.immediateRepollHints}
  else shared

/-- A successful poll. -/
theorem pollBackend_ok (didWork : Bool) (frame : BlockingFrame B eventCapacity) {work : Bool}
    (hr : (WifiBackend.poll frame.runner.backend).1 = .ok work) :
    pollBackend didWork frame = (didWork || work,
      ⟨{frame.runner with
          backend := (WifiBackend.poll frame.runner.backend).2, lastPollError := none},
        countHint (didWork || work) (countWork work (countPoll frame.shared))⟩) := by
  unfold pollBackend
  simp only [hr]
  rfl

/-- A poll that fails as the one before it. -/
theorem pollBackend_repeated (didWork : Bool) (frame : BlockingFrame B eventCapacity)
    {error : BackendError} (hr : (WifiBackend.poll frame.runner.backend).1 = .error error)
    (hs : frame.runner.lastPollError = some error) :
    pollBackend didWork frame = (didWork,
      ⟨{frame.runner with backend := (WifiBackend.poll frame.runner.backend).2},
        countHint didWork (countFailure (countPoll frame.shared))⟩) := by
  unfold pollBackend
  simp only [hr, hs, ne_eq, not_true, if_false]
  rfl

/-- A poll that fails with a new error. -/
theorem pollBackend_new (didWork : Bool) (frame : BlockingFrame B eventCapacity)
    {error : BackendError} (hr : (WifiBackend.poll frame.runner.backend).1 = .error error)
    (hs : frame.runner.lastPollError ≠ some error) :
    pollBackend didWork frame = (true,
      ⟨{frame.runner with
          backend := (WifiBackend.poll frame.runner.backend).2, lastPollError := some error},
        countHint true ((countFailure (countPoll frame.shared)).publishEvent (.failed error))⟩) := by
  unfold pollBackend
  simp only [hr, if_pos hs]
  rfl

omit [WifiBackend B] in
/-- Counting publishes nothing. -/
theorem countHint_sent (hint : Bool) (shared : SharedState eventCapacity) :
    (countHint hint shared).events.sent = shared.events.sent := by
  cases hint <;> rfl

omit [WifiBackend B] in
/-- Counting work publishes nothing. -/
theorem countWork_sent (work : Bool) (shared : SharedState eventCapacity) :
    (countWork work shared).events.sent = shared.events.sent := by
  cases work <;> rfl

omit [WifiBackend B] in
/-- A hint is counted in the diagnostics. -/
theorem countHint_diagnostics (hint : Bool) (shared : SharedState eventCapacity) :
    blockingRunnerDiagnostics (countHint hint shared) = {blockingRunnerDiagnostics shared with
      immediateRepollHints := bif hint then
          saturatingIncrement (blockingRunnerDiagnostics shared).immediateRepollHints
        else (blockingRunnerDiagnostics shared).immediateRepollHints} := by
  cases hint <;> rfl

/-- What a poll does to the runner is what the account says. -/
theorem pollBackend_account (frame : BlockingFrame B eventCapacity) {a : Account}
    (hlast : frame.runner.lastPollError = a.lastError)
    {result : Except BackendError Bool} (hr : (WifiBackend.poll frame.runner.backend).1 = result) :
    (pollBackend a.received frame).2.runner.lastPollError = (a.polled result).lastError ∧
    (a.polled result).answers = a.answers ++ [(pollBackend a.received frame).1] ∧
    ∃ announced, (a.polled result).announced = a.announced ++ announced ∧
      (pollBackend a.received frame).2.shared.events.sent =
        frame.shared.events.sent ++ announced.filterMap Announcement.event := by
  cases result with
  | ok work =>
    rw [pollBackend_ok a.received frame hr]
    refine ⟨rfl, rfl, [], (List.append_nil _).symm, ?_⟩
    rw [countHint_sent, countWork_sent]
    exact (List.append_nil _).symm
  | error error =>
    by_cases hsame : some error = a.lastError
    · rw [pollBackend_repeated a.received frame hr (hlast.trans hsame.symm), Account.polled,
        if_pos hsame]
      refine ⟨hlast, rfl, [], (List.append_nil _).symm, ?_⟩
      rw [countHint_sent]
      exact (List.append_nil _).symm
    · have hnew : frame.runner.lastPollError ≠ some error := fun hs => hsame (hs.symm.trans hlast)
      rw [pollBackend_new a.received frame hr hnew, Account.polled, if_neg hsame]
      refine ⟨rfl, rfl, [.background error], rfl, ?_⟩
      rw [countHint_sent, SharedState.publishEvent_sent]
      rfl

/-- What a poll does to the diagnostics. -/
theorem pollBackend_diagnostics (didWork : Bool) (frame : BlockingFrame B eventCapacity)
    {result : Except BackendError Bool} (hr : (WifiBackend.poll frame.runner.backend).1 = result) :
    blockingRunnerDiagnostics (pollBackend didWork frame).2.shared =
      let old := blockingRunnerDiagnostics frame.shared
      {old with
        backendPollCalls := saturatingIncrement old.backendPollCalls
        backendPollWorkBatches := bif (Happening.polled result).isWork then
            saturatingIncrement old.backendPollWorkBatches
          else old.backendPollWorkBatches
        backendPollErrors := bif (Happening.polled result).isFailure then
            saturatingIncrement old.backendPollErrors
          else old.backendPollErrors
        immediateRepollHints := bif (pollBackend didWork frame).1 then
            saturatingIncrement old.immediateRepollHints
          else old.immediateRepollHints} := by
  cases result with
  | ok work =>
    rw [pollBackend_ok didWork frame hr]
    cases didWork <;> cases work <;> rfl
  | error error =>
    by_cases hsame : frame.runner.lastPollError = some error
    · rw [pollBackend_repeated didWork frame hr hsame]
      cases didWork <;> rfl
    · rw [pollBackend_new didWork frame hr hsame, countHint_diagnostics, publishEvent_diagnostics]
      rfl

/-- Saturated counters count one more happening, if it is one of theirs. -/
theorem saturated_concat (p : Happening → Bool) (x : Happening) :
    saturated ((history ++ [x]).countP p) =
      bif p x then saturatingIncrement (saturated (history.countP p))
      else saturated (history.countP p) := by
  rw [countP_concat, saturatingIncrement_saturated]
  cases p x <;> rfl

/-- A step of the shared state that the runner has no part in. -/
structure Aside (shared next : SharedState eventCapacity) : Prop where
  /-- No event is published. -/
  sent : next.events.sent = shared.events.sent
  /-- Only the occupancy of the command channel is new in the diagnostics. -/
  diagnostics : blockingRunnerDiagnostics next = {blockingRunnerDiagnostics shared with
    commandQueuePending := next.commands.queued.length
    commandQueueHighWater := next.commandHighWater.toNat}
  /-- The high water says whether a command was ever sent. -/
  highWater : shared.commandHighWater.toNat = min 1 shared.commands.sent.length →
    next.commandHighWater.toNat = min 1 next.commands.sent.length

omit [WifiBackend B] in
/-- A step of the controller is one aside. -/
theorem control_aside (plane : ControlPlane) (shared : SharedState eventCapacity)
    (step : ControlStep) : Aside shared (plane.step shared step).2 := by
  cases step with
  | nextEvent =>
    show Aside shared (ControlPlane.nextEvent shared)
    unfold ControlPlane.nextEvent
    cases hq : shared.events.queued with
    | nil =>
      rw [tryReceive_of_nil hq]
      exact ⟨rfl, rfl, id⟩
    | cons event rest =>
      have hsent := tryReceive_sent shared.events
      obtain ⟨events, hx, -⟩ := tryReceive_taken hq
      rw [hx] at hsent ⊢
      exact ⟨hsent, rfl, id⟩
  | send =>
    unfold ControlPlane.step ControlPlane.sendCommand
    cases plane.future with
    | sending sequence call =>
      dsimp only
      by_cases hroom : shared.commands.queued.length < 1
      · obtain ⟨commands, hx, hsent, -⟩ := trySend_accepted ⟨sequence, call.command⟩ hroom
        rw [hx]
        refine ⟨rfl, rfl, fun hw => ?_⟩
        have hlen : commands.sent.length = shared.commands.sent.length + 1 := by
          rw [hsent, List.length_append, List.length_singleton]
        have hmax : (max shared.commandHighWater 1).toNat = max shared.commandHighWater.toNat 1 := by
          show (if shared.commandHighWater ≤ 1 then 1 else shared.commandHighWater).toNat = _
          split
          · next hle => exact (Nat.max_eq_right (UInt32.le_iff_toNat_le.mp hle)).symm
          · next hgt => exact (Nat.max_eq_left (by
              rw [UInt32.le_iff_toNat_le] at hgt
              exact Nat.le_of_lt (Nat.lt_of_not_le hgt))).symm
        show (max shared.commandHighWater 1).toNat = min 1 commands.sent.length
        rw [hmax, hw, hlen]
        omega
      · rw [trySend_of_full hroom]
        exact ⟨rfl, rfl, id⟩
    | _ => exact ⟨rfl, rfl, id⟩
  | observe =>
    unfold ControlPlane.step ControlPlane.observeCompletion
    cases plane.future with
    | waiting sequence call =>
      dsimp only
      split
      · split <;> exact ⟨rfl, rfl, id⟩
      · exact ⟨rfl, rfl, id⟩
    | _ => exact ⟨rfl, rfl, id⟩
  | finish =>
    unfold ControlPlane.step ControlPlane.finishCall
    cases plane.future with
    | finishing sequence call kind =>
      dsimp only
      split <;> exact ⟨rfl, rfl, id⟩
    | _ => exact ⟨rfl, rfl, id⟩
  | _ =>
    unfold ControlPlane.step
    cases plane.future <;> exact ⟨rfl, rfl, id⟩

omit [WifiBackend B] in
/-- An aside changes none of what the runner accounts for. -/
theorem Accounted.aside (h : Accounted history s) {shared : SharedState eventCapacity}
    (ha : Aside s.frame.shared shared) (plane : ControlPlane) :
    Accounted history {s with plane := plane, frame := {s.frame with shared := shared}} := by
  have hold := congrArg BlockingRunnerDiagnostics.commandQueueHighWater h.diagnostics
  refine ⟨h.lastError, h.received, ha.sent.trans h.events, ?_⟩
  show blockingRunnerDiagnostics shared = accountedDiagnostics history shared.commands
  rw [ha.diagnostics, h.diagnostics, ha.highWater hold]
  rfl

omit [WifiBackend B] in
/-- Diagnostics that one more happening accounts for. -/
theorem accountedDiagnostics_concat (x : Happening) (commands : Channel Command 1) :
    accountedDiagnostics (history ++ [x]) commands =
      let old := accountedDiagnostics history commands
      {old with
        runOnceCalls := bif x.isBegan then saturatingIncrement old.runOnceCalls
          else old.runOnceCalls
        commandsProcessed := bif x.isCalled then saturatingIncrement old.commandsProcessed
          else old.commandsProcessed
        backendPollCalls := bif x.result.isSome then saturatingIncrement old.backendPollCalls
          else old.backendPollCalls
        backendPollWorkBatches := bif x.isWork then saturatingIncrement old.backendPollWorkBatches
          else old.backendPollWorkBatches
        backendPollErrors := bif x.isFailure then saturatingIncrement old.backendPollErrors
          else old.backendPollErrors
        immediateRepollHints := saturated (((account history).next x).answers.count true)} := by
  simp only [accountedDiagnostics, saturated_concat, account_concat]

omit [WifiBackend B] in
/-- Receiving a command changes the pending number only. -/
theorem accountedDiagnostics_received (commands : Channel Command 1) :
    accountedDiagnostics history commands.tryReceive.2 =
      {accountedDiagnostics history commands with
        commandQueuePending := commands.tryReceive.2.queued.length} := by
  simp only [accountedDiagnostics, tryReceive_sent]

/-- A poll is accounted for. -/
theorem Accounted.polled (h : Accounted history s) {result : Except BackendError Bool}
    (hr : (WifiBackend.poll s.frame.runner.backend).1 = result) :
    Accounted (history ++ [.polled result])
        {s with frame := (pollBackend (account history).received s.frame).2, phase := .idle} ∧
      (account (history ++ [.polled result])).answers =
        (account history).answers ++ [(pollBackend (account history).received s.frame).1] := by
  obtain ⟨herror, hanswers, announced, hnew, hsent⟩ := pollBackend_account s.frame h.lastError hr
  have hdiagnostics := pollBackend_diagnostics (account history).received s.frame hr
  have hcommands : (pollBackend (account history).received s.frame).2.shared.commands =
      s.frame.shared.commands :=
    congrArg Mailbox.commands (BlockingService.pollBackend_mailbox _ s.frame)
  have hhints : saturated (((account history).polled result).answers.count true) =
      bif (pollBackend (account history).received s.frame).1 then
        saturatingIncrement (saturated ((account history).answers.count true))
      else saturated ((account history).answers.count true) := by
    rw [hanswers, List.count_append, saturatingIncrement_saturated]
    cases (pollBackend (account history).received s.frame).1 <;> rfl
  have hidle : ((account history).polled result).received = false := by
    cases result with
    | ok work => rfl
    | error error =>
      rw [Account.polled]
      split <;> rfl
  refine ⟨⟨?_, ?_, ?_, ?_⟩, ?_⟩
  · rw [account_concat]
    exact herror
  · rw [account_concat]
    exact hidle.symm
  · rw [account_concat]
    show (pollBackend (account history).received s.frame).2.shared.events.sent =
      ((account history).polled result).announced.filterMap Announcement.event
    rw [hsent, hnew, h.events, List.filterMap_append]
  · show blockingRunnerDiagnostics (pollBackend (account history).received s.frame).2.shared =
      accountedDiagnostics _ (pollBackend (account history).received s.frame).2.shared.commands
    rw [hdiagnostics, hcommands, accountedDiagnostics_concat, h.diagnostics, Account.next, hhints]
    rfl
  · rw [account_concat]
    exact hanswers

omit [WifiBackend B] in
/-- The beginning of a call is accounted for. -/
theorem Accounted.began (h : Accounted history s) (phase : BlockingPhase)
    (commands : Channel Command 1)
    (hc : commands = s.frame.shared.commands ∨ commands = s.frame.shared.commands.tryReceive.2) :
    Accounted (history ++ [.began (worked phase)]) {s with
      frame := {countCall s.frame with shared :=
        {(countCall s.frame).shared with commands := commands}}
      phase := phase} := by
  refine ⟨?_, ?_, ?_, ?_⟩
  · rw [account_concat]
    exact h.lastError
  · rw [account_concat]
    rfl
  · rw [account_concat]
    exact h.events
  · have hnew : accountedDiagnostics history commands =
        {accountedDiagnostics history s.frame.shared.commands with
          commandQueuePending := commands.queued.length} := by
      rcases hc with rfl | rfl
      · rfl
      · exact accountedDiagnostics_received _
    show {blockingRunnerDiagnostics s.frame.shared with
      commandQueuePending := commands.queued.length
      runOnceCalls := saturatingIncrement
        (blockingRunnerDiagnostics s.frame.shared).runOnceCalls} =
      accountedDiagnostics _ commands
    rw [accountedDiagnostics_concat, hnew, h.diagnostics]
    rfl

omit [WifiBackend B] in
/-- The cancellation of a command is accounted for. -/
theorem Accounted.cancelled (h : Accounted history s) (command : Command) {phase : BlockingPhase}
    (hp : worked phase = worked s.phase) :
    Accounted (history ++ [.cancelled]) {s with
      frame := {s.frame with shared := cancelCommand command s.frame.shared}
      phase := phase} := by
  refine ⟨?_, ?_, ?_, ?_⟩
  · rw [account_concat]
    exact h.lastError
  · rw [account_concat]
    exact hp.trans h.received
  · rw [account_concat]
    show (s.frame.shared.publishEvent (.failed cancelledError)).events.sent = _
    rw [SharedState.publishEvent_sent, h.events, Account.next, List.filterMap_append]
    rfl
  · have hpublished := publishEvent_diagnostics (.failed cancelledError) s.frame.shared
    have hcommands : (cancelCommand command s.frame.shared).commands = s.frame.shared.commands :=
      congrArg Mailbox.commands (BlockingService.cancelCommand_mailbox command s.frame.shared)
    show blockingRunnerDiagnostics (s.frame.shared.publishEvent (.failed cancelledError)) =
      accountedDiagnostics _ (cancelCommand command s.frame.shared).commands
    rw [hpublished, hcommands, accountedDiagnostics_concat, h.diagnostics]
    rfl

/-- A backend call is accounted for. -/
theorem Accounted.called (h : Accounted history s) (command : Command) {phase : BlockingPhase}
    (hp : worked phase = worked s.phase) (called : List Command) :
    Accounted (history ++ [.called (callBackend command s.frame).1]) {s with
      frame := (callBackend command s.frame).2
      phase := phase
      called := called} := by
  obtain ⟨herror, hsent, hcalled⟩ := callBackend_account command s.frame
  obtain ⟨scanResults, hmailbox⟩ := BlockingService.callBackend_mailbox command s.frame
  have hcommands : (callBackend command s.frame).2.shared.commands = s.frame.shared.commands :=
    congrArg Mailbox.commands hmailbox
  refine ⟨?_, ?_, ?_, ?_⟩
  · rw [account_concat]
    exact herror.trans h.lastError
  · rw [account_concat]
    exact hp.trans h.received
  · rw [account_concat]
    show (callBackend command s.frame).2.shared.events.sent = _
    rw [hsent, h.events, Account.next, List.filterMap_append]
    cases he : eventOf (callBackend command s.frame).1 <;> simp [Announcement.event, he]
  · have hprocessed : blockingRunnerDiagnostics (callBackend command s.frame).2.shared =
        {blockingRunnerDiagnostics s.frame.shared with
          commandsProcessed := saturatingIncrement
            (blockingRunnerDiagnostics s.frame.shared).commandsProcessed} := hcalled
    show blockingRunnerDiagnostics (callBackend command s.frame).2.shared =
      accountedDiagnostics _ (callBackend command s.frame).2.shared.commands
    rw [hprocessed, hcommands, accountedDiagnostics_concat, h.diagnostics]
    rfl

/-- A step of the runner is accounted for. -/
theorem Accounted.runner (h : Accounted history s) (mode : BlockingMode) :
    Accounted (history ++ (happening mode s).toList) (runnerStep mode s).1 ∧
      (account (history ++ (happening mode s).toList)).answers =
        (account history).answers ++ (runnerStep mode s).2.toList := by
  have hreceived := h.received
  unfold runnerStep happening
  cases hp : s.phase with
  | idle =>
    rw [hp] at hreceived
    cases mode with
    | runOnce =>
      cases hq : s.frame.shared.commands.queued with
      | nil =>
        have hn : receiveCommand (countCall s.frame) = (none, countCall s.frame) :=
          BlockingService.receiveCommand_of_nil hq
        simp only [hn, Option.toList_some, Option.toList_none, List.append_nil, account_concat]
        exact ⟨h.began (.polling false) _ (Or.inl rfl), rfl⟩
      | cons command rest =>
        have hn := @BlockingService.receiveCommand_of_cons _ _ (countCall s.frame) command rest hq
        simp only [hn, Option.toList_some, Option.toList_none, List.append_nil, account_concat]
        exact ⟨h.began (.draining command true) _ (Or.inr rfl), rfl⟩
    | run =>
      cases hq : s.frame.shared.commands.queued with
      | nil =>
        simp only [BlockingService.receiveCommand_of_nil hq, Option.toList_none, List.append_nil]
        exact ⟨⟨h.lastError, hreceived, h.events, h.diagnostics⟩, trivial⟩
      | cons command rest =>
        simp only [BlockingService.receiveCommand_of_cons hq, Option.toList_none, List.append_nil]
        refine ⟨⟨h.lastError, hreceived, h.events, ?_⟩, trivial⟩
        show {blockingRunnerDiagnostics s.frame.shared with
            commandQueuePending := s.frame.shared.commands.tryReceive.2.queued.length} =
          accountedDiagnostics _ s.frame.shared.commands.tryReceive.2
        rw [accountedDiagnostics_received, h.diagnostics]
  | draining command polls =>
    rw [hp] at hreceived
    cases hq : s.frame.shared.cancellations.queued with
    | nil =>
      simp only [tryReceive_of_nil hq, Option.toList_none, List.append_nil]
      exact ⟨⟨h.lastError, hreceived, h.events, h.diagnostics⟩, trivial⟩
    | cons taken rest =>
      obtain ⟨cancellations, hx, -⟩ := tryReceive_taken hq
      simp only [hx, Option.toList_none, List.append_nil]
      refine ⟨⟨h.lastError, ?_, h.events, h.diagnostics⟩, trivial⟩
      show worked (if taken = command.sequence then _ else _) = _
      split <;> exact hreceived
  | cancelling command polls =>
    have hworked : worked (afterSignal polls) = worked s.phase := by
      rw [hp]
      cases polls <;> rfl
    simp only [Option.toList_some, Option.toList_none, List.append_nil, account_concat]
    exact ⟨h.cancelled command hworked, rfl⟩
  | processing command polls =>
    have hworked : worked (.signalling command (callBackend command s.frame).1 polls) =
        worked s.phase := by
      rw [hp]
      rfl
    simp only [Option.toList_some, Option.toList_none, List.append_nil, account_concat]
    exact ⟨h.called command hworked _, rfl⟩
  | signalling command kind polls =>
    rw [hp] at hreceived
    simp only [Option.toList_none, List.append_nil]
    refine ⟨⟨h.lastError, ?_, h.events, h.diagnostics⟩, trivial⟩
    cases polls <;> exact hreceived
  | polling didWork =>
    have hwork : didWork = (account history).received := by
      rw [← hreceived, hp]
      rfl
    subst hwork
    exact h.polled rfl

/-- Every input is accounted for. -/
theorem Accounted.next (h : Accounted history s) (interrupt : E → B → B)
    (input : BlockingInput E) :
    Accounted (history ++ (seen s input).toList) ((blockingMachine interrupt).next s input) ∧
      (account (history ++ (seen s input).toList)).answers =
        (account history).answers ++ ((blockingMachine interrupt).output s input).toList := by
  cases input with
  | control step =>
    have hquiet : history ++ [] = history := List.append_nil _
    show Accounted (history ++ []) _ ∧ (account (history ++ [])).answers = _
    rw [hquiet]
    exact ⟨h.aside (control_aside s.plane s.frame.shared step) _, (List.append_nil _).symm⟩
  | runner mode => exact h.runner mode
  | backendEvent event =>
    have hquiet : history ++ [] = history := List.append_nil _
    show Accounted (history ++ []) _ ∧ (account (history ++ [])).answers = _
    rw [hquiet]
    exact ⟨⟨h.lastError, h.received, h.events, h.diagnostics⟩, (List.append_nil _).symm⟩

end Steps

section Runs

variable [WifiBackend B] (interrupt : E → B → B) (backend : B) (config : WifiConfig)
  (hpos : 0 < eventCapacity)

/-- What the runner of a run has to do with the world outside. -/
def happenings (inputs : List (BlockingInput E)) : List Happening :=
  (blockingMachine interrupt).observed seen (blockingStart backend config hpos) inputs

/-- Answers of `run_once` in a run. -/
def answers (inputs : List (BlockingInput E)) : List Bool :=
  ((blockingMachine interrupt).transcript (blockingStart backend config hpos) inputs).filterMap
    Prod.snd

/-- Every run is accounted for. -/
theorem run_accounted (inputs : List (BlockingInput E)) :
    Accounted (happenings interrupt backend config hpos inputs)
        ((blockingMachine interrupt).run (blockingStart backend config hpos) inputs) ∧
      (account (happenings interrupt backend config hpos inputs)).answers =
        answers interrupt backend config hpos inputs := by
  induction inputs using List.reverseRecOn with
  | nil => exact ⟨⟨rfl, rfl, rfl, rfl⟩, rfl⟩
  | append_singleton before input ih =>
    obtain ⟨haccounted, hanswers⟩ := ih
    obtain ⟨hnext, hanswer⟩ := haccounted.next interrupt input
    have hhistory : happenings interrupt backend config hpos (before ++ [input]) =
        happenings interrupt backend config hpos before ++ (seen ((blockingMachine interrupt).run
          (blockingStart backend config hpos) before) input).toList :=
      observed_concat ..
    have htranscript : answers interrupt backend config hpos (before ++ [input]) =
        answers interrupt backend config hpos before ++ ((blockingMachine interrupt).output
          ((blockingMachine interrupt).run (blockingStart backend config hpos) before)
          input).toList := by
      rw [answers, transcript_concat, List.filterMap_append, ← answers]
      cases (blockingMachine interrupt).output ((blockingMachine interrupt).run
        (blockingStart backend config hpos) before) input <;> rfl
    rw [run_concat, hhistory, htranscript, ← hanswers]
    exact ⟨hnext, hanswer⟩

/-- The events of the blocking runner, its answers and its diagnostics in every interleaving.
The background errors it announces are the changes of the errors of its polls; as long as the
polls only succeed or fail with one error, it is announced at most once more than there are
successes. A call is to be repeated at once only for a command, background work or an
announced error. -/
theorem background_announced (inputs : List (BlockingInput E)) :
    let s := (blockingMachine interrupt).run (blockingStart backend config hpos) inputs
    let history := happenings interrupt backend config hpos inputs
    let announced := (account history).announced
    let errors := announced.filterMap Announcement.error
    s.frame.shared.events.sent = announced.filterMap Announcement.event ∧
    errors = (changes none (failures history)).reduceOption ∧
    (∀ error, (∀ x ∈ failures history, x = some error ∨ x = none) →
      errors.length ≤ (failures history).count none + 1) ∧
    answers interrupt backend config hpos inputs = (account history).answers ∧
    (answers interrupt backend config hpos inputs).count true ≤
      history.countP Happening.isReceived + history.countP Happening.isWork + errors.length ∧
    blockingRunnerDiagnostics s.frame.shared =
      accountedDiagnostics history s.frame.shared.commands := by
  intro s history announced errors
  obtain ⟨haccounted, hanswers⟩ := run_accounted interrupt backend config hpos inputs
  have herrors : errors = (changes none (failures history)).reduceOption :=
    account_background history
  have hhints := account_answers history
  refine ⟨haccounted.events, herrors, fun error hall => ?_, hanswers.symm, ?_,
    haccounted.diagnostics⟩
  · rw [herrors]
    exact length_reduceOption_changes_le error none (failures history) hall
  · rw [← hanswers]
    exact le_trans (Nat.le_add_right _ _) hhints

end Runs

/-- A backend without commands, whose polls answer from a script. -/
structure PollScript where
  /-- Results of the next polls. -/
  polls : List (Except BackendError Bool)

instance : WifiBackend PollScript where
  initialise backend _ := (.ok (), backend)
  scan backend _ scanResults := (.ok ⟨0, false⟩, backend, scanResults)
  connect backend config := (.ok ⟨config.bssid, 0⟩, backend)
  disconnect backend _ := (.ok (), backend)
  poll backend := (backend.polls.headD (.ok false), ⟨backend.polls.tail⟩)

/-- A background that fails twice, recovers and fails again. -/
def relapse : PollScript :=
  ⟨[.error cancelledError, .error cancelledError, .ok false, .error cancelledError]⟩

/-- Four calls without a command. -/
def fourCalls : List (BlockingInput Unit) := List.replicate 8 (.runner .runOnce)

/-- A relapsing background is announced twice. -/
theorem background_announced_relapse :
    ((blockingMachine fun _ backend => backend).run (blockingStart relapse .default Nat.one_pos)
        fourCalls).frame.shared.events.sent = [.failed cancelledError, .failed cancelledError] ∧
      (answers (fun _ backend => backend) relapse .default Nat.one_pos fourCalls).count true ≤ 2 := by
  obtain ⟨hevents, -, -, -, hanswers, -⟩ :=
    background_announced (fun _ backend => backend) relapse .default Nat.one_pos fourCalls
  refine ⟨hevents.trans (by decide +kernel), le_trans hanswers (by decide +kernel)⟩

end HisiRfCore.BackgroundPolls
