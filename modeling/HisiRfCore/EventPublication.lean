import HisiRfCore.InputOutputMachine
import HisiRfCore.AsyncControl

/-!
# Publication of Wi-Fi events

A full event queue drops its oldest event: a failed send, an eviction and a second
send, between any two of which the controller may read the queue. The newest event is
never the one lost. The dropped counter counts each eviction, also one that found the
queue already emptied by the controller.
-/

namespace HisiRfCore.EventPublication

open BoundedChannel WifiTypes RadioStorage AsyncControl InputOutputMachine

variable {eventCapacity : ℕ}

/-- Where the runner stands in `publish_event`. -/
inductive Publication
  | ready
  | evicting (event : WifiEvent)
  | dropping (event : WifiEvent)
  | resending (event : WifiEvent)
  | counting
  | measuring
  | raising (depth : UInt32)
  deriving DecidableEq

/-- Where the controller stands in `next_event`. -/
inductive Receipt
  | ready
  | counting (event : WifiEvent)
  deriving DecidableEq

/-- The shared state with the places of runner and controller. -/
structure EventSystem (eventCapacity : ℕ) where
  /-- The shared state. -/
  shared : SharedState eventCapacity
  /-- The runner. -/
  runner : Publication
  /-- The controller. -/
  controller : Receipt

/-- An atomic step: the first step of a call, or the next one of the call in progress. -/
inductive EventInput
  | publish (event : WifiEvent)
  | runner
  | nextEvent
  | controller
  deriving DecidableEq

/-- What happens in the step. -/
inductive EventOutput
  | entered
  | full
  | lost
  | evicted (oldest : Option WifiEvent)
  | received (event : WifiEvent)
  | nothing
  deriving DecidableEq

namespace EventSystem

/-- One channel operation or counter update. -/
def step (s : EventSystem eventCapacity) : EventInput → EventSystem eventCapacity × EventOutput
  | .publish event =>
    match s.runner with
    | .ready =>
      match s.shared.events.trySend event with
      | (.ok (), events) =>
        ({s with shared := {s.shared with events := events}, runner := .counting}, .entered)
      | (.error event, events) =>
        ({s with shared := {s.shared with events := events}, runner := .evicting event}, .full)
    | _ => (s, .nothing)
  | .runner =>
    match s.runner with
    | .ready => (s, .nothing)
    | .evicting event =>
      ({s with
        shared := {s.shared with events := s.shared.events.tryReceive.2}
        runner := .dropping event}, .evicted s.shared.events.tryReceive.1)
    | .dropping event =>
      ({s with
        shared := {s.shared with droppedEvents := saturatingIncrement s.shared.droppedEvents}
        runner := .resending event}, .nothing)
    | .resending event =>
      match s.shared.events.trySend event with
      | (.ok (), events) =>
        ({s with shared := {s.shared with events := events}, runner := .counting}, .entered)
      | (.error _, events) =>
        ({s with shared := {s.shared with events := events}, runner := .measuring}, .lost)
    | .counting =>
      ({s with
        shared := {s.shared with acceptedEvents := saturatingIncrement s.shared.acceptedEvents}
        runner := .measuring}, .nothing)
    | .measuring =>
      ({s with
        runner := .raising (.ofNat (min s.shared.events.queued.length (UInt32.size - 1)))},
        .nothing)
    | .raising depth =>
      ({s with
        shared := {s.shared with eventHighWater := max s.shared.eventHighWater depth}
        runner := .ready}, .nothing)
  | .nextEvent =>
    match s.controller with
    | .counting _ => (s, .nothing)
    | .ready =>
      match s.shared.events.tryReceive with
      | (none, _) => (s, .nothing)
      | (some event, events) =>
        ({s with shared := {s.shared with events := events}, controller := .counting event},
          .nothing)
  | .controller =>
    match s.controller with
    | .ready => (s, .nothing)
    | .counting event =>
      ({s with
        shared := {s.shared with consumedEvents := saturatingIncrement s.shared.consumedEvents}
        controller := .ready}, .received event)

/-- Neither party is inside a call. -/
def Quiet (s : EventSystem eventCapacity) : Prop := s.runner = .ready ∧ s.controller = .ready

end EventSystem

/-- Runner and controller, interleaved. -/
def eventMachine : Machine (EventSystem eventCapacity) EventInput EventOutput := ⟨EventSystem.step⟩

/-- A whole publication is its steps with nothing in between. -/
theorem publishEvent_steps (s : EventSystem eventCapacity) (event : WifiEvent)
    (h : s.runner = .ready) :
    eventMachine.run s (.publish event :: List.replicate 6 .runner) =
      {s with shared := s.shared.publishEvent event} := by
  rcases s with ⟨shared, runner, controller⟩
  cases h
  rcases hx : shared.events.trySend event with ⟨event' | _, events⟩
  · rcases hy : events.tryReceive.2.trySend event' with ⟨_ | _, events'⟩ <;>
      simp [eventMachine, Machine.next, EventSystem.step, SharedState.publishEvent,
        SharedState.recordEventDepth, List.replicate, hx, hy]
  · simp [eventMachine, Machine.next, EventSystem.step, SharedState.publishEvent,
      SharedState.recordEventDepth, List.replicate, hx]

/-- A whole read is its steps with nothing in between. -/
theorem nextEvent_steps (s : EventSystem eventCapacity) (h : s.controller = .ready) :
    eventMachine.run s [.nextEvent, .controller] =
      {s with shared := ControlPlane.nextEvent s.shared} := by
  rcases s with ⟨shared, runner, controller⟩
  cases h
  rcases hx : shared.events.tryReceive with ⟨_ | _, events⟩ <;>
    simp [eventMachine, Machine.next, EventSystem.step, ControlPlane.nextEvent, hx]

/-- Steps of a run with what happened in each. -/
abbrev EventHistory := List (EventInput × EventOutput)

/-- Events of the calls of `publish_event`, in order. -/
def published (history : EventHistory) : List WifiEvent :=
  history.filterMap fun
    | (.publish event, .entered) | (.publish event, .full) => some event
    | _ => none

/-- Events discarded unread, in order. -/
def evicted (history : EventHistory) : List WifiEvent :=
  history.filterMap fun
    | (_, .evicted oldest) => oldest
    | _ => none

/-- Events delivered to the controller, in order. -/
def delivered (history : EventHistory) : List WifiEvent :=
  history.filterMap fun
    | (_, .received event) => some event
    | _ => none

/-- Evictions that found the queue empty. -/
def emptyEvictions (history : EventHistory) : ℕ :=
  history.countP fun entry => entry.2 == .evicted none

/-- Each history grows by what its last step shows. -/
theorem published_concat (history : EventHistory) (entry : EventInput × EventOutput) :
    published (history ++ [entry]) = published history ++ published [entry] :=
  List.filterMap_append

@[inherit_doc published_concat]
theorem delivered_concat (history : EventHistory) (entry : EventInput × EventOutput) :
    delivered (history ++ [entry]) = delivered history ++ delivered [entry] :=
  List.filterMap_append

@[inherit_doc published_concat]
theorem evicted_concat (history : EventHistory) (entry : EventInput × EventOutput) :
    evicted (history ++ [entry]) = evicted history ++ evicted [entry] :=
  List.filterMap_append

@[inherit_doc published_concat]
theorem emptyEvictions_concat (history : EventHistory) (entry : EventInput × EventOutput) :
    emptyEvictions (history ++ [entry]) = emptyEvictions history + emptyEvictions [entry] :=
  List.countP_append

/-- Event of a publication that has not entered the queue. -/
def Publication.waiting : Publication → List WifiEvent
  | .evicting event | .dropping event | .resending event => [event]
  | _ => []

/-- Event taken by the controller and not yet delivered. -/
def Receipt.held : Receipt → List WifiEvent
  | .ready => []
  | .counting event => [event]

/-- The publications enter the queue in order, and leave it read or evicted. -/
structure Kept (history : EventHistory) (s : EventSystem eventCapacity) : Prop where
  /-- Each publication but the one in progress has entered the queue. -/
  entered : published history = s.shared.events.sent ++ s.runner.waiting
  /-- After an eviction there is room for the newest event. -/
  room : ∀ event, s.runner = .dropping event ∨ s.runner = .resending event →
    s.shared.events.queued.length < eventCapacity
  /-- Delivered events left the queue in order. -/
  delivered : (EventPublication.delivered history ++ s.controller.held).Sublist
    s.shared.events.received
  /-- So did evicted ones. -/
  evicted : (EventPublication.evicted history).Sublist s.shared.events.received
  /-- The newest event was not evicted. -/
  newest : (EventPublication.evicted history).Sublist (published history).dropLast
  /-- Every event that left was delivered or evicted. -/
  left : s.shared.events.received.length = (EventPublication.delivered history).length +
    s.controller.held.length + (EventPublication.evicted history).length

section Steps

variable {s next : EventSystem eventCapacity} {history : EventHistory}
  {entry : EventInput × EventOutput}

/-- What one step adds to the histories it moves through the queue. -/
structure Moves (s : EventSystem eventCapacity) (entry : EventInput × EventOutput)
    (next : EventSystem eventCapacity) : Prop where
  /-- A publication enters the queue or waits. -/
  entered : s.shared.events.sent ++ s.runner.waiting ++ published [entry] =
    next.shared.events.sent ++ next.runner.waiting
  /-- What leaves the queue is taken by the controller or evicted. -/
  left : ∃ taken, next.shared.events.received =
      s.shared.events.received ++ (taken ++ evicted [entry]) ∧
    s.controller.held ++ taken = delivered [entry] ++ next.controller.held
  /-- An eviction makes way for a newer event. -/
  evicts : evicted [entry] = [] ∨ ∃ event, next.runner.waiting = [event]

/-- Such a step keeps the order. -/
theorem Kept.concat (h : Kept history s) (hm : Moves s entry next)
    (hr : ∀ event, next.runner = .dropping event ∨ next.runner = .resending event →
      next.shared.events.queued.length < eventCapacity) : Kept (history ++ [entry]) next := by
  obtain ⟨taken, hreceived, hheld⟩ := hm.left
  have hentered : published (history ++ [entry]) =
      next.shared.events.sent ++ next.runner.waiting := by
    rw [published_concat, h.entered, hm.entered]
  have hgone : (EventPublication.evicted (history ++ [entry])).Sublist
      next.shared.events.received := by
    rw [evicted_concat, hreceived]
    exact h.evicted.append (List.sublist_append_right _ _)
  refine ⟨hentered, hr, ?_, hgone, ?_, ?_⟩
  · rw [delivered_concat, List.append_assoc, ← hheld, ← List.append_assoc, hreceived]
    exact h.delivered.append (List.sublist_append_left _ _)
  · rcases hm.evicts with hnone | ⟨event, hwaiting⟩
    · rw [evicted_concat, hnone, List.append_nil, published_concat]
      refine h.newest.trans ?_
      cases hp : published [entry] with
      | nil => rw [List.append_nil]
      | cons x xs =>
        rw [List.dropLast_append_of_ne_nil (List.cons_ne_nil x xs)]
        exact (List.dropLast_sublist _).trans (List.sublist_append_left _ _)
    · rw [hentered, hwaiting, List.dropLast_concat, Channel.sent]
      exact hgone.trans (List.sublist_append_left _ _)
  · have hlen := congrArg List.length hheld
    simp only [List.length_append] at hlen
    rw [hreceived, delivered_concat, evicted_concat]
    simp only [List.length_append]
    have hleft := h.left
    omega

/-- A step that moves no event. -/
theorem moves_nothing (hs : next.shared.events = s.shared.events)
    (hw : next.runner.waiting = s.runner.waiting) (hc : next.controller = s.controller)
    (hp : published [entry] = []) (he : evicted [entry] = []) (hd : delivered [entry] = []) :
    Moves s entry next := by
  refine ⟨?_, ⟨[], ?_, ?_⟩, Or.inl he⟩
  · rw [hp, List.append_nil, hs, hw]
  · rw [he, hs, List.append_nil, List.append_nil]
  · rw [hd, hc, List.append_nil, List.nil_append]

/-- The first step of a publication keeps the order. -/
theorem kept_publish (h : Kept history s) (event : WifiEvent) :
    Kept (history ++ [(.publish event, (s.step (.publish event)).2)])
      (s.step (.publish event)).1 := by
  cases hp : s.runner with
  | ready =>
    simp only [EventSystem.step, hp]
    by_cases hlt : s.shared.events.queued.length < eventCapacity
    · obtain ⟨events, hx, hsent, hreceived, -⟩ := trySend_accepted event hlt
      rw [hx]
      refine h.concat ⟨?_, ⟨[], ?_, ?_⟩, Or.inl rfl⟩ (fun _ hr => by rcases hr with hr | hr <;> cases hr)
      · simpa [published, hp, Publication.waiting] using hsent.symm
      · simpa [evicted] using hreceived
      · simp [delivered]
    · rw [trySend_of_full hlt]
      refine h.concat ⟨?_, ⟨[], ?_, ?_⟩, Or.inl rfl⟩ (fun _ hr => by rcases hr with hr | hr <;> cases hr)
      · simp [published, hp, Publication.waiting]
      · simp [evicted]
      · simp [delivered]
  | _ =>
    simp only [EventSystem.step, hp]
    exact h.concat (moves_nothing rfl rfl rfl rfl rfl rfl) h.room

/-- So does each further step of the runner. -/
theorem kept_runner (h : Kept history s) :
    Kept (history ++ [(.runner, (s.step .runner).2)]) (s.step .runner).1 := by
  cases hp : s.runner with
  | ready =>
    simp only [EventSystem.step, hp]
    exact h.concat (moves_nothing rfl rfl rfl rfl rfl rfl) h.room
  | evicting event =>
    simp only [EventSystem.step, hp]
    have hsent := tryReceive_sent s.shared.events
    refine h.concat ⟨?_, ⟨[], ?_, ?_⟩, Or.inr ⟨event, rfl⟩⟩
      (fun _ _ => tryReceive_room _ s.shared.capacity_pos)
    · simp [published, hsent, hp, Publication.waiting]
    · cases hq : s.shared.events.queued with
      | nil => simp [tryReceive_of_nil hq, evicted]
      | cons oldest rest =>
        obtain ⟨hanswer, hreceived, -⟩ := tryReceive_of_cons hq
        simp [hanswer, hreceived, evicted]
    · simp [delivered]
  | dropping event =>
    simp only [EventSystem.step, hp]
    exact h.concat (moves_nothing rfl (by rw [hp]; rfl) rfl rfl rfl rfl)
      (fun _ _ => h.room event (Or.inl hp))
  | resending event =>
    have hlt := h.room event (Or.inr hp)
    obtain ⟨events, hx, hsent, hreceived, -⟩ := trySend_accepted event hlt
    simp only [EventSystem.step, hp, hx]
    refine h.concat ⟨?_, ⟨[], ?_, ?_⟩, Or.inl rfl⟩ (fun _ hr => by rcases hr with hr | hr <;> cases hr)
    · simpa [published, hp, Publication.waiting] using hsent.symm
    · simpa [evicted] using hreceived
    · simp [delivered]
  | counting =>
    simp only [EventSystem.step, hp]
    exact h.concat (moves_nothing rfl (by rw [hp]; rfl) rfl rfl rfl rfl)
      (fun _ hr => by rcases hr with hr | hr <;> cases hr)
  | measuring =>
    simp only [EventSystem.step, hp]
    exact h.concat (moves_nothing rfl (by rw [hp]; rfl) rfl rfl rfl rfl)
      (fun _ hr => by rcases hr with hr | hr <;> cases hr)
  | raising depth =>
    simp only [EventSystem.step, hp]
    exact h.concat (moves_nothing rfl (by rw [hp]; rfl) rfl rfl rfl rfl)
      (fun _ hr => by rcases hr with hr | hr <;> cases hr)

/-- So does the receipt of an event. -/
theorem kept_nextEvent (h : Kept history s) :
    Kept (history ++ [(.nextEvent, (s.step .nextEvent).2)]) (s.step .nextEvent).1 := by
  cases hc : s.controller with
  | counting event =>
    simp only [EventSystem.step, hc]
    exact h.concat (moves_nothing rfl rfl rfl rfl rfl rfl) h.room
  | ready =>
    cases hq : s.shared.events.queued with
    | nil =>
      simp only [EventSystem.step, hc, tryReceive_of_nil hq]
      exact h.concat (moves_nothing rfl rfl rfl rfl rfl rfl) h.room
    | cons event rest =>
      obtain ⟨events, hx, hsent, hreceived, hqueued⟩ := tryReceive_taken hq
      simp only [EventSystem.step, hc, hx]
      refine h.concat ⟨?_, ⟨[event], ?_, ?_⟩, Or.inl rfl⟩ ?_
      · simpa [published] using hsent.symm
      · simpa [evicted] using hreceived
      · simp [delivered, hc, Receipt.held]
      · intro newer hr
        have hlt := h.room newer hr
        rw [hq, List.length_cons] at hlt
        rw [hqueued]
        omega

/-- So does its delivery. -/
theorem kept_controller (h : Kept history s) :
    Kept (history ++ [(.controller, (s.step .controller).2)]) (s.step .controller).1 := by
  cases hc : s.controller with
  | ready =>
    simp only [EventSystem.step, hc]
    exact h.concat (moves_nothing rfl rfl rfl rfl rfl rfl) h.room
  | counting event =>
    simp only [EventSystem.step, hc]
    refine h.concat ⟨?_, ⟨[], ?_, ?_⟩, Or.inl rfl⟩ h.room
    · simp [published]
    · simp [evicted]
    · simp [delivered, hc, Receipt.held]

/-- Every step keeps the order. -/
theorem kept_step (h : Kept history s) (i : EventInput) :
    Kept (history ++ [(i, (s.step i).2)]) (s.step i).1 := by
  cases i with
  | publish event => exact kept_publish h event
  | runner => exact kept_runner h
  | nextEvent => exact kept_nextEvent h
  | controller => exact kept_controller h

end Steps

/-- Publication in progress that is not counted as accepted. -/
def Publication.unaccepted : Publication → ℕ
  | .evicting _ | .dropping _ | .resending _ | .counting => 1
  | _ => 0

/-- Eviction that is about to be made. -/
def Publication.unevicted : Publication → ℕ
  | .evicting _ => 1
  | _ => 0

/-- Eviction that is not counted as a drop. -/
def Publication.undropped : Publication → ℕ
  | .dropping _ => 1
  | _ => 0

/-- A counter that stays at the largest word. -/
def saturated (n : ℕ) : UInt32 := .ofNat (min n (UInt32.size - 1))

/-- Saturating increments count, up to the largest word. -/
theorem saturatingIncrement_saturated (n : ℕ) :
    saturatingIncrement (saturated n) = saturated (n + 1) := by
  have hn : (saturated n).toNat = min n (UInt32.size - 1) := by
    rw [saturated, UInt32.toNat_ofNat']
    exact Nat.mod_eq_of_lt (by simp only [UInt32.size]; omega)
  unfold saturatingIncrement
  split
  · next hlt =>
    rw [hn] at hlt
    have hmin : min (n + 1) (UInt32.size - 1) = min n (UInt32.size - 1) + 1 := by
      simp only [UInt32.size] at hlt ⊢
      omega
    rw [saturated, saturated, hmin, UInt32.ofNat_add]
    rfl
  · next hlt =>
    rw [hn] at hlt
    have hmin : min (n + 1) (UInt32.size - 1) = min n (UInt32.size - 1) := by
      simp only [UInt32.size] at hlt ⊢
      omega
    rw [saturated, saturated, hmin]

/-- Below the largest word a saturating counter is exact. -/
theorem saturated_toNat {n : ℕ} (h : n < 2 ^ 32 - 1) : (saturated n).toNat = n := by
  rw [saturated, UInt32.toNat_ofNat', Nat.min_eq_left (by simp only [UInt32.size]; omega)]
  exact Nat.mod_eq_of_lt (by omega)

/-- Each counter counts its steps, an eviction also when the queue was empty. -/
structure Counted (history : EventHistory) (s : EventSystem eventCapacity) : Prop where
  /-- Publications are counted as accepted. -/
  accepted : ∃ n, s.shared.acceptedEvents = saturated n ∧
    n + s.runner.unaccepted = (published history).length
  /-- Deliveries are counted as consumed. -/
  consumed : s.shared.consumedEvents = saturated (delivered history).length
  /-- Evictions are counted as dropped. -/
  dropped : ∃ n, s.shared.droppedEvents = saturated n ∧
    n + s.runner.undropped = (evicted history).length + emptyEvictions history
  /-- A publication makes at most one eviction. -/
  evictions : (evicted history).length + emptyEvictions history + s.runner.unevicted ≤
    (published history).length

section Counters

variable {s next : EventSystem eventCapacity} {history : EventHistory}
  {entry : EventInput × EventOutput}

/-- What one step adds to the counters and to what they count. -/
structure Counts (s : EventSystem eventCapacity) (entry : EventInput × EventOutput)
    (next : EventSystem eventCapacity) : Prop where
  /-- A publication is counted, or owed to the counter. -/
  accepted : next.shared.acceptedEvents = s.shared.acceptedEvents ∧
      next.runner.unaccepted = s.runner.unaccepted + (published [entry]).length ∨
    next.shared.acceptedEvents = saturatingIncrement s.shared.acceptedEvents ∧
      next.runner.unaccepted + 1 = s.runner.unaccepted + (published [entry]).length
  /-- A delivery is counted. -/
  consumed : next.shared.consumedEvents = s.shared.consumedEvents ∧
      (delivered [entry]).length = 0 ∨
    next.shared.consumedEvents = saturatingIncrement s.shared.consumedEvents ∧
      (delivered [entry]).length = 1
  /-- An eviction is counted, or owed to the counter. -/
  dropped : next.shared.droppedEvents = s.shared.droppedEvents ∧
      next.runner.undropped =
        s.runner.undropped + ((evicted [entry]).length + emptyEvictions [entry]) ∨
    next.shared.droppedEvents = saturatingIncrement s.shared.droppedEvents ∧
      next.runner.undropped + 1 =
        s.runner.undropped + ((evicted [entry]).length + emptyEvictions [entry])
  /-- An eviction is that of a publication in progress. -/
  evictions : (evicted [entry]).length + emptyEvictions [entry] + next.runner.unevicted ≤
    s.runner.unevicted + (published [entry]).length

/-- Such a step keeps the counters. -/
theorem Counted.concat (h : Counted history s) (hc : Counts s entry next) :
    Counted (history ++ [entry]) next := by
  obtain ⟨n, haccepted, hn⟩ := h.accepted
  obtain ⟨k, hdropped, hk⟩ := h.dropped
  refine ⟨?_, ?_, ?_, ?_⟩
  · rw [published_concat, List.length_append]
    rcases hc.accepted with ⟨hsame, howed⟩ | ⟨hmore, howed⟩
    · exact ⟨n, by rw [hsame, haccepted], by omega⟩
    · exact ⟨n + 1, by rw [hmore, haccepted, saturatingIncrement_saturated], by omega⟩
  · rw [delivered_concat, List.length_append]
    rcases hc.consumed with ⟨hsame, hnone⟩ | ⟨hmore, hone⟩
    · rw [hsame, hnone, h.consumed, Nat.add_zero]
    · rw [hmore, hone, h.consumed, saturatingIncrement_saturated]
  · rw [evicted_concat, emptyEvictions_concat, List.length_append]
    rcases hc.dropped with ⟨hsame, howed⟩ | ⟨hmore, howed⟩
    · exact ⟨k, by rw [hsame, hdropped], by omega⟩
    · exact ⟨k + 1, by rw [hmore, hdropped, saturatingIncrement_saturated], by omega⟩
  · have hevictions := h.evictions
    have hnew := hc.evictions
    rw [evicted_concat, emptyEvictions_concat, published_concat, List.length_append, List.length_append]
    omega

/-- A step that counts nothing and moves no publication. -/
theorem counts_nothing (hs : next.shared.acceptedEvents = s.shared.acceptedEvents)
    (hc : next.shared.consumedEvents = s.shared.consumedEvents)
    (hd : next.shared.droppedEvents = s.shared.droppedEvents)
    (hr : next.runner = s.runner) (hp : (published [entry]).length = 0)
    (he : (evicted [entry]).length + emptyEvictions [entry] = 0)
    (hv : (delivered [entry]).length = 0) : Counts s entry next := by
  refine ⟨Or.inl ⟨hs, ?_⟩, Or.inl ⟨hc, hv⟩, Or.inl ⟨hd, ?_⟩, ?_⟩
  · rw [hr, hp, Nat.add_zero]
  · rw [hr, he, Nat.add_zero]
  · rw [hr, he, hp]
    omega

/-- Every step counts what it does. -/
theorem counts_step (hk : Kept history s) (i : EventInput) :
    Counts s (i, (s.step i).2) (s.step i).1 := by
  cases i with
  | publish event =>
    cases hp : s.runner with
    | ready =>
      simp only [EventSystem.step, hp]
      rcases s.shared.events.trySend event with ⟨event' | _, events⟩
      · refine ⟨Or.inl ⟨rfl, ?_⟩, Or.inl ⟨rfl, rfl⟩, Or.inl ⟨rfl, ?_⟩, ?_⟩ <;> rw [hp] <;> rfl
      · refine ⟨Or.inl ⟨rfl, ?_⟩, Or.inl ⟨rfl, rfl⟩, Or.inl ⟨rfl, ?_⟩, ?_⟩ <;> rw [hp]
        · rfl
        · rfl
        · exact Nat.zero_le _
    | _ =>
      simp only [EventSystem.step, hp]
      exact counts_nothing rfl rfl rfl rfl rfl rfl rfl
  | runner =>
    cases hp : s.runner with
    | ready =>
      simp only [EventSystem.step, hp]
      exact counts_nothing rfl rfl rfl rfl rfl rfl rfl
    | evicting event =>
      simp only [EventSystem.step, hp]
      rcases s.shared.events.tryReceive.1 with _ | oldest
      all_goals
        refine ⟨Or.inl ⟨rfl, ?_⟩, Or.inl ⟨rfl, rfl⟩, Or.inl ⟨rfl, ?_⟩, ?_⟩ <;> rw [hp] <;> rfl
    | dropping event =>
      simp only [EventSystem.step, hp]
      refine ⟨Or.inl ⟨rfl, ?_⟩, Or.inl ⟨rfl, rfl⟩, Or.inr ⟨rfl, ?_⟩, ?_⟩ <;> rw [hp] <;> rfl
    | resending event =>
      obtain ⟨events, hx, -⟩ := trySend_accepted event (hk.room event (Or.inr hp))
      simp only [EventSystem.step, hp, hx]
      refine ⟨Or.inl ⟨rfl, ?_⟩, Or.inl ⟨rfl, rfl⟩, Or.inl ⟨rfl, ?_⟩, ?_⟩ <;> rw [hp] <;> rfl
    | counting =>
      simp only [EventSystem.step, hp]
      refine ⟨Or.inr ⟨rfl, ?_⟩, Or.inl ⟨rfl, rfl⟩, Or.inl ⟨rfl, ?_⟩, ?_⟩ <;> rw [hp] <;> rfl
    | measuring =>
      simp only [EventSystem.step, hp]
      refine ⟨Or.inl ⟨rfl, ?_⟩, Or.inl ⟨rfl, rfl⟩, Or.inl ⟨rfl, ?_⟩, ?_⟩ <;> rw [hp] <;> rfl
    | raising depth =>
      simp only [EventSystem.step, hp]
      refine ⟨Or.inl ⟨rfl, ?_⟩, Or.inl ⟨rfl, rfl⟩, Or.inl ⟨rfl, ?_⟩, ?_⟩ <;> rw [hp] <;> rfl
  | nextEvent =>
    cases hc : s.controller with
    | counting event =>
      simp only [EventSystem.step, hc]
      exact counts_nothing rfl rfl rfl rfl rfl rfl rfl
    | ready =>
      simp only [EventSystem.step, hc]
      rcases s.shared.events.tryReceive with ⟨_ | event, events⟩ <;>
        exact counts_nothing rfl rfl rfl rfl rfl rfl rfl
  | controller =>
    cases hc : s.controller with
    | ready =>
      simp only [EventSystem.step, hc]
      exact counts_nothing rfl rfl rfl rfl rfl rfl rfl
    | counting event =>
      simp only [EventSystem.step, hc]
      exact ⟨Or.inl ⟨rfl, rfl⟩, Or.inr ⟨rfl, rfl⟩, Or.inl ⟨rfl, rfl⟩, Nat.le_of_eq (Nat.zero_add _)⟩

end Counters

section Runs

variable (hpos : 0 < eventCapacity)

/-- The queue after a schedule of runner and controller. -/
def eventRun (inputs : List EventInput) : EventSystem eventCapacity :=
  eventMachine.run ⟨.new hpos, .ready, .ready⟩ inputs

/-- Steps of that schedule with what happened in each. -/
def eventHistory (inputs : List EventInput) : EventHistory :=
  eventMachine.transcript (⟨.new hpos, .ready, .ready⟩ : EventSystem eventCapacity) inputs

/-- Nothing is published at the start. -/
theorem kept_new :
    Kept [] (⟨.new hpos, .ready, .ready⟩ : EventSystem eventCapacity) := by
  refine ⟨rfl, ?_, .slnil, .slnil, .slnil, rfl⟩
  rintro event (hr | hr) <;> cases hr

/-- Order and counters are kept after every schedule. -/
theorem run_counted (inputs : List EventInput) :
    Kept (eventHistory hpos inputs) (eventRun hpos inputs) ∧
      Counted (eventHistory hpos inputs) (eventRun hpos inputs) := by
  refine transcript_invariant eventMachine (G := fun _ => True)
    (I := fun history s => Kept history s ∧ Counted history s) ⟨kept_new hpos, ?_⟩
    (fun _ _ _ => trivial) ?_ inputs trivial
  · exact ⟨⟨0, rfl, rfl⟩, rfl, ⟨0, rfl, rfl⟩, Nat.le_refl _⟩
  · exact fun history s i _ h => ⟨kept_step h.1 i, h.2.concat (counts_step h.1 i)⟩

/-- Under every schedule the second send of a publication finds room, the queue holds
the newest published events between publications, the delivered events are published
ones in their order, and no publication evicts its own event. -/
theorem newest_events_kept (inputs : List EventInput) :
    (∀ event, (eventRun hpos inputs).runner = .resending event →
      ((eventRun hpos inputs).shared.events.trySend event).1 = .ok ()) ∧
    ((eventRun hpos inputs).runner = .ready →
      (eventRun hpos inputs).shared.events.sent = published (eventHistory hpos inputs) ∧
      (eventRun hpos inputs).shared.events.queued <:+ published (eventHistory hpos inputs)) ∧
    (eventRun hpos inputs).shared.events.queued.length ≤ eventCapacity ∧
    (delivered (eventHistory hpos inputs)).Sublist (published (eventHistory hpos inputs)) ∧
    (evicted (eventHistory hpos inputs)).Sublist (published (eventHistory hpos inputs)).dropLast := by
  have h := (run_counted hpos inputs).1
  generalize eventRun hpos inputs = s at h ⊢
  refine ⟨?_, ?_, s.shared.events.bounded, ?_, h.newest⟩
  · intro event hr
    exact (trySend_of_lt (h.room event (Or.inr hr))).1
  · intro hr
    have hentered := h.entered
    simp only [hr, Publication.waiting, List.append_nil] at hentered
    refine ⟨hentered.symm, ?_⟩
    rw [hentered, Channel.sent]
    exact List.suffix_append _ _
  · have hleft : (delivered (eventHistory hpos inputs)).Sublist s.shared.events.received :=
      (List.sublist_append_left _ _).trans h.delivered
    rw [h.entered, Channel.sent, List.append_assoc]
    exact hleft.trans (List.sublist_append_left _ _)

/-- Only the runner's eviction from an empty queue is empty. -/
theorem evicted_none_iff (s : EventSystem eventCapacity) (i : EventInput) :
    (s.step i).2 = .evicted none ↔
      i = .runner ∧ ∃ event, s.runner = .evicting event ∧ s.shared.events.queued = [] := by
  constructor
  · intro h
    cases i with
    | publish event =>
      cases hr : s.runner with
      | ready =>
        simp only [EventSystem.step, hr] at h
        rcases hx : s.shared.events.trySend event with ⟨_ | _, events⟩ <;>
          simp only [hx, reduceCtorEq] at h
      | _ => simp only [EventSystem.step, hr, reduceCtorEq] at h
    | runner =>
      cases hr : s.runner with
      | evicting event =>
        refine ⟨rfl, event, rfl, ?_⟩
        simp only [EventSystem.step, hr, EventOutput.evicted.injEq] at h
        cases hq : s.shared.events.queued with
        | nil => rfl
        | cons oldest rest => cases (tryReceive_of_cons hq).1.symm.trans h
      | resending event =>
        simp only [EventSystem.step, hr] at h
        rcases hx : s.shared.events.trySend event with ⟨_ | _, events⟩ <;>
          simp only [hx, reduceCtorEq] at h
      | _ => simp only [EventSystem.step, hr, reduceCtorEq] at h
    | nextEvent =>
      cases hc : s.controller with
      | counting event => simp only [EventSystem.step, hc, reduceCtorEq] at h
      | ready =>
        simp only [EventSystem.step, hc] at h
        rcases hx : s.shared.events.tryReceive with ⟨_ | _, events⟩ <;>
          simp only [hx, reduceCtorEq] at h
    | controller =>
      cases hc : s.controller <;> simp only [EventSystem.step, hc, reduceCtorEq] at h
  · rintro ⟨rfl, event, hr, hq⟩
    simp only [EventSystem.step, hr, tryReceive_of_nil hq]

/-- An eviction is empty only when the controller has emptied the queue since the send. -/
theorem emptyEvictions_iff (inputs : List EventInput) :
    emptyEvictions (eventHistory hpos inputs) = 0 ↔
      ∀ before after, inputs = before ++ .runner :: after →
        ∀ event, (eventRun hpos before).runner = .evicting event →
          (eventRun hpos before).shared.events.queued ≠ [] := by
  rw [emptyEvictions, List.countP_eq_zero]
  constructor
  · intro h before after he event hr hq
    refine h (.runner, .evicted none) (mem_transcript eventMachine |>.mpr ⟨before, after, he, ?_⟩)
      (by simp)
    exact (evicted_none_iff _ _).mpr ⟨rfl, event, hr, hq⟩
  · rintro h ⟨i, o⟩ hm ho
    obtain ⟨before, after, he, hout⟩ := (mem_transcript eventMachine).mp hm
    rw [beq_iff_eq] at ho
    obtain ⟨rfl, event, hr, hq⟩ := (evicted_none_iff _ _).mp (hout.trans ho)
    exact h before after he event hr hq

/-- Outside calls and below the largest word the accepted events are the consumed, the
pending and the dropped ones exactly when no eviction found the queue empty. -/
theorem drops_counted_iff (inputs : List EventInput) (hq : (eventRun hpos inputs).Quiet)
    (hb : (published (eventHistory hpos inputs)).length < 2 ^ 32 - 1) :
    (eventRun hpos inputs).shared.acceptedEvents.toNat =
        (eventRun hpos inputs).shared.consumedEvents.toNat +
          (eventRun hpos inputs).shared.events.queued.length +
          (eventRun hpos inputs).shared.droppedEvents.toNat ↔
      ∀ before after, inputs = before ++ .runner :: after →
        ∀ event, (eventRun hpos before).runner = .evicting event →
          (eventRun hpos before).shared.events.queued ≠ [] := by
  rw [← emptyEvictions_iff]
  obtain ⟨hk, hc⟩ := run_counted hpos inputs
  generalize eventRun hpos inputs = s at hq hk hc ⊢
  generalize eventHistory hpos inputs = history at hb hk hc ⊢
  obtain ⟨hr, hcontroller⟩ := hq
  obtain ⟨n, haccepted, hn⟩ := hc.accepted
  obtain ⟨k, hdropped, hkn⟩ := hc.dropped
  have hevictions := hc.evictions
  have hleft := hk.left
  have hentered := congrArg List.length hk.entered
  simp only [hr, hcontroller, Publication.unaccepted, Publication.undropped,
    Publication.unevicted, Publication.waiting, Receipt.held, List.append_nil, List.length_nil,
    Channel.sent, List.length_append] at hn hkn hevictions hleft hentered
  rw [haccepted, hdropped, hc.consumed, saturated_toNat (by omega), saturated_toNat (by omega),
    saturated_toNat (by omega)]
  omega

end Runs

/-- A publication into a queue of one entry that the controller empties before the
eviction. -/
def emptiedBeforeEviction : List EventInput :=
  [.publish .initialized, .runner, .runner, .runner, .publish .initialized,
    .nextEvent, .controller] ++ List.replicate 6 .runner

/-- The same publications with the controller reading only after the second one. -/
def readAfterEviction : List EventInput :=
  [.publish .initialized, .runner, .runner, .runner, .publish .initialized] ++
    List.replicate 6 .runner ++ [.nextEvent, .controller]

/-- The second publication completes after the eviction of the first event. -/
theorem newest_events_kept_evicted :
    (eventRun Nat.one_pos readAfterEviction).shared.events.queued.length ≤ 1 ∧
      published (eventHistory Nat.one_pos readAfterEviction : EventHistory) =
        [.initialized, .initialized] :=
  ⟨(newest_events_kept Nat.one_pos readAfterEviction).2.2.1, by decide +kernel⟩

/-- A drop is counted that never happened. -/
theorem phantom_drop_counted :
    ¬ ∀ (capacity : ℕ) (hpos : 0 < capacity) (inputs : List EventInput),
      (eventRun hpos inputs).Quiet →
      (published (eventHistory hpos inputs)).length < 2 ^ 32 - 1 →
      (eventRun hpos inputs).shared.acceptedEvents.toNat =
        (eventRun hpos inputs).shared.consumedEvents.toNat +
          (eventRun hpos inputs).shared.events.queued.length +
          (eventRun hpos inputs).shared.droppedEvents.toNat := by
  intro h
  have hx := h 1 Nat.one_pos emptiedBeforeEviction ⟨by decide +kernel, by decide +kernel⟩
    (by decide +kernel)
  revert hx
  decide +kernel

/-- With the controller reading later the one drop is a discarded event. -/
theorem drops_counted_evicted :
    (eventRun Nat.one_pos readAfterEviction).shared.droppedEvents = 1 ∧
      ∀ before after, readAfterEviction = before ++ .runner :: after →
        ∀ event, (eventRun Nat.one_pos before).runner = .evicting event →
          (eventRun Nat.one_pos before).shared.events.queued ≠ [] :=
  ⟨by decide +kernel, (drops_counted_iff Nat.one_pos readAfterEviction
    ⟨by decide +kernel, by decide +kernel⟩ (by decide +kernel)).mp (by decide +kernel)⟩

end HisiRfCore.EventPublication
