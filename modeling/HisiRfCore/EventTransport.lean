import HisiRfCore.InputOutputMachine
import HisiRfCore.BoundedChannel
import Mathlib.Data.UInt
import Mathlib.Data.Nat.ModEq
import Mathlib.Data.List.Perm.Basic

/-!
# Unsolicited event transport

A bounded queue from one producer to one consumer. A full queue hands the event
back. The counters are updated after the channel operation and wrap, so what they
conserve is a congruence, and it holds whenever neither party is inside a call.
-/

namespace HisiRfCore.EventTransport

open BoundedChannel InputOutputMachine

variable {E : Type} {capacity : ℕ}

/-- Conservation snapshot for one bounded unsolicited-event queue. -/
structure EventQueueDiagnostics where
  /-- Events accepted from the runner. -/
  accepted : UInt32
  /-- Events consumed by the protocol handle. -/
  consumed : UInt32
  /-- Events rejected because the queue was full. -/
  dropped : UInt32
  /-- Events currently waiting for the protocol handle. -/
  pending : ℕ
  /-- Largest observed queue occupancy. -/
  highWater : ℕ
  deriving DecidableEq

/-- An unsolicited event could not enter the bounded queue. -/
structure EventPublishError (E : Type) where
  /-- The event rejected by backpressure. -/
  event : E
  deriving DecidableEq

/-- State for unsolicited protocol events. -/
structure EventState (E : Type) (capacity : ℕ) where
  /-- The bounded queue. -/
  events : Channel E capacity
  /-- Events accepted. -/
  accepted : UInt32
  /-- Events consumed. -/
  consumed : UInt32
  /-- Events rejected. -/
  dropped : UInt32
  /-- Largest observed occupancy. -/
  highWater : UInt32

namespace EventState

/-- Empty storage; the constructor asserts a capacity. -/
def new (_ : 0 < capacity) : EventState E capacity := ⟨.new, 0, 0, 0, 0⟩

/-- Snapshot of the counters and of the queue. -/
def diagnostics (state : EventState E capacity) : EventQueueDiagnostics where
  accepted := state.accepted
  consumed := state.consumed
  dropped := state.dropped
  pending := state.events.queued.length
  highWater := state.highWater.toNat

/-- Publish one event without blocking the radio runner. -/
def tryPublish (event : E) (state : EventState E capacity) :
    Except (EventPublishError E) Unit × EventState E capacity :=
  match state.events.trySend event with
  | (.ok (), events) =>
    (.ok (), {state with
      events := events
      accepted := state.accepted + 1
      highWater := max state.highWater (.ofNat events.queued.length)})
  | (.error event, events) =>
    (.error ⟨event⟩, {state with events := events, dropped := state.dropped + 1})

/-- Take the oldest event without waiting. -/
def tryNextEvent (state : EventState E capacity) : Option E × EventState E capacity :=
  match state.events.tryReceive with
  | (none, events) => (none, {state with events := events})
  | (some event, events) =>
    (some event, {state with events := events, consumed := state.consumed + 1})

end EventState

/-- Where the producer stands in `try_publish`. -/
inductive Publishing (E : Type)
  | ready
  | counting
  | measuring
  | raising (depth : UInt32)
  | refusing (event : E)
  deriving DecidableEq

/-- Where the consumer stands in a call that took an event. -/
inductive Receiving (E : Type)
  | ready
  | counting (event : E)
  deriving DecidableEq

/-- The queue with the places of its two owners. -/
structure EventSystem (E : Type) (capacity : ℕ) where
  /-- The shared state. -/
  state : EventState E capacity
  /-- The producer. -/
  producer : Publishing E
  /-- The consumer. -/
  consumer : Receiving E

/-- An atomic step: the first step of a call, or the next one of the call in progress. -/
inductive EventInput (E : Type)
  | tryPublish (event : E)
  | producer
  | tryNextEvent
  | nextEvent
  | consumer

/-- What the step shows to its owner. -/
inductive EventOutput (E : Type)
  | sent
  | full
  | published (answer : Except (EventPublishError E) Unit)
  | next (answer : Option E)
  | pending
  | nothing
  deriving DecidableEq

namespace EventSystem

/-- Take the oldest event; an empty queue gives the answer of the calling method. -/
def receive (s : EventSystem E capacity) (empty : EventOutput E) :
    EventSystem E capacity × EventOutput E :=
  match s.consumer with
  | .counting _ => (s, .nothing)
  | .ready =>
    match s.state.events.tryReceive with
    | (none, events) => ({s with state := {s.state with events := events}}, empty)
    | (some event, events) =>
      ({s with state := {s.state with events := events}, consumer := .counting event}, .nothing)

/-- One channel operation or counter update. -/
def step (s : EventSystem E capacity) : EventInput E → EventSystem E capacity × EventOutput E
  | .tryPublish event =>
    match s.producer with
    | .ready =>
      match s.state.events.trySend event with
      | (.ok (), events) =>
        ({s with state := {s.state with events := events}, producer := .counting}, .sent)
      | (.error event, events) =>
        ({s with state := {s.state with events := events}, producer := .refusing event}, .full)
    | _ => (s, .nothing)
  | .producer =>
    match s.producer with
    | .ready => (s, .nothing)
    | .counting =>
      ({s with
        state := {s.state with accepted := s.state.accepted + 1}, producer := .measuring}, .nothing)
    | .measuring =>
      ({s with producer := .raising (.ofNat s.state.events.queued.length)}, .nothing)
    | .raising depth =>
      ({s with
        state := {s.state with highWater := max s.state.highWater depth}, producer := .ready},
        .published (.ok ()))
    | .refusing event =>
      ({s with
        state := {s.state with dropped := s.state.dropped + 1}, producer := .ready},
        .published (.error ⟨event⟩))
  | .tryNextEvent => s.receive (.next none)
  | .nextEvent => s.receive .pending
  | .consumer =>
    match s.consumer with
    | .ready => (s, .nothing)
    | .counting event =>
      ({s with
        state := {s.state with consumed := s.state.consumed + 1}, consumer := .ready},
        .next (some event))

/-- Neither party is inside a call. -/
def Quiet (s : EventSystem E capacity) : Prop := s.producer = .ready ∧ s.consumer = .ready

end EventSystem

/-- Producer and consumer, interleaved. -/
def eventMachine : Machine (EventSystem E capacity) (EventInput E) (EventOutput E) :=
  ⟨EventSystem.step⟩

/-- A whole call of `try_publish` is its steps with nothing in between. -/
theorem tryPublish_steps (s : EventSystem E capacity) (event : E) (h : s.producer = .ready) :
    eventMachine.run s [.tryPublish event, .producer, .producer, .producer] =
      {s with state := (s.state.tryPublish event).2} := by
  rcases s with ⟨state, producer, consumer⟩
  cases h
  rcases hx : state.events.trySend event with ⟨_ | _, events⟩ <;>
    simp [eventMachine, Machine.next, EventSystem.step, EventState.tryPublish, hx]

/-- A whole call of `try_next_event` is its steps with nothing in between. -/
theorem tryNextEvent_steps (s : EventSystem E capacity) (h : s.consumer = .ready) :
    eventMachine.run s [.tryNextEvent, .consumer] =
      {s with state := s.state.tryNextEvent.2} := by
  rcases s with ⟨state, producer, consumer⟩
  cases h
  rcases hx : state.events.tryReceive with ⟨_ | _, events⟩ <;>
    simp [eventMachine, Machine.next, EventSystem.step, EventSystem.receive,
      EventState.tryNextEvent, hx]

/-- Steps of a run with what each showed. -/
abbrev EventHistory (E : Type) := List (EventInput E × EventOutput E)

/-- Events of the calls of `try_publish`, in order. -/
def submitted (history : EventHistory E) : List E :=
  history.filterMap fun
    | (.tryPublish event, .sent) | (.tryPublish event, .full) => some event
    | _ => none

/-- Events that entered the queue, in order. -/
def accepted (history : EventHistory E) : List E :=
  history.filterMap fun
    | (.tryPublish event, .sent) => some event
    | _ => none

/-- Events that found the queue full, in order. -/
def refused (history : EventHistory E) : List E :=
  history.filterMap fun
    | (.tryPublish event, .full) => some event
    | _ => none

/-- Events handed back to the publisher, in order. -/
def handedBack (history : EventHistory E) : List E :=
  history.filterMap fun
    | (_, .published (.error error)) => some error.event
    | _ => none

/-- Events returned to the consumer, in order. -/
def delivered (history : EventHistory E) : List E :=
  history.filterMap fun
    | (_, .next answer) => answer
    | _ => none

/-- Event taken from the queue and not yet returned. -/
def Receiving.held : Receiving E → List E
  | .ready => []
  | .counting event => [event]

/-- Event found too many and not yet handed back. -/
def Publishing.refused : Publishing E → List E
  | .refusing event => [event]
  | _ => []

/-- Event sent and not yet counted. -/
def Publishing.uncounted : Publishing E → UInt32
  | .counting => 1
  | _ => 0

/-- Each counter is its history's length, up to the call in progress and to the wrap. -/
structure Conserved (history : EventHistory E) (s : EventSystem E capacity) : Prop where
  /-- Each call was accepted or refused. -/
  calls : (submitted history).Perm (accepted history ++ refused history)
  /-- The accepted events are the traffic of the queue. -/
  sent : accepted history = s.state.events.sent
  /-- The delivered events are those taken from the queue. -/
  taken : delivered history ++ s.consumer.held = s.state.events.received
  /-- Refused events are handed back. -/
  returned : refused history = handedBack history ++ s.producer.refused
  /-- Accepted events are counted. -/
  acceptedCount : s.state.accepted + s.producer.uncounted = .ofNat (accepted history).length
  /-- Consumed events are counted. -/
  consumedCount : s.state.consumed = .ofNat (delivered history).length
  /-- Refused events are counted. -/
  droppedCount : s.state.dropped = .ofNat (handedBack history).length
  /-- No occupancy above the capacity was observed. -/
  highWater : s.state.highWater.toNat ≤ capacity
  /-- Nor is one about to be recorded. -/
  depth : ∀ depth, s.producer = .raising depth → depth.toNat ≤ capacity

section Steps

variable {s : EventSystem E capacity} {history : EventHistory E}

/-- A word holds no more than the number it was cut from. -/
theorem toNat_ofNat_le (n : ℕ) : (UInt32.ofNat n).toNat ≤ n := by
  rw [UInt32.toNat_ofNat']
  exact Nat.mod_le _ _

/-- The larger of two bounded words is bounded. -/
theorem toNat_max_le {a b : UInt32} {n : ℕ} (ha : a.toNat ≤ n) (hb : b.toNat ≤ n) :
    (max a b).toNat ≤ n := by
  show (if a ≤ b then b else a).toNat ≤ n
  split
  · exact hb
  · exact ha

/-- What one step adds to the histories it adds to the queue and to the counters. -/
structure Adds (s : EventSystem E capacity) (entry : EventInput E × EventOutput E)
    (next : EventSystem E capacity) : Prop where
  /-- A call is accepted or refused. -/
  calls : submitted [entry] = accepted [entry] ++ refused [entry]
  /-- An accepted event is sent. -/
  sent : next.state.events.sent = s.state.events.sent ++ accepted [entry]
  /-- An event taken from the queue is held until it is delivered. -/
  taken : ∃ new, next.state.events.received = s.state.events.received ++ new ∧
    s.consumer.held ++ new = delivered [entry] ++ next.consumer.held
  /-- A refused event is held until it is handed back. -/
  returned : s.producer.refused ++ refused [entry] = handedBack [entry] ++ next.producer.refused
  /-- An accepted event is counted. -/
  acceptedCount : next.state.accepted + next.producer.uncounted =
    s.state.accepted + s.producer.uncounted + .ofNat (accepted [entry]).length
  /-- A delivered event is counted. -/
  consumedCount : next.state.consumed = s.state.consumed + .ofNat (delivered [entry]).length
  /-- An event handed back is counted. -/
  droppedCount : next.state.dropped = s.state.dropped + .ofNat (handedBack [entry]).length

/-- Such a step keeps the counters. -/
theorem Conserved.concat {entry : EventInput E × EventOutput E} {next : EventSystem E capacity}
    (h : Conserved history s) (ha : Adds s entry next)
    (hw : next.state.highWater.toNat ≤ capacity)
    (hd : ∀ depth, next.producer = .raising depth → depth.toNat ≤ capacity) :
    Conserved (history ++ [entry]) next := by
  have hsubmitted : submitted (history ++ [entry]) = submitted history ++ submitted [entry] :=
    List.filterMap_append
  have haccepted : EventTransport.accepted (history ++ [entry]) =
      EventTransport.accepted history ++ EventTransport.accepted [entry] := List.filterMap_append
  have hrefused : refused (history ++ [entry]) = refused history ++ refused [entry] :=
    List.filterMap_append
  have hback : handedBack (history ++ [entry]) = handedBack history ++ handedBack [entry] :=
    List.filterMap_append
  have hdelivered : delivered (history ++ [entry]) = delivered history ++ delivered [entry] :=
    List.filterMap_append
  refine ⟨?_, ?_, ?_, ?_, ?_, ?_, ?_, hw, hd⟩
  · rw [hsubmitted, haccepted, hrefused, ha.calls]
    exact (h.calls.append_right _).trans (by
      simpa only [List.append_assoc] using
        (List.perm_append_comm_assoc (refused history) (EventTransport.accepted [entry])
          (refused [entry])).append_left (EventTransport.accepted history))
  · rw [haccepted, ha.sent, h.sent]
  · obtain ⟨new, hreceived, hheld⟩ := ha.taken
    rw [hdelivered, hreceived, ← h.taken, List.append_assoc, List.append_assoc, hheld]
  · rw [hrefused, hback, h.returned, List.append_assoc, List.append_assoc, ha.returned]
  · rw [haccepted, ha.acceptedCount, h.acceptedCount, List.length_append, UInt32.ofNat_add]
  · rw [hdelivered, ha.consumedCount, h.consumedCount, List.length_append, UInt32.ofNat_add]
  · rw [hback, ha.droppedCount, h.droppedCount, List.length_append, UInt32.ofNat_add]

/-- A step that changes nothing and returns no event adds nothing. -/
theorem adds_nothing (s : EventSystem E capacity) (i : EventInput E) (o : EventOutput E)
    (ho : o = .nothing ∨ o = .next none ∨ o = .pending) : Adds s (i, o) s := by
  have haccepted : accepted [(i, o)] = [] := by rcases ho with rfl | rfl | rfl <;> cases i <;> rfl
  have hrefused : refused [(i, o)] = [] := by rcases ho with rfl | rfl | rfl <;> cases i <;> rfl
  have hback : handedBack [(i, o)] = [] := by rcases ho with rfl | rfl | rfl <;> cases i <;> rfl
  have hdelivered : delivered [(i, o)] = [] := by
    rcases ho with rfl | rfl | rfl <;> cases i <;> rfl
  have hcalls : submitted [(i, o)] = [] := by rcases ho with rfl | rfl | rfl <;> cases i <;> rfl
  refine ⟨?_, ?_, ⟨[], ?_, ?_⟩, ?_, ?_, ?_, ?_⟩
  · rw [hcalls, haccepted, hrefused, List.append_nil]
  · rw [haccepted, List.append_nil]
  · rw [List.append_nil]
  · rw [hdelivered, List.append_nil, List.nil_append]
  · rw [hrefused, hback, List.append_nil, List.nil_append]
  · simp [haccepted]
  · simp [hdelivered]
  · simp [hback]

/-- The first step of `try_publish` keeps the counters. -/
theorem conserved_tryPublish (h : Conserved history s) (event : E) :
    Conserved (history ++ [(.tryPublish event, (s.step (.tryPublish event)).2)])
      (s.step (.tryPublish event)).1 := by
  cases hp : s.producer with
  | ready =>
    simp only [EventSystem.step, hp]
    by_cases hlt : s.state.events.queued.length < capacity
    · obtain ⟨events, hx, hsent, hreceived, -⟩ := trySend_accepted event hlt
      rw [hx]
      refine h.concat ⟨rfl, hsent, ⟨[], ?_, ?_⟩, ?_, ?_, ?_, ?_⟩ h.highWater (fun _ hd => by cases hd)
      · simpa using hreceived
      · simp [delivered]
      · simp [refused, handedBack, hp, Publishing.refused]
      · simp [accepted, hp, Publishing.uncounted]
      · simp [delivered]
      · simp [handedBack]
    · rw [trySend_of_full hlt]
      refine h.concat ⟨rfl, ?_, ⟨[], ?_, ?_⟩, ?_, ?_, ?_, ?_⟩ h.highWater (fun _ hd => by cases hd)
      · simp [accepted]
      · simp
      · simp [delivered]
      · simp [refused, handedBack, hp, Publishing.refused]
      · simp [accepted, hp, Publishing.uncounted]
      · simp [delivered]
      · simp [handedBack]
  | _ =>
    simp only [EventSystem.step, hp]
    exact h.concat (adds_nothing s _ _ (Or.inl rfl)) h.highWater h.depth

/-- A further step of the producer leaves the queue and the consumer alone. -/
theorem adds_producer {o : EventOutput E} {next : EventSystem E capacity}
    (ho : delivered [(EventInput.producer, o)] = [])
    (hevents : next.state.events = s.state.events) (hconsumer : next.consumer = s.consumer)
    (hconsumed : next.state.consumed = s.state.consumed)
    (hreturned : s.producer.refused = handedBack [(EventInput.producer, o)] ++ next.producer.refused)
    (haccepted : next.state.accepted + next.producer.uncounted =
      s.state.accepted + s.producer.uncounted)
    (hdropped : next.state.dropped =
      s.state.dropped + .ofNat (handedBack [(EventInput.producer, o)]).length) :
    Adds s (.producer, o) next := by
  refine ⟨rfl, ?_, ⟨[], ?_, ?_⟩, ?_, ?_, ?_, hdropped⟩
  · rw [hevents]
    exact (List.append_nil _).symm
  · rw [hevents, List.append_nil]
  · rw [hconsumer, ho, List.append_nil, List.nil_append]
  · rw [← hreturned]
    exact List.append_nil _
  · rw [haccepted]
    exact (UInt32.add_zero _).symm
  · rw [hconsumed, ho]
    exact (UInt32.add_zero _).symm

/-- So does each further step of the producer. -/
theorem conserved_producer (h : Conserved history s) :
    Conserved (history ++ [(.producer, (s.step .producer).2)]) (s.step .producer).1 := by
  cases hp : s.producer with
  | ready =>
    simp only [EventSystem.step, hp]
    exact h.concat (adds_nothing s _ _ (Or.inl rfl)) h.highWater h.depth
  | counting =>
    simp only [EventSystem.step, hp]
    refine h.concat (adds_producer rfl rfl rfl rfl ?_ ?_ ?_) h.highWater (fun _ hd => by cases hd)
    · rw [hp]
      rfl
    · rw [hp]
      exact UInt32.add_zero _
    · exact (UInt32.add_zero _).symm
  | measuring =>
    simp only [EventSystem.step, hp]
    refine h.concat (adds_producer rfl rfl rfl rfl ?_ ?_ ?_) h.highWater ?_
    · rw [hp]
      rfl
    · rw [hp]
      rfl
    · exact (UInt32.add_zero _).symm
    · intro depth hd
      cases hd
      exact (toNat_ofNat_le _).trans s.state.events.bounded
  | raising depth =>
    simp only [EventSystem.step, hp]
    refine h.concat (adds_producer rfl rfl rfl rfl ?_ ?_ ?_)
      (toNat_max_le h.highWater (h.depth depth hp)) (fun _ hd => by cases hd)
    · rw [hp]
      rfl
    · rw [hp]
      rfl
    · exact (UInt32.add_zero _).symm
  | refusing event =>
    simp only [EventSystem.step, hp]
    refine h.concat (adds_producer rfl rfl rfl rfl ?_ ?_ rfl) h.highWater (fun _ hd => by cases hd)
    · rw [hp]
      rfl
    · rw [hp]
      rfl

/-- An empty queue answers the calling method and stays as it is. -/
theorem receive_of_nil (hc : s.consumer = .ready) (hq : s.state.events.queued = [])
    (empty : EventOutput E) : s.receive empty = (s, empty) := by
  rcases s with ⟨state, producer, consumer⟩
  cases hc
  simp only [EventSystem.receive, tryReceive_of_nil hq]

/-- So does the receipt of an event, by either method. -/
theorem conserved_receive (h : Conserved history s) (i : EventInput E) (empty : EventOutput E)
    (he : empty = .next none ∨ empty = .pending) (hi : i = .tryNextEvent ∨ i = .nextEvent) :
    Conserved (history ++ [(i, (s.receive empty).2)]) (s.receive empty).1 := by
  cases hc : s.consumer with
  | counting event =>
    simp only [EventSystem.receive, hc]
    exact h.concat (adds_nothing s _ _ (Or.inl rfl)) h.highWater h.depth
  | ready =>
    cases hq : s.state.events.queued with
    | nil =>
      rw [receive_of_nil hc hq]
      exact h.concat (adds_nothing s _ _ (Or.inr he)) h.highWater h.depth
    | cons event rest =>
      obtain ⟨events, hx, hsent, hnew, -⟩ := tryReceive_taken hq
      simp only [EventSystem.receive, hc, hx]
      refine h.concat ⟨?_, ?_, ⟨[event], hnew, ?_⟩, ?_, ?_, ?_, ?_⟩ h.highWater h.depth
      · rcases hi with rfl | rfl <;> rfl
      · rcases hi with rfl | rfl <;> simpa [accepted] using hsent
      · simp [delivered, hc, Receiving.held]
      · rcases hi with rfl | rfl <;> simp [refused, handedBack]
      · rcases hi with rfl | rfl <;> simp [accepted]
      · simp [delivered]
      · simp [handedBack]

/-- So does the end of a call that took an event. -/
theorem conserved_consumer (h : Conserved history s) :
    Conserved (history ++ [(.consumer, (s.step .consumer).2)]) (s.step .consumer).1 := by
  cases hc : s.consumer with
  | ready =>
    simp only [EventSystem.step, hc]
    exact h.concat (adds_nothing s _ _ (Or.inl rfl)) h.highWater h.depth
  | counting event =>
    simp only [EventSystem.step, hc]
    refine h.concat ⟨rfl, ?_, ⟨[], ?_, ?_⟩, ?_, ?_, ?_, ?_⟩ h.highWater h.depth
    · simp [accepted]
    · simp
    · simp [delivered, hc, Receiving.held]
    · simp [refused, handedBack]
    · simp [accepted]
    · simp [delivered]
    · simp [handedBack]

end Steps

section Runs

variable (hpos : 0 < capacity)

/-- The queue after a schedule of both owners. -/
def eventRun (inputs : List (EventInput E)) : EventSystem E capacity :=
  eventMachine.run ⟨.new hpos, .ready, .ready⟩ inputs

/-- Steps of that schedule with what each showed. -/
def eventHistory (inputs : List (EventInput E)) : EventHistory E :=
  eventMachine.transcript (⟨.new hpos, .ready, .ready⟩ : EventSystem E capacity) inputs

/-- The counters agree with the histories after every schedule. -/
theorem run_conserved (inputs : List (EventInput E)) :
    Conserved (eventHistory hpos inputs) (eventRun hpos inputs) := by
  refine transcript_invariant eventMachine (G := fun _ => True) ?_ (fun _ _ _ => trivial) ?_
    inputs trivial
  · exact ⟨.refl _, rfl, rfl, rfl, rfl, rfl, rfl, Nat.zero_le _, fun _ hd => by cases hd⟩
  · intro history s i _ h
    cases i with
    | tryPublish event => exact conserved_tryPublish h event
    | producer => exact conserved_producer h
    | tryNextEvent => exact conserved_receive h _ _ (Or.inl rfl) (Or.inl rfl)
    | nextEvent => exact conserved_receive h _ _ (Or.inr rfl) (Or.inr rfl)
    | consumer => exact conserved_consumer h

/-- After every schedule the delivered events are a prefix of the accepted ones; outside
calls every refused event was handed back, and the counters agree with the queue and
with the calls up to the wrap. Of distinct events a refused one is never delivered. -/
theorem events_conserved (inputs : List (EventInput E)) :
    delivered (eventHistory hpos inputs) <+: accepted (eventHistory hpos inputs) ∧
    handedBack (eventHistory hpos inputs) <+: refused (eventHistory hpos inputs) ∧
    (submitted (eventHistory hpos inputs)).Perm
      (accepted (eventHistory hpos inputs) ++ refused (eventHistory hpos inputs)) ∧
    ((submitted (eventHistory hpos inputs)).Nodup → ∀ event ∈ refused (eventHistory hpos inputs),
      event ∉ delivered (eventHistory hpos inputs)) ∧
    ((eventRun hpos inputs).Quiet →
      handedBack (eventHistory hpos inputs) = refused (eventHistory hpos inputs) ∧
      (eventRun hpos inputs).state.diagnostics.accepted.toNat ≡
        (eventRun hpos inputs).state.diagnostics.consumed.toNat +
          (eventRun hpos inputs).state.diagnostics.pending [MOD 2 ^ 32] ∧
      (eventRun hpos inputs).state.diagnostics.accepted.toNat +
          (eventRun hpos inputs).state.diagnostics.dropped.toNat ≡
        (submitted (eventHistory hpos inputs)).length [MOD 2 ^ 32] ∧
      (eventRun hpos inputs).state.diagnostics.highWater ≤ capacity) := by
  have h := run_conserved hpos inputs
  generalize eventRun hpos inputs = s at h ⊢
  generalize eventHistory hpos inputs = history at h ⊢
  have hearlier : delivered history <+: accepted history := by
    rw [h.sent, Channel.sent, ← h.taken, List.append_assoc]
    exact List.prefix_append _ _
  refine ⟨hearlier, ?_, h.calls, ?_, ?_⟩
  · rw [h.returned]
    exact List.prefix_append _ _
  · intro hnodup event hrefused hdelivered
    have hboth := (h.calls.nodup_iff.mp hnodup)
    exact (List.nodup_append.mp hboth).2.2 event (hearlier.subset hdelivered) event hrefused rfl
  · rintro ⟨hp, hc⟩
    have htaken := h.taken
    have hreturned := h.returned
    have haccepted := h.acceptedCount
    have hcalls := h.calls.length_eq
    have hsent := congrArg List.length h.sent
    simp only [hp, hc, Receiving.held, Publishing.refused, Publishing.uncounted, List.append_nil,
      UInt32.add_zero] at htaken hreturned haccepted
    rw [List.length_append] at hcalls
    rw [Channel.sent, List.length_append, ← htaken] at hsent
    refine ⟨hreturned.symm, ?_, ?_, h.highWater⟩
    · simp only [EventState.diagnostics, haccepted, h.consumedCount, UInt32.toNat_ofNat', hsent]
      exact (Nat.mod_modEq _ _).trans ((Nat.mod_modEq _ _).symm.add_right _)
    · simp only [EventState.diagnostics, haccepted, h.droppedCount, UInt32.toNat_ofNat', hcalls,
        hreturned]
      exact (Nat.mod_modEq _ _).add (Nat.mod_modEq _ _)

end Runs

/-- One event is accepted and read, the next two leave the second of them refused. -/
def refusedPublication : List (EventInput ℕ) :=
  [.tryPublish 1, .producer, .producer, .producer, .tryNextEvent, .consumer,
    .tryPublish 2, .tryPublish 3, .producer, .producer, .producer, .tryPublish 3, .producer]

/-- The refused event is handed back, and the read one is a prefix of the accepted ones. -/
theorem events_conserved_refused :
    (delivered (eventHistory Nat.one_pos refusedPublication : EventHistory ℕ) <+:
        accepted (eventHistory Nat.one_pos refusedPublication)) ∧
      handedBack (eventHistory Nat.one_pos refusedPublication : EventHistory ℕ) = [3] :=
  ⟨(@events_conserved ℕ 1 Nat.one_pos refusedPublication).1, by decide⟩

end HisiRfCore.EventTransport
