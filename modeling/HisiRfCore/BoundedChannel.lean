import Mathlib.Data.List.Basic

/-!
# Bounded FIFO channels and latest-value signals

A channel keeps the messages taken so far beside the messages still queued, so
that its whole traffic is one list: each sent message is received at most once,
in order, by construction. A signal is a single slot whose newest value wins;
it keeps the values written so far. Neither history is read by an operation.
-/

namespace HisiRfCore.BoundedChannel

variable {α : Type} {capacity : ℕ}

/-- A bounded queue; no state holds more messages than its capacity. -/
structure Channel (α : Type) (capacity : ℕ) where
  /-- Messages already taken, oldest first. -/
  received : List α
  /-- Messages waiting to be taken, oldest first. -/
  queued : List α
  /-- The queue never holds more than its capacity. -/
  bounded : queued.length ≤ capacity
  deriving DecidableEq

/-- An empty channel with no traffic yet. -/
def Channel.new : Channel α capacity := ⟨[], [], Nat.zero_le _⟩

/-- Every message the channel ever accepted, in order. -/
def Channel.sent (channel : Channel α capacity) : List α := channel.received ++ channel.queued

/-- Append a message, or hand it back when the queue is full. -/
def Channel.trySend (channel : Channel α capacity) (message : α) :
    Except α Unit × Channel α capacity :=
  if h : channel.queued.length < capacity then
    (.ok (), ⟨channel.received, channel.queued ++ [message], by
      rw [List.length_append, List.length_singleton]
      exact h⟩)
  else (.error message, channel)

/-- Take the oldest message, if there is one. -/
def Channel.tryReceive (channel : Channel α capacity) : Option α × Channel α capacity :=
  match channel with
  | ⟨_, [], _⟩ => (none, channel)
  | ⟨received, message :: rest, h⟩ =>
    (some message, ⟨received ++ [message], rest, Nat.le_of_succ_le h⟩)

/-- An accepted message is queued last and changes nothing else. -/
theorem trySend_of_lt {channel : Channel α capacity} {message : α}
    (h : channel.queued.length < capacity) :
    (channel.trySend message).1 = .ok () ∧
      (channel.trySend message).2.received = channel.received ∧
      (channel.trySend message).2.queued = channel.queued ++ [message] := by
  simp only [Channel.trySend, dif_pos h, and_self]

/-- A full queue hands the message back and is unchanged. -/
theorem trySend_of_full {channel : Channel α capacity} {message : α}
    (h : ¬ channel.queued.length < capacity) :
    channel.trySend message = (.error message, channel) := by
  simp only [Channel.trySend, dif_neg h]

/-- Sending takes nothing. -/
@[simp] theorem trySend_received (channel : Channel α capacity) (message : α) :
    (channel.trySend message).2.received = channel.received := by
  by_cases h : channel.queued.length < capacity
  · exact (trySend_of_lt h).2.1
  · rw [trySend_of_full h]

/-- Sending removes nothing from the queue. -/
theorem prefix_trySend_queued (channel : Channel α capacity) (message : α) :
    channel.queued <+: (channel.trySend message).2.queued := by
  by_cases h : channel.queued.length < capacity
  · rw [(trySend_of_lt h).2.2]
    exact List.prefix_append _ _
  · simp only [trySend_of_full h, List.prefix_refl]

/-- Sending only ever extends the traffic, by the sent message. -/
theorem trySend_sent_of_lt {channel : Channel α capacity} {message : α}
    (h : channel.queued.length < capacity) :
    (channel.trySend message).2.sent = channel.sent ++ [message] := by
  obtain ⟨-, hr, hq⟩ := @trySend_of_lt _ _ _ message h
  rw [Channel.sent, hr, hq, Channel.sent, List.append_assoc]

/-- With room a send is accepted, as a whole. -/
theorem trySend_accepted {channel : Channel α capacity} (message : α)
    (h : channel.queued.length < capacity) :
    ∃ next, channel.trySend message = (.ok (), next) ∧ next.sent = channel.sent ++ [message] ∧
      next.received = channel.received ∧ next.queued = channel.queued ++ [message] := by
  obtain ⟨hok, hreceived, hqueued⟩ := @trySend_of_lt _ _ _ message h
  exact ⟨_, Prod.ext hok rfl, trySend_sent_of_lt h, hreceived, hqueued⟩

/-- An empty queue returns nothing and is unchanged. -/
theorem tryReceive_of_nil {channel : Channel α capacity} (h : channel.queued = []) :
    channel.tryReceive = (none, channel) := by
  rcases channel with ⟨received, queued, hb⟩
  cases h
  rfl

/-- The oldest message moves from the queue to the received history. -/
theorem tryReceive_of_cons {channel : Channel α capacity} {message : α} {rest : List α}
    (h : channel.queued = message :: rest) :
    channel.tryReceive.1 = some message ∧
      channel.tryReceive.2.received = channel.received ++ [message] ∧
      channel.tryReceive.2.queued = rest := by
  rcases channel with ⟨received, queued, hb⟩
  cases h
  exact ⟨rfl, rfl, rfl⟩

/-- Receiving never changes the traffic. -/
@[simp] theorem tryReceive_sent (channel : Channel α capacity) :
    channel.tryReceive.2.sent = channel.sent := by
  rcases channel with ⟨received, queued, hb⟩
  cases queued with
  | nil => rfl
  | cons message rest => simp [Channel.tryReceive, Channel.sent]

/-- A queued message is received, as a whole. -/
theorem tryReceive_taken {channel : Channel α capacity} {message : α} {rest : List α}
    (h : channel.queued = message :: rest) :
    ∃ next, channel.tryReceive = (some message, next) ∧ next.sent = channel.sent ∧
      next.received = channel.received ++ [message] ∧ next.queued = rest := by
  obtain ⟨hsome, hreceived, hqueued⟩ := tryReceive_of_cons h
  exact ⟨_, Prod.ext hsome rfl, tryReceive_sent channel, hreceived, hqueued⟩

/-- After a receipt there is room, whether or not there was a message. -/
theorem tryReceive_room (channel : Channel α capacity) (hpos : 0 < capacity) :
    channel.tryReceive.2.queued.length < capacity := by
  cases hq : channel.queued with
  | nil =>
    rw [tryReceive_of_nil hq, hq]
    exact hpos
  | cons oldest rest =>
    have hb := channel.bounded
    rw [hq] at hb
    rw [(tryReceive_of_cons hq).2.2]
    exact hb

/-- A single slot whose newest value wins. -/
structure Signal (α : Type) where
  /-- Value waiting to be taken. -/
  value : Option α
  /-- Every value ever written, oldest first. -/
  written : List α
  deriving DecidableEq

/-- An empty signal. -/
def Signal.new : Signal α := ⟨none, []⟩

/-- Overwrite the slot. -/
def Signal.signal (s : Signal α) (value : α) : Signal α := ⟨some value, s.written ++ [value]⟩

/-- Take the value out of the slot. -/
def Signal.tryTake (s : Signal α) : Option α × Signal α := (s.value, ⟨none, s.written⟩)

@[simp] theorem signal_value (s : Signal α) (value : α) : (s.signal value).value = some value := rfl

@[simp] theorem signal_written (s : Signal α) (value : α) :
    (s.signal value).written = s.written ++ [value] := rfl

end HisiRfCore.BoundedChannel
