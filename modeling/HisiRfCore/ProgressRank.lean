import HisiRfCore.AttentiveBackends
import HisiRfCore.IncrementalService

/-!
# Steps until a command is answered

The commands that wait for their completions are the one that ended, the active one and a
line behind them. The rank of the commands of one sequence counts the steps of the runner
until so many of them have their completions: six for each call that the commands up to
the last of them need, and six for each command behind. Every step of a call with all
sources ready lowers it.
-/

namespace HisiRfCore.ProgressRank

open WifiTypes RadioStorage IncrementalContract CommandArbitration BackendDriver
open IncrementalFacade IncrementalInterleaving IncrementalService AttentiveBackends

/-- Calls for the commands of a queue up to so many of one sequence, and one for each behind
them. -/
def share (full : ℕ) (q : UInt32) : ℕ → List UInt32 → ℕ
  | _, [] => 0
  | m, x :: rest => (if m = 0 then 1 else full) + share full q (m - [x].count q) rest

/-- A command joins the queue behind those that are waited for. -/
theorem share_append {full m : ℕ} {q : UInt32} {queue : List UInt32} (h : m ≤ queue.count q)
    (x : UInt32) : share full q m (queue ++ [x]) = share full q m queue + 1 := by
  induction queue generalizing m with
  | nil =>
    obtain rfl : m = 0 := Nat.le_zero.mp h
    rfl
  | cons y rest ih =>
    have hsplit : ([y] ++ rest).count q = [y].count q + rest.count q := List.count_append
    rw [List.singleton_append] at hsplit
    have hrest := ih (m := m - [y].count q) (by omega)
    simp only [List.cons_append, share, hrest]
    omega

/-- Each command of the queue takes no more than the full share. -/
theorem share_le {full : ℕ} (hf : 0 < full) (q : UInt32) (m : ℕ) (queue : List UInt32) :
    share full q m queue ≤ full * queue.length := by
  induction queue generalizing m with
  | nil => exact Nat.le_refl _
  | cons y rest ih =>
    have hrest := ih (m - [y].count q)
    rw [List.length_cons, Nat.mul_succ]
    unfold share
    split <;> omega

/-- What counts for the completions to come: the load of the driver, the position of the runner,
the queued commands and the sequences that have their completions. -/
structure Progress where
  /-- Load of the driver. -/
  load : Load
  /-- Position of the runner. -/
  phase : IncrementalPhase
  /-- Commands in the channel. -/
  queued : List Command
  /-- Sequences of the completions. -/
  written : List UInt32

/-- Steps to the next drive, after which six make a call. -/
def stepsToDrive : IncrementalPhase → ℕ
  | .idle => 4
  | .submitting _ _ => 3
  | .sampling _ => 2
  | .requesting _ _ => 1
  | .driving _ => 0
  | .publishing _ => 5

namespace Progress

/-- A command that ended without its completion, and the active one. -/
def begun (p : Progress) : List UInt32 :=
  ((ended p.phase).toList ++ p.load.active.toList).map CommandSequence.get

/-- Commands that wait for a slot, in their order. -/
def line (p : Progress) : List UInt32 :=
  p.load.pending.toList.map CommandSequence.get ++
    ((entering p.phase).toList ++ p.queued).map Command.sequence

/-- Commands without their completions. -/
def outstanding (p : Progress) : List UInt32 := p.begun ++ p.line

/-- Calls until so many commands of a sequence have ended. -/
def callsLeft (bound : ℕ) (q : UInt32) (k : ℕ) (p : Progress) : ℕ :=
  p.load.work + share (bound + 3) q (k - (p.written ++ p.begun).count q) p.line

/-- The drive of the call cannot advance anything. -/
def wasted (p : Progress) : Bool :=
  match p.phase with
  | .submitting _ ready => !allReady ready
  | .sampling ready | .requesting _ ready | .driving ready =>
    !allReady ready || (p.load.active.isNone && p.load.pending.isNone)
  | .idle | .publishing _ => false

/-- Steps of the runner until so many commands of a sequence have their completions. -/
def rank (bound : ℕ) (q : UInt32) (k : ℕ) (p : Progress) : ℕ :=
  if k ≤ (p.written ++ (ended p.phase).toList.map CommandSequence.get).count q then 1
  else 6 * p.callsLeft bound q k + stepsToDrive p.phase + if p.wasted then 6 else 0

end Progress

/-- A step of the runner, in a call with the given sources. -/
inductive Advances (bound : ℕ) (ready : WaitSet) : Progress → Progress → Prop
  | received {active : Option CommandSequence} {work : ℕ} {command : Command}
      {rest : List Command} {written : List UInt32} :
      Advances bound ready ⟨⟨active, none, work⟩, .idle, command :: rest, written⟩
        ⟨⟨active, none, work⟩, .submitting command ready, rest, written⟩
  | unreceived {v : Load} {queued : List Command} {written : List UInt32}
      (hn : queued = [] ∨ v.pending ≠ none) :
      Advances bound ready ⟨v, .idle, queued, written⟩ ⟨v, .sampling ready, queued, written⟩
  | submitted {active : Option CommandSequence} {work : ℕ} {command : Command}
      {sequence : CommandSequence} {ready' : WaitSet} {queued : List Command}
      {written : List UInt32} (hs : sequence.get = command.sequence) :
      Advances bound ready ⟨⟨active, none, work⟩, .submitting command ready', queued, written⟩
        ⟨⟨active, some sequence, work⟩, .sampling ready', queued, written⟩
  | sampled {v : Load} {x : UInt32} {ready' : WaitSet} {queued : List Command}
      {written : List UInt32} :
      Advances bound ready ⟨v, .sampling ready', queued, written⟩
        ⟨v, .requesting x ready', queued, written⟩
  | unsampled {v : Load} {ready' : WaitSet} {queued : List Command} {written : List UInt32} :
      Advances bound ready ⟨v, .sampling ready', queued, written⟩
        ⟨v, .driving ready', queued, written⟩
  | requested {v : Load} {x : UInt32} {ready' : WaitSet} {queued : List Command}
      {written : List UInt32} :
      Advances bound ready ⟨v, .requesting x ready', queued, written⟩
        ⟨v, .driving ready', queued, written⟩
  | removed {active : Option CommandSequence} {work : ℕ} {sequence : CommandSequence}
      {ready' : WaitSet} {queued : List Command} {written : List UInt32} :
      Advances bound ready
        ⟨⟨active, some sequence, work⟩, .requesting sequence.get ready', queued, written⟩
        ⟨⟨active, none, work⟩, .idle, queued, written ++ [sequence.get]⟩
  | driven {v w : Load} {event : IncrementalDriverEvent} {ready' : WaitSet}
      {queued : List Command} {written : List UInt32}
      (hd : Drives bound v event.terminal w ∨
        allReady ready' = false ∧ event.terminal = none ∧ w = v) :
      Advances bound ready ⟨v, .driving ready', queued, written⟩
        ⟨w, .publishing event, queued, written⟩
  | published {v : Load} {event : IncrementalDriverEvent} {sequence : CommandSequence}
      {queued : List Command} {written : List UInt32} (ht : event.terminal = some sequence) :
      Advances bound ready ⟨v, .publishing event, queued, written⟩
        ⟨v, .idle, queued, written ++ [sequence.get]⟩
  | unpublished {v : Load} {event : IncrementalDriverEvent} {queued : List Command}
      {written : List UInt32} (ht : event.terminal = none) :
      Advances bound ready ⟨v, .publishing event, queued, written⟩ ⟨v, .idle, queued, written⟩

section Rank

variable {bound k : ℕ} {q : UInt32} {p next : Progress} {ready : WaitSet}

/-- The rank while the commands that are waited for have not all ended. -/
theorem rank_of_lt
    (h : (p.written ++ (ended p.phase).toList.map CommandSequence.get).count q < k) :
    p.rank bound q k =
      6 * p.callsLeft bound q k + stepsToDrive p.phase + if p.wasted then 6 else 0 :=
  if_neg (Nat.not_le_of_lt h)

/-- There is always a step to go. -/
theorem rank_pos (h : k ≤ (p.written ++ p.outstanding).count q)
    (hw : p.load.active.isSome → 0 < p.load.work) : 0 < p.rank bound q k := by
  unfold Progress.rank
  split
  · exact Nat.one_pos
  · next hlt =>
    -- What is waited for is active, or stands in the line.
    have hcalls : 0 < p.callsLeft bound q k := by
      unfold Progress.callsLeft
      cases hactive : p.load.active with
      | some x => exact Nat.add_pos_left (hw (by rw [hactive]; rfl)) _
      | none =>
        refine Nat.add_pos_right _ ?_
        simp only [Progress.outstanding, Progress.begun, hactive, Option.toList_none,
          List.append_nil, List.count_append] at h hlt ⊢
        cases hline : p.line with
        | nil =>
          rw [hline, List.count_nil] at h
          omega
        | cons x rest =>
          unfold share
          split <;> omega
    omega

/-- A step that moves no command is a step of the call. -/
theorem rank_step (hn : p.written.count q < k) (hp : ended p.phase = none)
    (hnext : ended next.phase = none) (hw : next.written = p.written)
    (hs : next.load.work = p.load.work) (ha : next.load.active = p.load.active)
    (hl : next.line = p.line) (hd : stepsToDrive next.phase + 1 ≤ stepsToDrive p.phase)
    (hwasted : next.wasted = true → p.wasted = true) :
    next.rank bound q k + 1 ≤ p.rank bound q k := by
  have hbegun : next.begun = p.begun := by rw [Progress.begun, Progress.begun, hp, hnext, ha]
  have hcalls : next.callsLeft bound q k = p.callsLeft bound q k := by
    rw [Progress.callsLeft, Progress.callsLeft, hs, hw, hbegun, hl]
  have hlt : (p.written ++ (ended p.phase).toList.map CommandSequence.get).count q < k := by
    rw [hp]
    simpa using hn
  have hlt' : (next.written ++ (ended next.phase).toList.map CommandSequence.get).count q < k := by
    rw [hnext, hw]
    simpa using hn
  have hle : (if next.wasted = true then 6 else 0) ≤ if p.wasted = true then 6 else 0 := by
    cases hx : next.wasted with
    | false => exact Nat.zero_le _
    | true => rw [hwasted hx]
  rw [rank_of_lt hlt, rank_of_lt hlt', hcalls]
  omega

variable {queued : List Command} {written : List UInt32}

/-- The rank before a drive. -/
theorem rank_driving {v : Load} {ready' : WaitSet} (hn : written.count q < k) :
    Progress.rank bound q k ⟨v, .driving ready', queued, written⟩ =
      6 * (v.work + share (bound + 3) q
        (k - (written ++ v.active.toList.map CommandSequence.get).count q)
        (v.pending.toList.map CommandSequence.get ++ queued.map Command.sequence)) +
      if !allReady ready' || (v.active.isNone && v.pending.isNone) then 6 else 0 := by
  refine rank_of_lt ?_
  simpa [ended] using hn

/-- The rank after a drive: the command that ended only waits for its completion. -/
theorem rank_publishing {w : Load} {event : IncrementalDriverEvent} :
    Progress.rank bound q k ⟨w, .publishing event, queued, written⟩ =
      if k ≤ (written ++ event.terminal.toList.map CommandSequence.get).count q then 1
      else 6 * (w.work + share (bound + 3) q
        (k -
          (written ++ (event.terminal.toList ++ w.active.toList).map CommandSequence.get).count q)
        (w.pending.toList.map CommandSequence.get ++ queued.map Command.sequence)) + 5 := rfl

/-- A drive brings every command that is waited for closer to its completion. -/
theorem rank_drive {v w : Load} {event : IncrementalDriverEvent} {ready' : WaitSet}
    (hn : written.count q < k) (h : Drives bound v event.terminal w) :
    Progress.rank bound q k ⟨w, .publishing event, queued, written⟩ + 1 ≤
      Progress.rank bound q k ⟨v, .driving ready', queued, written⟩ := by
  rw [rank_driving hn, rank_publishing]
  generalize event.terminal = terminal at h
  cases h with
  | idle =>
    -- The command came after the call had looked at the channel.
    simp only [Option.toList_none, List.append_nil, List.map_nil, List.nil_append,
      Option.isNone_none, Bool.and_self, Bool.or_true, if_true]
    split <;> omega
  | @started x work hw =>
    have hmore : k - (written ++ [x.get]).count q = k - written.count q - [x.get].count q := by
      rw [List.count_append, Nat.sub_sub]
    have hnot : ¬ k ≤ written.count q := Nat.not_le_of_lt hn
    have hfirst : k - written.count q ≠ 0 := Nat.sub_ne_zero_of_lt hn
    simp only [Option.toList_none, Option.toList_some, List.append_nil, List.nil_append,
      List.map_nil, List.map_cons, List.cons_append, hnot, if_false, hmore, share, hfirst]
    omega
  | @rejected x =>
    have hmore : k - (written ++ [x.get]).count q = k - written.count q - [x.get].count q := by
      rw [List.count_append, Nat.sub_sub]
    have hfirst : k - written.count q ≠ 0 := Nat.sub_ne_zero_of_lt hn
    simp only [Option.toList_none, Option.toList_some, List.append_nil, List.nil_append,
      List.map_nil, List.map_cons, List.cons_append, hmore, share, hfirst, if_false]
    split <;> omega
  | @advanced x pending work less hw =>
    have hnot : ¬ k ≤ written.count q := Nat.not_le_of_lt hn
    simp only [Option.toList_none, Option.toList_some, List.append_nil, List.nil_append,
      List.map_nil, hnot, if_false]
    omega
  | @ended x pending work hw =>
    simp only [Option.toList_none, Option.toList_some, List.append_nil, List.map_cons,
      List.map_nil]
    split <;> omega

/-- A removed command costs at least the call that it took. -/
theorem rank_removed {active : Option CommandSequence} {work : ℕ} {sequence : CommandSequence}
    {ready' : WaitSet} (hn : (written ++ [sequence.get]).count q < k) :
    Progress.rank bound q k
        ⟨⟨active, none, work⟩, .idle, queued, written ++ [sequence.get]⟩ + 1 ≤
      Progress.rank bound q k
        ⟨⟨active, some sequence, work⟩, .requesting sequence.get ready', queued, written⟩ := by
  have hbefore : written.count q < k := by
    rw [List.count_append] at hn
    omega
  have hactive : k - (written ++ [sequence.get] ++ active.toList.map CommandSequence.get).count q =
      k - (written ++ active.toList.map CommandSequence.get).count q - [sequence.get].count q := by
    simp only [List.count_append]
    omega
  rw [rank_of_lt (by simpa [ended] using hn), rank_of_lt (by simpa [ended] using hbefore)]
  simp only [Progress.callsLeft, Progress.begun, Progress.line, ended, entering, stepsToDrive,
    Option.toList_none, Option.toList_some, List.nil_append, List.map_nil, List.map_cons,
    List.cons_append, hactive, share, Progress.wasted, Bool.false_eq_true, if_false]
  split <;> omega

/-- Every step of the runner in a call with all sources ready lowers the rank of the commands
that are waited for. -/
theorem rank_next (h : Advances bound ready p next)
    (hk : k ≤ (p.written ++ p.outstanding).count q) (hn : next.written.count q < k)
    (hall : allReady ready = true) : next.rank bound q k + 1 ≤ p.rank bound q k := by
  cases h with
  | @received active work command rest written =>
    refine rank_step hn rfl rfl rfl rfl rfl rfl (Nat.le_refl 4) fun hwasted => ?_
    simp only [Progress.wasted, hall, Bool.not_true, Bool.false_eq_true] at hwasted
  | @unreceived v queued written hempty =>
    refine rank_step hn rfl rfl rfl rfl rfl rfl (Nat.le_succ 3) fun hwasted => ?_
    -- Something is owned, or the command would have been received.
    simp only [Progress.wasted, hall, Bool.not_true, Bool.false_or, Bool.and_eq_true,
      Option.isNone_iff_eq_none] at hwasted
    have hnil : queued = [] := hempty.resolve_right fun hp => hp hwasted.2
    simp only [Progress.outstanding, Progress.begun, Progress.line, hwasted.1, hwasted.2, hnil,
      ended, entering, Option.toList_none, List.append_nil, List.map_nil] at hk
    exact absurd hk (Nat.not_le_of_lt hn)
  | @submitted active work command sequence ready' queued written hs =>
    refine rank_step hn rfl rfl rfl rfl rfl ?_ (Nat.le_refl 3) fun hwasted => ?_
    · simp only [Progress.line, entering, Option.toList_none, Option.toList_some, List.map_nil,
        List.map_append, List.map_cons, List.nil_append, hs]
    · simpa only [Progress.wasted, Option.isNone_some, Bool.and_false, Bool.or_false] using hwasted
  | sampled => exact rank_step hn rfl rfl rfl rfl rfl rfl (Nat.le_refl 2) id
  | unsampled => exact rank_step hn rfl rfl rfl rfl rfl rfl (Nat.le_succ 1) id
  | requested => exact rank_step hn rfl rfl rfl rfl rfl rfl (Nat.le_refl 1) id
  | removed => exact rank_removed hn
  | @driven v w event ready' queued written hd =>
    rcases hd with hdrive | ⟨hnot, hnone, rfl⟩
    · exact rank_drive hn hdrive
    · rw [rank_driving hn, rank_publishing, hnone, hnot]
      simp only [Option.toList_none, List.nil_append, List.map_nil, List.append_nil,
        Bool.not_false, Bool.true_or, if_true]
      split <;> omega
  | @published v event sequence queued written ht =>
    have hlt : (written ++ event.terminal.toList.map CommandSequence.get).count q < k := by
      rw [ht]
      exact hn
    rw [rank_of_lt (by simpa [ended] using hn), rank_of_lt hlt]
    simp only [Progress.callsLeft, Progress.begun, Progress.line, ended, entering, stepsToDrive, ht,
      Option.toList_none, Option.toList_some, List.nil_append, List.map_cons, List.cons_append,
      List.append_assoc, Progress.wasted, Bool.false_eq_true, if_false]
    omega
  | @unpublished v event queued written ht =>
    exact rank_step hn ht rfl rfl rfl rfl rfl (Nat.le_refl 5) fun hwasted => by cases hwasted

end Rank

end HisiRfCore.ProgressRank
