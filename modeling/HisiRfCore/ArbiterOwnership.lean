import HisiRfCore.RejectedCalls

/-!
# Ownership along every run of the arbiter

Whatever the order of the calls, a command is accepted into an empty slot, stays there
unaltered, and leaves it once: handed out to be started, or removed by its own
cancellation. The next action is read off the same slots that the calls check, so the
call it selects succeeds.
-/

namespace HisiRfCore.ArbiterOwnership

open StateBorrow IncrementalContract CommandArbitration RunnerCalls InputOutputMachine
open RejectedCalls CommandArbiter

variable {ε α C : Type}

/-- One call with its answer. -/
abbrev ArbiterEntry (C : Type) := ArbiterCall C × ArbiterAnswer C

/-- Command that an entry put into the pending slot. -/
def submitted : ArbiterEntry C → Option (PendingCommand C)
  | (.submit command, .submitted (.ok ())) => some command
  | _ => none

/-- The entry took a command out of the pending slot. -/
def departs : ArbiterEntry C → Bool
  | (.takeStartable, .taken (.ok _)) | (.requestCancel _, .cancelled .removePending) => true
  | _ => false

/-- The entry recorded a delivered cancellation. -/
def delivers : ArbiterEntry C → Bool
  | (.markCancelRequested _, .returned (.ok ())) => true
  | _ => false

/-- The entry freed the active slot. -/
def finishes : ArbiterEntry C → Bool
  | (.finishActive _, .finished (.ok _)) => true
  | _ => false

/-- How one command leaves the pending slot: handed out as it is, or removed under its
own sequence. -/
inductive Settles (command : PendingCommand C) : ArbiterEntry C → Prop
  | handed : Settles command (.takeStartable, .taken (.ok command))
  | removed : Settles command (.requestCancel command.sequence, .cancelled .removePending)

/-- What a call does: one case for each call that is accepted. -/
inductive ArbiterEffect (arbiter : CommandArbiter C) :
    ArbiterCall C → CommandArbiter C × ArbiterAnswer C → Prop
  | submitted (command : PendingCommand C) (hp : arbiter.pending = none) :
      ArbiterEffect arbiter (.submit command)
        ({arbiter with pending := some command}, .submitted (.ok ()))
  | taken (held : PendingCommand C) (ha : arbiter.active = none) (hs : arbiter.starting = none)
      (hp : arbiter.pending = some held) :
      ArbiterEffect arbiter .takeStartable
        (⟨none, some held.sequence, none⟩, .taken (.ok held))
  | started (sequence : CommandSequence) (operation : OperationId)
      (hs : arbiter.starting = some sequence) (ha : arbiter.active = none) :
      ArbiterEffect arbiter (.markStarted sequence operation)
        (⟨some ⟨sequence, operation, false, false⟩, none, arbiter.pending⟩, .returned (.ok ()))
  | startRejected (sequence : CommandSequence) (hs : arbiter.starting = some sequence) :
      ArbiterEffect arbiter (.rejectStart sequence)
        ({arbiter with starting := none}, .returned (.ok ()))
  | requested (active : ActiveCommand) (ha : arbiter.active = some active) :
      ArbiterEffect arbiter (.requestCancel active.sequence)
        ({arbiter with active := some {active with cancelIntent := true}},
          .cancelled .requestActive)
  | removed (held : PendingCommand C) (hp : arbiter.pending = some held) :
      ArbiterEffect arbiter (.requestCancel held.sequence)
        ({arbiter with pending := none}, .cancelled .removePending)
  | delivered (active : ActiveCommand) (ha : arbiter.active = some active)
      (hr : active.cancelRequested = false) :
      ArbiterEffect arbiter (.markCancelRequested active.operation)
        ({arbiter with active := some {active with cancelRequested := true}}, .returned (.ok ()))
  | finished (active : ActiveCommand) (ha : arbiter.active = some active) :
      ArbiterEffect arbiter (.finishActive active.operation)
        ({arbiter with active := none}, .finished (.ok active.sequence))
  | refused (call : ArbiterCall C) (answer : ArbiterAnswer C) (hr : answer.refused = true) :
      ArbiterEffect arbiter call (arbiter, answer)

section Effects

variable {arbiter next : CommandArbiter C}

/-- A clean method that is refused has no effect, so only its success is looked at. -/
theorem performed_effect {answer : Except ε α → ArbiterAnswer C} {call : ArbiterCall C}
    {method : EStateM ε (CommandArbiter C) α} (hm : Clean method)
    (hr : ∀ error, (answer (.error error)).refused = true)
    (hok : ∀ a next, method arbiter = .ok a next →
      ArbiterEffect arbiter call (next, answer (.ok a))) :
    ArbiterEffect arbiter call (performed answer method arbiter) := by
  cases hx : method arbiter with
  | ok a next =>
    rw [performed, hx, after_ok, reply_ok]
    exact hok a next hx
  | error error next =>
    rw [performed, hx, after_error, reply_error, hm arbiter error next hx]
    exact .refused _ _ (hr error)

/-- An accepted submission found the slot empty. -/
theorem submit_ok {command : PendingCommand C}
    (h : submit command arbiter = .ok () next) :
    arbiter.pending = none ∧ next = {arbiter with pending := some command} := by
  unfold submit at h
  split at h
  · cases h
  · next hp =>
    cases h
    exact ⟨Option.not_isSome_iff_eq_none.mp hp, rfl⟩

/-- A command is handed out of the pending slot when nothing is active or starting. -/
theorem takeStartable_ok {held : PendingCommand C} (h : takeStartable arbiter = .ok held next) :
    arbiter.active = none ∧ arbiter.starting = none ∧ arbiter.pending = some held ∧
      next = ⟨none, some held.sequence, none⟩ := by
  rcases arbiter with ⟨_ | active, _ | starting, _ | pending⟩
  all_goals cases h
  exact ⟨rfl, rfl, rfl, rfl⟩

/-- Only the start in progress becomes active. -/
theorem markStarted_ok {sequence : CommandSequence} {operation : OperationId}
    (h : markStarted sequence operation arbiter = .ok () next) :
    arbiter.starting = some sequence ∧ arbiter.active = none ∧
      next = ⟨some ⟨sequence, operation, false, false⟩, none, arbiter.pending⟩ := by
  unfold markStarted at h
  split at h
  · cases h
  · next hn =>
    obtain ⟨hs, ha⟩ := not_or.mp hn
    cases h
    exact ⟨not_not.mp hs, Option.not_isSome_iff_eq_none.mp ha, rfl⟩

/-- Only the start in progress is rejected. -/
theorem rejectStart_ok {sequence : CommandSequence}
    (h : rejectStart sequence arbiter = .ok () next) :
    arbiter.starting = some sequence ∧ next = {arbiter with starting := none} := by
  unfold rejectStart at h
  split at h
  · cases h
  · next hs =>
    cases h
    exact ⟨not_not.mp hs, rfl⟩

/-- A cancellation is delivered once, to the active operation. -/
theorem markCancelRequested_ok {operation : OperationId}
    (h : markCancelRequested operation arbiter = .ok () next) :
    ∃ active, arbiter.active = some active ∧ active.operation = operation ∧
      active.cancelRequested = false ∧
      next = {arbiter with active := some {active with cancelRequested := true}} := by
  unfold markCancelRequested at h
  split at h
  · cases h
  · next active ha =>
    split at h
    · cases h
    · next ho =>
      split at h
      · cases h
      · next hr =>
        cases h
        exact ⟨active, ha, not_not.mp ho, Bool.eq_false_iff.mpr hr, rfl⟩

/-- Only the active operation is finished. -/
theorem finishActive_ok {operation : OperationId} {sequence : CommandSequence}
    (h : finishActive operation arbiter = .ok sequence next) :
    ∃ active, arbiter.active = some active ∧ active.operation = operation ∧
      active.sequence = sequence ∧ next = {arbiter with active := none} := by
  unfold finishActive at h
  split at h
  · cases h
  · next active ha =>
    split at h
    · cases h
    · next ho =>
      cases h
      exact ⟨active, ha, not_not.mp ho, rfl, rfl⟩

/-- Every call has one of the listed effects. -/
theorem call_effect (arbiter : CommandArbiter C) (call : ArbiterCall C) :
    ArbiterEffect arbiter call (arbiterMachine.step arbiter call) := by
  cases call with
  | submit command =>
    have hm : Clean (submit command) := fun _ _ _ he => (submit_rejected he).1
    refine performed_effect hm (fun error => rfl) fun _ next hx => ?_
    obtain ⟨hp, rfl⟩ := submit_ok hx
    exact .submitted command hp
  | takeStartable =>
    refine performed_effect takeStartable_clean (fun error => rfl) fun held next hx => ?_
    obtain ⟨ha, hs, hp, rfl⟩ := takeStartable_ok hx
    exact .taken held ha hs hp
  | markStarted sequence operation =>
    refine performed_effect (arbiter_markStarted_clean sequence operation) (fun error => rfl)
      fun _ next hx => ?_
    obtain ⟨hs, ha, rfl⟩ := markStarted_ok hx
    exact .started sequence operation hs ha
  | rejectStart sequence =>
    refine performed_effect (rejectStart_clean sequence) (fun error => rfl) fun _ next hx => ?_
    obtain ⟨hs, rfl⟩ := rejectStart_ok hx
    exact .startRejected sequence hs
  | requestCancel sequence =>
    have he := requestCancel_effect sequence arbiter
    show ArbiterEffect _ _ ((requestCancel sequence arbiter).2,
      .cancelled (requestCancel sequence arbiter).1)
    generalize requestCancel sequence arbiter = result at he
    cases he with
    | requestActive active ha hs hr hi =>
      cases hs
      exact .requested active ha
    | alreadyRequested active ha hs hr => exact .refused _ _ rfl
    | removePending hs hp =>
      obtain ⟨held, hheld, rfl⟩ := Option.map_eq_some_iff.mp hp
      exact .removed held hheld
    | notFound hs hp => exact .refused _ _ rfl
  | markCancelRequested operation =>
    refine performed_effect (markCancelRequested_clean operation) (fun error => rfl)
      fun _ next hx => ?_
    obtain ⟨active, ha, rfl, hf, rfl⟩ := markCancelRequested_ok hx
    exact .delivered active ha hf
  | finishActive operation =>
    refine performed_effect (finishActive_clean operation) (fun error => rfl)
      fun sequence next hx => ?_
    obtain ⟨active, ha, rfl, rfl, rfl⟩ := finishActive_ok hx
    exact .finished active ha

end Effects

/-- The account of the pending slot: accepted commands, in order, are those that left,
each with the entry that took it out, and the one still in the slot. -/
def Accounted (history : List (ArbiterEntry C)) (pending : Option (PendingCommand C)) : Prop :=
  ∃ settled, history.filterMap submitted = settled ++ pending.toList ∧
    List.Forall₂ Settles settled (history.filter departs)

section Account

variable {history : List (ArbiterEntry C)} {entry : ArbiterEntry C}
  {pending : Option (PendingCommand C)} {command : PendingCommand C}

/-- An entry that neither puts nor takes a command leaves the account alone. -/
theorem Accounted.quiet (h : Accounted history pending) (hs : submitted entry = none)
    (hd : departs entry = false) : Accounted (history ++ [entry]) pending := by
  obtain ⟨settled, heq, hall⟩ := h
  refine ⟨settled, ?_, ?_⟩
  · rw [List.filterMap_append, List.filterMap_cons_none hs, List.filterMap_nil, List.append_nil,
      heq]
  · rw [List.filter_append, List.filter_cons_of_neg (Bool.eq_false_iff.mp hd), List.filter_nil,
      List.append_nil]
    exact hall

/-- An accepted command is the one in the slot. -/
theorem Accounted.enters (h : Accounted history none) (hs : submitted entry = some command)
    (hd : departs entry = false) : Accounted (history ++ [entry]) (some command) := by
  obtain ⟨settled, heq, hall⟩ := h
  rw [Option.toList_none, List.append_nil] at heq
  refine ⟨settled, ?_, ?_⟩
  · rw [List.filterMap_append, List.filterMap_cons_some hs, List.filterMap_nil, heq,
      Option.toList_some]
  · rw [List.filter_append, List.filter_cons_of_neg (Bool.eq_false_iff.mp hd), List.filter_nil,
      List.append_nil]
    exact hall

/-- The command in the slot leaves by the entry that settles it. -/
theorem Accounted.leaves (h : Accounted history (some command)) (he : Settles command entry) :
    Accounted (history ++ [entry]) none := by
  obtain ⟨settled, heq, hall⟩ := h
  have hs : submitted entry = none := by cases he <;> rfl
  have hd : departs entry = true := by cases he <;> rfl
  refine ⟨settled ++ [command], ?_, ?_⟩
  · rw [List.filterMap_append, List.filterMap_cons_none hs, List.filterMap_nil, List.append_nil,
      heq, Option.toList_some, Option.toList_none, List.append_nil]
  · rw [List.filter_append, List.filter_cons_of_pos hd, List.filter_nil]
    exact List.rel_append hall (.cons he .nil)

/-- A refused call is none of the counted entries. -/
theorem refused_entry (call : ArbiterCall C) {answer : ArbiterAnswer C}
    (hr : answer.refused = true) :
    submitted (call, answer) = none ∧ departs (call, answer) = false ∧
      delivers (call, answer) = false := by
  refine ⟨?_, ?_, ?_⟩
  · unfold submitted
    split
    · next he =>
      cases he
      cases hr
    · rfl
  · unfold departs
    split
    · next he =>
      cases he
      cases hr
    · next he =>
      cases he
      cases hr
    · rfl
  · unfold delivers
    split
    · next he =>
      cases he
      cases hr
    · rfl

end Account

section Runs

variable {arbiter : CommandArbiter C} {command : PendingCommand C} {call : ArbiterCall C}
  {result : CommandArbiter C × ArbiterAnswer C}

/-- One call keeps the account. -/
theorem account_step {history : List (ArbiterEntry C)} (he : ArbiterEffect arbiter call result)
    (h : Accounted history arbiter.pending) :
    Accounted (history ++ [(call, result.2)]) result.1.pending := by
  cases he with
  | submitted command hp =>
    rw [hp] at h
    exact h.enters rfl rfl
  | taken held ha hs hp =>
    rw [hp] at h
    exact h.leaves .handed
  | removed held hp =>
    rw [hp] at h
    exact h.leaves .removed
  | started sequence operation hs ha => exact h.quiet rfl rfl
  | startRejected sequence hs => exact h.quiet rfl rfl
  | requested active ha => exact h.quiet rfl rfl
  | delivered active ha hr => exact h.quiet rfl rfl
  | finished active ha => exact h.quiet rfl rfl
  | refused _ answer hr =>
    obtain ⟨hs, hd, -⟩ := refused_entry call hr
    exact h.quiet hs hd

/-- The account holds after every run of the arbiter. -/
theorem account_run (inputs : List (ArbiterCall C)) :
    Accounted (arbiterMachine.transcript .new inputs)
      (arbiterMachine.run .new inputs).pending := by
  have h0 : Accounted ([] : List (ArbiterEntry C)) (new : CommandArbiter C).pending :=
    ⟨[], rfl, .nil⟩
  exact @transcript_invariant _ _ _ arbiterMachine
    (fun history arbiter => Accounted history arbiter.pending) (fun _ => True) .new h0
    (fun _ _ h => h) (fun _ arbiter call _ h => account_step (call_effect arbiter call) h) inputs
    trivial

/-- A start in progress and an active command exclude each other. -/
def Exclusive (arbiter : CommandArbiter C) : Prop :=
  arbiter.starting = none ∨ arbiter.active = none

/-- One call keeps the two slots exclusive. -/
theorem exclusive_step (he : ArbiterEffect arbiter call result) (h : Exclusive arbiter) :
    Exclusive result.1 := by
  cases he with
  | submitted command hp => exact h
  | taken held ha hs hp => exact Or.inr rfl
  | removed held hp => exact h
  | started sequence operation hs ha => exact Or.inl rfl
  | startRejected sequence hs => exact Or.inl rfl
  | requested active ha =>
    have hs : arbiter.starting = none := h.resolve_right (by rw [ha]; exact Option.some_ne_none _)
    exact Or.inl hs
  | delivered active ha hr =>
    have hs : arbiter.starting = none := h.resolve_right (by rw [ha]; exact Option.some_ne_none _)
    exact Or.inl hs
  | finished active ha => exact Or.inr rfl
  | refused _ answer hr => exact h

theorem exclusive_run (inputs : List (ArbiterCall C)) :
    Exclusive (arbiterMachine.run (.new : CommandArbiter C) inputs) :=
  run_invariant arbiterMachine (Or.inl rfl)
    (fun arbiter call h => exclusive_step (call_effect arbiter call) h) inputs

/-- A call leaves the pending command as it is, or settles it and empties the slot. -/
theorem pending_step (he : ArbiterEffect arbiter call result)
    (h : arbiter.pending = some command) :
    (Settles command (call, result.2) ∧ result.1.pending = none) ∨
      result.1.pending = some command := by
  cases he with
  | submitted other hp => cases hp.symm.trans h
  | taken held ha hs hp =>
    cases hp.symm.trans h
    exact Or.inl ⟨.handed, rfl⟩
  | removed held hp =>
    cases hp.symm.trans h
    exact Or.inl ⟨.removed, rfl⟩
  | started sequence operation hs ha => exact Or.inr h
  | startRejected sequence hs => exact Or.inr h
  | requested active ha => exact Or.inr h
  | delivered active ha hr => exact Or.inr h
  | finished active ha => exact Or.inr h
  | refused _ answer hr => exact Or.inr h

/-- While one operation is active, its flag counts the deliveries of its cancellation. -/
def Delivered (history : List (ArbiterEntry C)) (arbiter : CommandArbiter C) : Prop :=
  ∃ active, arbiter.active = some active ∧
    history.countP delivers = if active.cancelRequested then 1 else 0

/-- One call other than the finish counts its delivery, and delivers at most once. -/
theorem delivered_step {history : List (ArbiterEntry C)} (he : ArbiterEffect arbiter call result)
    (hf : finishes (call, result.2) = false) (h : Delivered history arbiter) :
    Delivered (history ++ [(call, result.2)]) result.1 := by
  obtain ⟨active, ha, hcount⟩ := h
  have hquiet : ∀ entry : ArbiterEntry C, delivers entry = false →
      (history ++ [entry]).countP delivers = if active.cancelRequested then 1 else 0 := by
    intro entry hd
    rw [List.countP_append, List.countP_cons_of_neg (Bool.eq_false_iff.mp hd), List.countP_nil,
      Nat.add_zero, hcount]
  cases he with
  | submitted command hp => exact ⟨active, ha, hquiet _ rfl⟩
  | taken held hn hs hp => cases hn.symm.trans ha
  | removed held hp => exact ⟨active, ha, hquiet _ rfl⟩
  | started sequence operation hs hn => cases hn.symm.trans ha
  | startRejected sequence hs => exact ⟨active, ha, hquiet _ rfl⟩
  | requested other ho =>
    cases ho.symm.trans ha
    exact ⟨_, rfl, hquiet _ rfl⟩
  | delivered other ho hr =>
    cases ho.symm.trans ha
    refine ⟨_, rfl, ?_⟩
    rw [hr] at hcount
    rw [List.countP_append, hcount]
    rfl
  | finished other ho => cases hf
  | refused _ answer hr =>
    obtain ⟨-, -, hd⟩ := refused_entry call hr
    exact ⟨active, ha, hquiet _ hd⟩

/-- A started operation is active and its cancellation is not delivered. -/
theorem delivered_start {sequence : CommandSequence} {operation : OperationId}
    (he : ArbiterEffect arbiter (.markStarted sequence operation) result)
    (h : result.2 = .returned (.ok ())) : Delivered [] result.1 := by
  cases he with
  | started _ _ hs ha => exact ⟨_, rfl, rfl⟩
  | refused _ answer hr =>
    cases h
    cases hr

/-- Until the operation is finished its cancellation is delivered at most once, and the
action asks for no further one. -/
def CancelledOnce (arbiter : CommandArbiter C) (during : List (ArbiterCall C)) : Prop :=
  (∀ entry ∈ arbiterMachine.transcript arbiter during, finishes entry = false) →
    (arbiterMachine.transcript arbiter during).countP delivers ≤ 1 ∧
    ((∃ entry ∈ arbiterMachine.transcript arbiter during, delivers entry = true) →
      ∀ operation, (arbiterMachine.run arbiter during).action ≠ .cancelActive operation)

/-- The action cancels an active operation only before the delivery. -/
theorem action_of_delivered {active : ActiveCommand} (ha : arbiter.active = some active)
    (hr : active.cancelRequested = true) (operation : OperationId) :
    arbiter.action ≠ .cancelActive operation := by
  simp [action, ha, hr]

theorem cancelledOnce_of_delivered (h : Delivered [] arbiter) (during : List (ArbiterCall C)) :
    CancelledOnce arbiter during := by
  intro hfinish
  obtain ⟨active, ha, hcount⟩ := transcript_invariant arbiterMachine h
    (G := fun history => ∀ entry ∈ history, finishes entry = false)
    (fun _ _ hg entry hm => hg entry (List.mem_append_left _ hm))
    (fun _ arbiter call hg hd =>
      delivered_step (call_effect arbiter call) (hg _ List.mem_concat_self) hd) during hfinish
  rw [hcount]
  refine ⟨?_, fun hsome => ?_⟩
  · split <;> omega
  · have hpos := List.countP_pos_iff.mpr hsome
    rw [hcount] at hpos
    refine action_of_delivered ha ?_
    by_contra hr
    rw [if_neg hr] at hpos
    exact Nat.lt_irrefl 0 hpos

end Runs

section Views

variable {arbiter : CommandArbiter C}

/-- A start is selected from the pending slot when the other two are empty. -/
theorem slots_of_startPending {sequence : CommandSequence}
    (h : arbiter.action = .startPending sequence) :
    ∃ command, arbiter.active = none ∧ arbiter.starting = none ∧
      arbiter.pending = some command ∧ command.sequence = sequence := by
  unfold action at h
  split at h
  · split at h <;> cases h
  · next ha =>
    split at h
    · cases h
    · next hs =>
      split at h
      · next command hp =>
        cases h
        exact ⟨command, ha, hs, hp, rfl⟩
      · cases h

/-- A cancellation is selected for the active operation before it is delivered. -/
theorem slots_of_cancelActive {operation : OperationId}
    (h : arbiter.action = .cancelActive operation) :
    ∃ active, arbiter.active = some active ∧ active.operation = operation ∧
      active.cancelRequested = false := by
  unfold action at h
  split at h
  · next active ha =>
    split at h
    · next hc =>
      cases h
      have hr := (Bool.and_eq_true_iff.mp hc).2
      exact ⟨active, ha, rfl, Bool.not_eq_eq_eq_not.mp hr⟩
    · cases h
  · split at h
    · cases h
    · split at h <;> cases h

/-- The action selects a start exactly when the pending command is handed out. -/
theorem startPending_iff (arbiter : CommandArbiter C) (sequence : CommandSequence) :
    arbiter.action = .startPending sequence ↔
      ∃ command next, takeStartable arbiter = .ok command next ∧
        command.sequence = sequence := by
  constructor
  · intro h
    obtain ⟨command, ha, hs, hp, hsequence⟩ := slots_of_startPending h
    exact ⟨command, _, takeStartable_of_pending ha hs hp, hsequence⟩
  · rintro ⟨command, next, hx, rfl⟩
    obtain ⟨ha, hs, hp, -⟩ := takeStartable_ok hx
    simp only [action, ha, hs, hp]

/-- The action asks to cancel an operation only when that call is accepted. -/
theorem cancelActive_accepted {operation : OperationId}
    (h : arbiter.action = .cancelActive operation) :
    ∃ next, markCancelRequested operation arbiter = .ok () next := by
  obtain ⟨active, ha, rfl, hr⟩ := slots_of_cancelActive h
  exact ⟨_, markCancelRequested_of_active ha hr⟩

end Views

/-- What holds of an arbiter reached by a history of calls. -/
structure Sound (history : List (ArbiterEntry C)) (arbiter : CommandArbiter C) : Prop where
  /-- No command is active while another one, or itself, is starting. -/
  exclusive : ¬(arbiter.starting.isSome ∧ arbiter.active.isSome)
  /-- Accepted commands are settled in order, each once, and the last may be in the slot. -/
  accounted : Accounted history arbiter.pending
  /-- A command in the slot is not overwritten by a submission. -/
  guarded : ∀ held, arbiter.pending = some held →
    ∀ command, submit command arbiter = .error ⟨.busy, command⟩ arbiter
  /-- A command is handed out exactly when the action selects its start. -/
  startable : ∀ sequence, arbiter.action = .startPending sequence ↔
    ∃ command next, takeStartable arbiter = .ok command next ∧ command.sequence = sequence
  /-- The cancellation that the action selects is accepted. -/
  cancellable : ∀ operation, arbiter.action = .cancelActive operation →
    ∃ next, markCancelRequested operation arbiter = .ok () next

theorem sound_run (inputs : List (ArbiterCall C)) :
    Sound (arbiterMachine.transcript .new inputs) (arbiterMachine.run .new inputs) where
  exclusive := by
    rintro ⟨hs, ha⟩
    rcases exclusive_run inputs with hn | hn
    · rw [hn] at hs
      cases hs
    · rw [hn] at ha
      cases ha
  accounted := account_run inputs
  guarded := fun _ hp command => submit_of_some hp command
  startable := startPending_iff _
  cancellable := fun _ h => cancelActive_accepted h

/-- The command stays in the slot, as it is, until a call settles it and empties the slot. -/
def Retained (command : PendingCommand C) : CommandArbiter C → List (ArbiterCall C) → Prop :=
  arbiterMachine.Until (fun arbiter => arbiter.pending = some command) fun arbiter call =>
    Settles command (call, arbiterMachine.output arbiter call) ∧
      (arbiterMachine.next arbiter call).pending = none

/-- An accepted submission is in the slot right after it. -/
theorem pending_of_submitted {arbiter : CommandArbiter C} {command : PendingCommand C}
    {result : CommandArbiter C × ArbiterAnswer C}
    (he : ArbiterEffect arbiter (.submit command) result) (h : result.2 = .submitted (.ok ())) :
    result.1.pending = some command := by
  cases he with
  | submitted _ hp => rfl
  | refused _ answer hr =>
    cases h
    cases hr

/-- Along every run from an empty arbiter, whatever the calls and their arguments: the
slots, the account and the action agree in every state; an accepted command is retained
until it is handed out or removed; and a started operation is cancelled at most once
before it is finished. -/
theorem arbiter_ownership :
    (∀ inputs : List (ArbiterCall C),
      Sound (arbiterMachine.transcript .new inputs) (arbiterMachine.run .new inputs)) ∧
    (∀ (before : List (ArbiterCall C)) (command : PendingCommand C) (later : List (ArbiterCall C)),
      arbiterMachine.output (arbiterMachine.run .new before) (.submit command) =
        .submitted (.ok ()) →
      Retained command (arbiterMachine.run .new (before ++ [.submit command])) later) ∧
    ∀ (before : List (ArbiterCall C)) (sequence : CommandSequence) (operation : OperationId)
      (during : List (ArbiterCall C)),
      arbiterMachine.output (arbiterMachine.run .new before) (.markStarted sequence operation) =
        .returned (.ok ()) →
      CancelledOnce (arbiterMachine.run .new (before ++ [.markStarted sequence operation]))
        during := by
  refine ⟨sound_run, fun before command later h => ?_,
    fun before sequence operation during h => ?_⟩
  · rw [run_concat]
    exact until_of_step arbiterMachine (P := fun arbiter => arbiter.pending = some command)
      (fun arbiter call hp => pending_step (call_effect arbiter call) hp)
      (pending_of_submitted (call_effect _ _) h) later
  · rw [run_concat]
    exact cancelledOnce_of_delivered (delivered_start (call_effect _ _) h) during

end HisiRfCore.ArbiterOwnership
