import HisiRfCore.InputOutputMachine
import HisiRfCore.NonZeroCounter

/-!
# Identities issued from a wrapping counter

A machine keeps one counter and advances it whenever it issues an identity. Over every
run the issued identities are then the successive values of the counter: none is zero,
they repeat after one period and not before, and the machine recognises an earlier
identity again only after a whole period of later ones.
-/

namespace HisiRfCore.IdentityPeriod

open NonZeroCounter InputOutputMachine

variable {σ ι ο α : Type*}

/-- A machine that issues identities. -/
structure IdentitySource (σ ι ο α : Type*) where
  /-- The machine under any sequence of inputs. -/
  machine : Machine σ ι ο
  /-- The state that it starts from. -/
  initial : σ
  /-- Stable numeric representation of an identity. -/
  raw : α → UInt32
  /-- Last word that was issued, zero before the first. -/
  counter : σ → UInt32
  /-- Identity that an input allocates, if it allocates one. -/
  issued : σ → ι → Option α
  /-- Identity that the state belongs to. -/
  owner : σ → Option α
  /-- An input that names the identity is accepted as current. -/
  accepts : σ → α → Prop

namespace IdentitySource

variable (a : IdentitySource σ ι ο α)

/-- Identities issued by a schedule, oldest first. -/
def issues : σ → List ι → List α
  | _, [] => []
  | s, i :: rest => (a.issued s i).toList ++ issues (a.machine.next s i) rest

/-- A cut schedule issues what its two parts issue. -/
theorem issues_append (s : σ) (before after : List ι) :
    a.issues s (before ++ after) =
      a.issues s before ++ a.issues (a.machine.run s before) after := by
  induction before generalizing s with
  | nil => rfl
  | cons i rest ih => simp only [List.cons_append, issues, ih, run_cons, List.append_assoc]

/-- Identities issued from the start. -/
def issuedAlong (inputs : List ι) : List α := a.issues a.initial inputs

/-- State reached from the start. -/
def reached (inputs : List ι) : σ := a.machine.run a.initial inputs

theorem issuedAlong_concat (before : List ι) (i : ι) :
    a.issuedAlong (before ++ [i]) =
      a.issuedAlong before ++ (a.issued (a.reached before) i).toList := by
  rw [issuedAlong, issues_append]
  simp only [issues, List.append_nil]
  rfl

/-- What one input does: it issues the advanced counter, to which the state then belongs
or to nothing, or it leaves the counter alone and gives the state to no one. -/
inductive Effect (s : σ) (i : ι) : Prop
  | issues (id : α) (hi : a.issued s i = some id) (hr : a.raw id = advance (a.counter s))
      (hc : a.counter (a.machine.next s i) = advance (a.counter s))
      (ho : a.owner (a.machine.next s i) = some id ∨ a.owner (a.machine.next s i) = none)
  | silent (hi : a.issued s i = none) (hc : a.counter (a.machine.next s i) = a.counter s)
      (ho : ∀ id, a.owner (a.machine.next s i) = some id → a.owner s = some id)

/-- The identities come from the counter, and only the one last issued is accepted. -/
structure Counted : Prop where
  /-- Nothing is issued yet. -/
  start : a.counter a.initial = 0
  /-- Nothing is owned yet. -/
  free : a.owner a.initial = none
  /-- Every input issues from the counter or leaves it alone. -/
  effect : ∀ s i, a.Effect s i
  /-- Only the owner is accepted. -/
  accepted : ∀ {s id}, a.accepts s id → a.owner s = some id
  /-- From the start the machine can issue one identity after another. -/
  renewable : ∃ ready : σ → Prop, ready a.initial ∧ ∀ s, ready s →
    ∃ inputs, (a.issues s inputs).length = 1 ∧ ready (a.machine.run s inputs)

/-- The identities of every run repeat with exactly the period of the counter. -/
structure Periodic : Prop where
  /-- No identity is zero. -/
  nonzero : ∀ inputs, ∀ id ∈ a.issuedAlong inputs, a.raw id ≠ 0
  /-- The counter, as it is stored, is zero only before the first allocation. -/
  stored : ∀ inputs, a.counter (a.reached inputs) = 0 ↔ a.issuedAlong inputs = []
  /-- Allocations less than a period apart differ. -/
  distinct : ∀ inputs m n x y, m < n → n - m < period → (a.issuedAlong inputs)[m]? = some x →
    (a.issuedAlong inputs)[n]? = some y → a.raw x ≠ a.raw y
  /-- Allocations a period apart agree. -/
  periodic : ∀ inputs n x y, (a.issuedAlong inputs)[n]? = some x →
    (a.issuedAlong inputs)[n + period]? = some y → a.raw y = a.raw x
  /-- No shorter distance has that property over every run. -/
  minimal : ∀ p, 0 < p → (∀ inputs n x y, (a.issuedAlong inputs)[n]? = some x →
    (a.issuedAlong inputs)[n + p]? = some y → a.raw y = a.raw x) → period ≤ p
  /-- Runs issue any number of identities. -/
  unbounded : ∀ n, ∃ inputs, (a.issuedAlong inputs).length = n
  /-- An accepted identity is the last one issued, or a period of others came after it. -/
  stale : ∀ inputs n x, (a.issuedAlong inputs)[n]? = some x → a.accepts (a.reached inputs) x →
    n + 1 = (a.issuedAlong inputs).length ∨ n + 1 + period ≤ (a.issuedAlong inputs).length

variable {a}

namespace Counted

/-- The owner, if there is one, is the last identity issued. -/
theorem owner_counter (h : a.Counted) (inputs : List ι) :
    ∀ id, a.owner (a.reached inputs) = some id → a.raw id = a.counter (a.reached inputs) := by
  refine run_invariant a.machine (I := fun s => ∀ id, a.owner s = some id → a.raw id = a.counter s)
    ?_ ?_ inputs
  · intro id hid
    cases h.free.symm.trans hid
  · intro s i hs id hid
    cases h.effect s i with
    | issues other hi hr hc ho =>
      rcases ho with ho | ho
      · cases ho.symm.trans hid
        rw [hr, hc]
      · cases ho.symm.trans hid
    | silent hi hc ho =>
      rw [hc]
      exact hs id (ho id hid)

/-- After any run the counter has advanced once for each issued identity, and these are
its successive values. -/
theorem values (h : a.Counted) (inputs : List ι) :
    a.counter (a.reached inputs) = advance^[(a.issuedAlong inputs).length] 0 ∧
    (a.issuedAlong inputs).map a.raw =
      (List.range (a.issuedAlong inputs).length).map fun n => advance^[n + 1] 0 := by
  induction inputs using List.reverseRecOn with
  | nil => exact ⟨h.start, rfl⟩
  | append_singleton before i ih =>
    obtain ⟨hcounter, hvalues⟩ := ih
    have hnext : a.reached (before ++ [i]) = a.machine.next (a.reached before) i :=
      run_concat _ _ _ _
    rw [a.issuedAlong_concat, hnext]
    cases h.effect (a.reached before) i with
    | silent hi hc ho =>
      rw [hi, Option.toList_none, List.append_nil, hc]
      exact ⟨hcounter, hvalues⟩
    | issues id hi hr hc ho =>
      rw [hi, Option.toList_some, List.length_append, List.length_singleton, hc, hcounter,
        Function.iterate_succ_apply']
      refine ⟨rfl, ?_⟩
      rw [List.map_append, hvalues, List.map_singleton, hr, hcounter, List.range_succ,
        List.map_append, List.map_singleton, Function.iterate_succ_apply']

/-- The identity issued in one turn is the counter after that many allocations. -/
theorem raw_eq (h : a.Counted) {inputs : List ι} {n : ℕ} {x : α}
    (hx : (a.issuedAlong inputs)[n]? = some x) : a.raw x = advance^[n + 1] 0 := by
  obtain ⟨hn, -⟩ := List.getElem?_eq_some_iff.mp hx
  have hmap := congrArg (fun words => words[n]?) (h.values inputs).2
  rw [List.getElem?_map, List.getElem?_map, hx, List.getElem?_range hn] at hmap
  exact Option.some.inj hmap

/-- Issued identities agree exactly when whole periods lie between their turns. -/
theorem raw_eq_iff (h : a.Counted) {inputs inputs' : List ι} {m n : ℕ} {x y : α}
    (hx : (a.issuedAlong inputs)[m]? = some x) (hy : (a.issuedAlong inputs')[n]? = some y) :
    a.raw x = a.raw y ↔ m ≡ n [MOD period] := by
  rw [h.raw_eq hx, h.raw_eq hy, iterate_eq_iff]

/-- A machine that can always issue one more identity issues any number of them. -/
theorem unbounded (h : a.Counted) (n : ℕ) :
    ∃ inputs, (a.issuedAlong inputs).length = n := by
  obtain ⟨ready, hinitial, hready⟩ := h.renewable
  have hrun : ∃ inputs, (a.issuedAlong inputs).length = n ∧ ready (a.reached inputs) := by
    induction n with
    | zero => exact ⟨[], rfl, hinitial⟩
    | succ n ih =>
      obtain ⟨inputs, hlen, hr⟩ := ih
      obtain ⟨more, hone, hr'⟩ := hready _ hr
      refine ⟨inputs ++ more, ?_, ?_⟩
      · rw [issuedAlong, issues_append, List.length_append]
        exact congrArg₂ (· + ·) hlen hone
      · rw [reached, run_append]
        exact hr'
  obtain ⟨inputs, hlen, -⟩ := hrun
  exact ⟨inputs, hlen⟩


/-- Identities issued from the counter repeat with exactly its period. -/
theorem isPeriodic (h : a.Counted) : a.Periodic where
  nonzero := by
    intro inputs id hid
    obtain ⟨n, hn⟩ := List.getElem?_of_mem hid
    rw [h.raw_eq hn, Function.iterate_succ_apply']
    exact advance_ne_zero _
  stored := by
    intro inputs
    rw [(h.values inputs).1, iterate_eq_zero, List.length_eq_zero_iff]
  distinct := by
    intro inputs m n x y hlt hnear hx hy heq
    have hmod := (h.raw_eq_iff hx hy).mp heq
    have hdvd : period ∣ n - m := (Nat.modEq_iff_dvd' hlt.le).mp hmod
    have hle := Nat.le_of_dvd (Nat.sub_pos_of_lt hlt) hdvd
    omega
  periodic := by
    intro inputs n x y hx hy
    rw [h.raw_eq_iff hy hx]
    exact Nat.add_modEq_right
  minimal := by
    intro p hp hall
    obtain ⟨inputs, hlen⟩ := h.unbounded (p + 1)
    have h0 : 0 < (a.issuedAlong inputs).length := by omega
    have hlast : 0 + p < (a.issuedAlong inputs).length := by omega
    have hx := List.getElem?_eq_getElem h0
    have hy := List.getElem?_eq_getElem hlast
    have hmod := (h.raw_eq_iff hx hy).mp (hall inputs 0 _ _ hx hy).symm
    have hdvd : period ∣ 0 + p - 0 := (Nat.modEq_iff_dvd' (Nat.zero_le _)).mp hmod
    have hle := Nat.le_of_dvd (by omega) hdvd
    omega
  unbounded := h.unbounded
  stale := by
    intro inputs n x hx ha
    obtain ⟨hn, -⟩ := List.getElem?_eq_some_iff.mp hx
    have hcounter := h.owner_counter inputs x (h.accepted ha)
    obtain ⟨count, hcount⟩ := Nat.exists_eq_add_of_lt hn
    rw [h.raw_eq hx, (h.values inputs).1, hcount, iterate_eq_iff] at hcounter
    have hdvd : period ∣ n + count - n := (Nat.modEq_iff_dvd' (Nat.le_add_right _ _)).mp hcounter
    rcases Nat.eq_zero_or_pos count with hz | hpos
    · exact Or.inl (by omega)
    · have hle := Nat.le_of_dvd (by omega) hdvd
      exact Or.inr (by omega)

end Counted

end IdentitySource

end HisiRfCore.IdentityPeriod
