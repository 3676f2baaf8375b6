import Mathlib.Data.List.Basic
import Mathlib.Logic.Function.Basic
import Mathlib.Order.Defs.PartialOrder
import Mathlib.Order.Lattice

/-!
# Words published without order

One publisher stores the words of a value one after the other; a reader loads them one
after the other. Nothing orders two words. A load of a word may return any store of it
that is not older than one the reader has already seen, so a snapshot may mix several
publications, old words of a new one with new words of an old one. The publisher can
release what it has stored, and the reader can acquire it. When no publication falls
behind the one before it, no word of a snapshot falls behind an earlier snapshot, and
none falls behind what was acquired.
-/

namespace HisiRfCore.RelaxedWords

/-- Words with their publisher and one reader. -/
structure Words (α : Type) (n : ℕ) where
  /-- Stores of each word, the oldest first. -/
  stores : Fin n → List α
  /-- Value of the last publication. -/
  latest : Fin n → α
  /-- Words of the last publication that are stored. -/
  next : ℕ
  /-- Store of each word that was the newest at the last release. -/
  released : Fin n → ℕ
  /-- Newest store of each word that the reader has seen. -/
  view : Fin n → ℕ
  /-- Buffer of the snapshot in progress, and how many of its words are loaded. -/
  loading : Option ((Fin n → α) × ℕ)
  /-- Snapshots returned, the oldest first. -/
  returned : List (Fin n → α)

/-- One access of the publisher or of the reader. -/
inductive WordInput (α : Type) (n : ℕ)
  | publish (value : Fin n → α)
  | store
  | release
  | acquire
  | snapshot
  | load (index : ℕ)

variable {α : Type} {n : ℕ}

/-- Words that hold a value; nothing is published or read. -/
def Words.new (value : Fin n → α) : Words α n where
  stores c := [value c]
  latest := value
  next := n
  released _ := 0
  view _ := 0
  loading := none
  returned := []

/-- Store the next word of the publication. -/
def storeWord (s : Words α n) : Words α n :=
  if h : s.next < n then
    {s with
      stores := Function.update s.stores ⟨s.next, h⟩
        (s.stores ⟨s.next, h⟩ ++ [s.latest ⟨s.next, h⟩])
      next := s.next + 1}
  else s

/-- Load the next word of the snapshot from the store with the given index, unless the
reader has seen a newer one; the loaded buffer is returned at the end. -/
def loadWord (s : Words α n) (index : ℕ) : Words α n :=
  match s.loading with
  | none => s
  | some (buffer, k) =>
    if h : k < n then
      match (s.stores ⟨k, h⟩)[index]? with
      | none => s
      | some x =>
        if s.view ⟨k, h⟩ ≤ index then
          {s with
            view := Function.update s.view ⟨k, h⟩ index
            loading := some (Function.update buffer ⟨k, h⟩ x, k + 1)}
        else s
    else {s with loading := none, returned := s.returned ++ [buffer]}

/-- Effect of one access; one that is not enabled changes nothing. -/
def wordStep [Inhabited α] (s : Words α n) : WordInput α n → Words α n
  | .publish value => if s.next < n then s else {s with latest := value, next := 0}
  | .store => storeWord s
  | .release => {s with released := fun c => (s.stores c).length - 1}
  | .acquire =>
    match s.loading with
    | none => {s with view := fun c => max (s.view c) (s.released c)}
    | some _ => s
  | .snapshot =>
    match s.loading with
    | none => {s with loading := some (fun _ => default, 0)}
    | some _ => s
  | .load index => loadWord s index

variable [Preorder α]

/-- A publication does not fall behind the one before it. -/
def Rising (s : Words α n) : WordInput α n → Prop
  | .publish value => ∀ c, s.latest c ≤ value c
  | _ => True

/-- The words are stored in their order, and the reader is somewhere in it. -/
structure Ordered (s : Words α n) : Prop where
  /-- A store of a word is no larger than a later one. -/
  sorted : ∀ c, (s.stores c).Pairwise (· ≤ ·)
  /-- No store is larger than the last publication. -/
  bounded : ∀ c, ∀ x ∈ s.stores c, x ≤ s.latest c
  /-- The last publication is stored as far as it has got. -/
  stored : ∀ c : Fin n, c < s.next → (s.stores c).getLast? = some (s.latest c)
  /-- The released store exists. -/
  released : ∀ c, s.released c < (s.stores c).length
  /-- The store that was seen exists. -/
  view : ∀ c, s.view c < (s.stores c).length
  /-- Returned words were seen. -/
  seen : ∀ r ∈ s.returned, ∀ c, ∃ i ≤ s.view c, (s.stores c)[i]? = some (r c)
  /-- Loaded words are the ones seen last. -/
  loading : ∀ buffer k, s.loading = some (buffer, k) →
    ∀ c : Fin n, c < k → (s.stores c)[s.view c]? = some (buffer c)
  /-- No snapshot falls behind an earlier one. -/
  rising : s.returned.Pairwise fun a b => ∀ c, a c ≤ b c

section Steps

variable {s : Words α n}

/-- Stores in their order. -/
theorem Ordered.index_le (h : Ordered s) {c : Fin n} {i j : ℕ} {x y : α}
    (hx : (s.stores c)[i]? = some x) (hy : (s.stores c)[j]? = some y) (hij : i ≤ j) : x ≤ y := by
  obtain ⟨hi, rfl⟩ := List.getElem?_eq_some_iff.mp hx
  obtain ⟨hj, rfl⟩ := List.getElem?_eq_some_iff.mp hy
  rcases Nat.eq_or_lt_of_le hij with rfl | hlt
  · exact le_refl _
  · exact List.pairwise_iff_getElem.mp (h.sorted c) i j hi hj hlt

/-- Fresh words are ordered. -/
theorem ordered_new (value : Fin n → α) : Ordered (.new value) where
  sorted _ := List.pairwise_singleton _ _
  bounded _ x hx := by rw [List.mem_singleton.mp hx]; exact le_refl _
  stored _ _ := rfl
  released _ := Nat.one_pos
  view _ := Nat.one_pos
  seen _ hr := by cases hr
  loading _ _ hl := by cases hl
  rising := .nil

omit [Preorder α] in
/-- A word keeps its stores when a word is stored, and may get another one. -/
theorem storeWord_grows (s : Words α n) (c : Fin n) : s.stores c <+: (storeWord s).stores c := by
  unfold storeWord
  split
  · next h =>
    dsimp only
    by_cases hc : c = ⟨s.next, h⟩
    · subst hc
      rw [Function.update_self]
      exact List.prefix_append _ _
    · rewrite [Function.update_of_ne hc]
      exact List.prefix_refl _
  · exact List.prefix_refl _

omit [Preorder α] in
/-- Storing a word changes nothing but the stores and how many are made. -/
theorem storeWord_same (s : Words α n) :
    (storeWord s).latest = s.latest ∧ (storeWord s).released = s.released ∧
      (storeWord s).view = s.view ∧ (storeWord s).loading = s.loading ∧
      (storeWord s).returned = s.returned := by
  unfold storeWord
  split <;> exact ⟨rfl, rfl, rfl, rfl, rfl⟩

omit [Preorder α] in
/-- The reader leaves the stores and the publisher alone. -/
theorem loadWord_same (s : Words α n) (index : ℕ) :
    (loadWord s index).stores = s.stores ∧ (loadWord s index).latest = s.latest ∧
      (loadWord s index).next = s.next ∧ (loadWord s index).released = s.released := by
  unfold loadWord
  split
  · exact ⟨rfl, rfl, rfl, rfl⟩
  split
  · split
    · exact ⟨rfl, rfl, rfl, rfl⟩
    · split <;> exact ⟨rfl, rfl, rfl, rfl⟩
  · exact ⟨rfl, rfl, rfl, rfl⟩

omit [Preorder α] in
/-- A store that exists stays where it is. -/
theorem getElem?_of_grows {xs ys : List α} (h : xs <+: ys) {i : ℕ} {x : α}
    (hx : xs[i]? = some x) : ys[i]? = some x := by
  obtain ⟨zs, rfl⟩ := h
  rw [List.getElem?_append_left (List.getElem?_eq_some_iff.mp hx).1, hx]

/-- Storing a word keeps the order. -/
theorem Ordered.store (h : Ordered s) : Ordered (storeWord s) := by
  have hgrows := storeWord_grows s
  have hlength : ∀ c, (s.stores c).length ≤ ((storeWord s).stores c).length :=
    fun c => (hgrows c).length_le
  obtain ⟨hlatest, hreleased, hview, hloading, hreturned⟩ := storeWord_same s
  -- Only the word that is stored has a new store, the word of the last publication.
  have hstores : ∀ c : Fin n, (storeWord s).stores c = s.stores c ∨
      (storeWord s).stores c = s.stores c ++ [s.latest c] := by
    intro c
    unfold storeWord
    split
    · next hn =>
      dsimp only
      by_cases hc : c = ⟨s.next, hn⟩
      · subst hc
        exact Or.inr (Function.update_self _ _ _)
      · exact Or.inl (Function.update_of_ne hc _ _)
    · exact Or.inl rfl
  constructor
  · intro c
    rcases hstores c with hc | hc <;> rw [hc]
    · exact h.sorted c
    · refine List.pairwise_append.mpr ⟨h.sorted c, List.pairwise_singleton _ _, ?_⟩
      intro x hx y hy
      rw [List.mem_singleton.mp hy]
      exact h.bounded c x hx
  · intro c x hx
    rw [hlatest]
    rcases hstores c with hc | hc <;> rw [hc] at hx
    · exact h.bounded c x hx
    · rcases List.mem_append.mp hx with hx | hx
      · exact h.bounded c x hx
      · rw [List.mem_singleton.mp hx]
  · intro c hc
    rw [hlatest]
    rcases hstores c with hsame | hnew
    · rw [hsame]
      refine h.stored c ?_
      -- A word that got no store is not the next one.
      unfold storeWord at hc hsame
      split at hc
      · next hn =>
        rw [dif_pos hn] at hsame
        dsimp only at hc hsame
        have hne : c ≠ ⟨s.next, hn⟩ := by
          rintro rfl
          rw [Function.update_self] at hsame
          exact absurd (congrArg List.length hsame) (by simp)
        have hval : c.val ≠ s.next := fun he => hne (Fin.ext he)
        omega
      · exact hc
    · rw [hnew, List.getLast?_append, List.getLast?_singleton]
      rfl
  · intro c
    rw [hreleased]
    exact lt_of_lt_of_le (h.released c) (hlength c)
  · intro c
    rw [hview]
    exact lt_of_lt_of_le (h.view c) (hlength c)
  · intro r hr c
    rw [hreturned] at hr
    obtain ⟨i, hi, hx⟩ := h.seen r hr c
    rw [hview]
    exact ⟨i, hi, getElem?_of_grows (hgrows c) hx⟩
  · intro buffer k hl c hc
    rw [hloading] at hl
    rw [hview]
    exact getElem?_of_grows (hgrows c) (h.loading buffer k hl c hc)
  · rw [hreturned]
    exact h.rising

/-- Loading a word keeps the order. -/
theorem Ordered.load (h : Ordered s) (index : ℕ) : Ordered (loadWord s index) := by
  unfold loadWord
  split
  · exact h
  next buffer k hl =>
  split
  · next hk =>
    split
    · exact h
    next x hx =>
    split
    · next hview =>
      -- The view of the loaded word moves to the index, the other words keep theirs.
      have hle : ∀ c, s.view c ≤ Function.update s.view ⟨k, hk⟩ index c := by
        intro c
        by_cases hc : c = ⟨k, hk⟩
        · subst hc
          rw [Function.update_self]
          exact hview
        · rw [Function.update_of_ne hc]
      refine ⟨h.sorted, h.bounded, h.stored, h.released, fun c => ?_, fun r hr c => ?_, ?_,
        h.rising⟩
      · dsimp only
        by_cases hc : c = ⟨k, hk⟩
        · subst hc
          rw [Function.update_self]
          exact (List.getElem?_eq_some_iff.mp hx).1
        · rw [Function.update_of_ne hc]
          exact h.view c
      · obtain ⟨i, hi, hr⟩ := h.seen r hr c
        exact ⟨i, le_trans hi (hle c), hr⟩
      · intro buffer' k' hl' c hc
        dsimp only at hl' ⊢
        cases hl'
        by_cases hck : c = ⟨k, hk⟩
        · subst hck
          rw [Function.update_self, Function.update_self]
          exact hx
        · have hval : c.val ≠ k := fun he => hck (Fin.ext he)
          rw [Function.update_of_ne hck, Function.update_of_ne hck]
          exact h.loading buffer k hl c (by omega)
    · exact h
  · next hk =>
    have hbuffer : ∀ c, (s.stores c)[s.view c]? = some (buffer c) :=
      fun c => h.loading buffer k hl c (by omega)
    refine ⟨h.sorted, h.bounded, h.stored, h.released, h.view, fun r hr c => ?_,
      fun _ _ hl' => (by cases hl'), ?_⟩
    · dsimp only at hr ⊢
      rcases List.mem_append.mp hr with hr | hr
      · exact h.seen r hr c
      · rw [List.mem_singleton.mp hr]
        exact ⟨s.view c, le_refl _, hbuffer c⟩
    · refine List.pairwise_append.mpr ⟨h.rising, List.pairwise_singleton _ _, ?_⟩
      intro a ha b hb c
      rw [List.mem_singleton.mp hb]
      obtain ⟨i, hi, hx⟩ := h.seen a ha c
      exact h.index_le hx (hbuffer c) hi

/-- A returned word is no larger than the last publication. -/
theorem Ordered.returned_le (h : Ordered s) {r : Fin n → α} (hr : r ∈ s.returned) (c : Fin n) :
    r c ≤ s.latest c := by
  obtain ⟨i, -, hx⟩ := h.seen r hr c
  exact h.bounded c _ (List.mem_of_getElem? hx)

/-- Every access keeps the order while the publications rise. -/
theorem Ordered.step [Inhabited α] (h : Ordered s) {input : WordInput α n}
    (hr : Rising s input) : Ordered (wordStep s input) := by
  cases input with
  | publish value =>
    unfold wordStep
    dsimp only
    split
    · exact h
    · exact ⟨h.sorted, fun c x hx => le_trans (h.bounded c x hx) (hr c),
        fun _ hc => absurd hc (Nat.not_lt_zero _), h.released, h.view, h.seen, h.loading, h.rising⟩
  | store => exact h.store
  | release =>
    refine ⟨h.sorted, h.bounded, h.stored, fun c => ?_, h.view, h.seen, h.loading, h.rising⟩
    have hpos := lt_of_le_of_lt (Nat.zero_le _) (h.view c)
    exact Nat.sub_lt hpos Nat.one_pos
  | acquire =>
    unfold wordStep
    dsimp only
    split
    · next hl =>
      refine ⟨h.sorted, h.bounded, h.stored, h.released, fun c => max_lt (h.view c) (h.released c),
        fun r hr c => ?_, fun buffer k hl' => ?_, h.rising⟩
      · obtain ⟨i, hi, hx⟩ := h.seen r hr c
        exact ⟨i, le_trans hi (le_max_left _ _), hx⟩
      · dsimp only at hl'
        rw [hl] at hl'
        cases hl'
    · exact h
  | snapshot =>
    unfold wordStep
    dsimp only
    split
    · exact ⟨h.sorted, h.bounded, h.stored, h.released, h.view, h.seen,
        fun buffer k hl' c hc => by cases hl'; exact absurd hc (Nat.not_lt_zero _), h.rising⟩
    · exact h
  | load index => exact h.load index

/-- A publication that is stored as a whole is released as a whole. -/
theorem Ordered.release (h : Ordered s) (hn : n ≤ s.next) [Inhabited α] (c : Fin n) :
    ((wordStep s .release).stores c)[(wordStep s .release).released c]? = some (s.latest c) := by
  have hlast := h.stored c (lt_of_lt_of_le c.isLt hn)
  rw [List.getLast?_eq_getElem?] at hlast
  exact hlast

end Steps

/-- What the reader can still load, and what it has returned since, does not fall behind a
floor. -/
structure Beyond (floor : Fin n → α) (count : ℕ) (s : Words α n) : Prop where
  /-- No word that the reader can load is below the floor. -/
  view : ∀ c, ∃ x, (s.stores c)[s.view c]? = some x ∧ floor c ≤ x
  /-- No snapshot returned since is below the floor. -/
  returned : ∀ r ∈ s.returned.drop count, ∀ c, floor c ≤ r c
  /-- Snapshots returned before. -/
  count : count ≤ s.returned.length

section Floors

variable {s : Words α n} {floor : Fin n → α} {count : ℕ}

/-- What is acquired between two snapshots is a floor of the later ones. -/
theorem beyond_acquire [Inhabited α] (h : Ordered s) (hl : s.loading = none)
    (hf : ∀ c, (s.stores c)[s.released c]? = some (floor c)) :
    Beyond floor s.returned.length (wordStep s .acquire) := by
  have hs : wordStep s .acquire = {s with view := fun c => max (s.view c) (s.released c)} := by
    unfold wordStep
    rw [hl]
  rw [hs]
  refine ⟨fun c => ?_, fun r hr => ?_, le_refl _⟩
  · have hmax : max (s.view c) (s.released c) < (s.stores c).length :=
      max_lt (h.view c) (h.released c)
    have hx := List.getElem?_eq_getElem hmax
    exact ⟨_, hx, h.index_le (hf c) hx (le_max_right _ _)⟩
  · rw [List.drop_length] at hr
    cases hr

/-- Loading a word keeps the floor. -/
theorem Beyond.load (h : Ordered s) (hb : Beyond floor count s) (index : ℕ) :
    Beyond floor count (loadWord s index) := by
  unfold loadWord
  split
  · exact hb
  next buffer k hl =>
  split
  · next hk =>
    split
    · exact hb
    next x hx =>
    split
    · next hview =>
      refine ⟨fun c => ?_, hb.returned, hb.count⟩
      dsimp only
      by_cases hc : c = ⟨k, hk⟩
      · subst hc
        rw [Function.update_self]
        obtain ⟨y, hy, hfloor⟩ := hb.view ⟨k, hk⟩
        exact ⟨x, hx, le_trans hfloor (h.index_le hy hx hview)⟩
      · rw [Function.update_of_ne hc]
        exact hb.view c
    · exact hb
  · next hk =>
    refine ⟨hb.view, fun r hr c => ?_, ?_⟩
    · dsimp only at hr
      rw [List.drop_append_of_le_length hb.count] at hr
      rcases List.mem_append.mp hr with hr | hr
      · exact hb.returned r hr c
      · -- The returned buffer holds the words that were seen last.
        rw [List.mem_singleton.mp hr]
        obtain ⟨x, hx, hfloor⟩ := hb.view c
        have hbuffer := h.loading buffer k hl c (by omega)
        rw [hx, Option.some.injEq] at hbuffer
        rw [← hbuffer]
        exact hfloor
    · dsimp only
      rw [List.length_append]
      exact le_trans hb.count (Nat.le_add_right _ _)

/-- A publication keeps the floor. -/
theorem Beyond.publish [Inhabited α] (hb : Beyond floor count s) (value : Fin n → α) :
    Beyond floor count (wordStep s (.publish value)) := by
  unfold wordStep
  dsimp only
  split <;> exact ⟨hb.view, hb.returned, hb.count⟩

/-- Every access keeps the floor. -/
theorem Beyond.step [Inhabited α] (h : Ordered s) (hb : Beyond floor count s)
    (input : WordInput α n) : Beyond floor count (wordStep s input) := by
  cases input with
  | publish value => exact hb.publish value
  | store =>
    obtain ⟨-, -, hview, -, hreturned⟩ := storeWord_same s
    show Beyond floor count (storeWord s)
    refine ⟨fun c => ?_, ?_, ?_⟩
    · obtain ⟨x, hx, hfloor⟩ := hb.view c
      rw [hview]
      exact ⟨x, getElem?_of_grows (storeWord_grows s c) hx, hfloor⟩
    · rw [hreturned]
      exact hb.returned
    · rw [hreturned]
      exact hb.count
  | release => exact ⟨hb.view, hb.returned, hb.count⟩
  | acquire =>
    unfold wordStep
    dsimp only
    split
    · refine ⟨fun c => ?_, hb.returned, hb.count⟩
      obtain ⟨x, hx, hfloor⟩ := hb.view c
      have hy := List.getElem?_eq_getElem (max_lt (h.view c) (h.released c))
      exact ⟨_, hy, le_trans hfloor (h.index_le hx hy (le_max_left _ _))⟩
    · exact hb
  | snapshot =>
    unfold wordStep
    dsimp only
    split <;> exact ⟨hb.view, hb.returned, hb.count⟩
  | load index => exact hb.load h index

end Floors

end HisiRfCore.RelaxedWords
