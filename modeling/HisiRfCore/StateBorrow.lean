import Mathlib.Logic.Basic

/-!
# Fallible methods on a borrowed part of a larger state

A method taking `&mut self` and returning a result is an `EStateM` program: an
error keeps every write made before it. A field borrow runs such a method on
one field of a larger state and converts its error at the call.
-/

namespace HisiRfCore.StateBorrow

variable {σ τ ε ε' α β : Type}

/-- A mutable field of a larger state. -/
structure Field (σ τ : Type) where
  /-- Read the field. -/
  get : σ → τ
  /-- Replace the field, leaving the rest of the state alone. -/
  set : τ → σ → σ

/-- Run a method on the field and convert its error into the caller's. -/
def Field.call (f : Field σ τ) (w : ε → ε') (method : EStateM ε τ α) : EStateM ε' σ α :=
  fun s => match method (f.get s) with
    | .ok a t => .ok a (f.set t s)
    | .error e t => .error (w e) (f.set t s)

/-- Run an infallible method on the field. -/
def Field.update (f : Field σ τ) (method : τ → α × τ) : EStateM ε σ α :=
  fun s => .ok (method (f.get s)).1 (f.set (method (f.get s)).2 s)

@[simp] theorem pure_apply (a : α) (s : σ) : (pure a : EStateM ε σ α) s = .ok a s := rfl

@[simp] theorem throw_apply (e : ε) (s : σ) : (throw e : EStateM ε σ α) s = .error e s := rfl

@[simp] theorem get_apply (s : σ) : (get : EStateM ε σ σ) s = .ok s s := rfl

@[simp] theorem set_apply (s t : σ) : (set t : EStateM ε σ PUnit) s = .ok ⟨⟩ t := rfl

@[simp] theorem modify_apply (f : σ → σ) (s : σ) :
    (modify f : EStateM ε σ PUnit) s = .ok ⟨⟩ (f s) := rfl

/-- A pure update succeeds with its value and its new state. -/
theorem modifyGet_of {f : σ → α × σ} {s t : σ} {a : α} (h : f s = (a, t)) :
    (modifyGet f : EStateM ε σ α) s = .ok a t := by
  have hx : (modifyGet f : EStateM ε σ α) s = .ok (f s).1 (f s).2 := rfl
  rw [hx, h]

/-- Sequencing passes the value and the state on, and stops at the first error. -/
theorem bind_apply (x : EStateM ε σ α) (f : α → EStateM ε σ β) (s : σ) :
    (x >>= f) s = match x s with
      | .ok a t => f a t
      | .error e t => .error e t := by
  show EStateM.bind x f s = _
  unfold EStateM.bind
  cases x s <;> rfl

/-- A successful first step hands over to the rest. -/
theorem bind_ok {x : EStateM ε σ α} {f : α → EStateM ε σ β} {s t : σ} {a : α}
    (h : x s = .ok a t) : (x >>= f) s = f a t := by rw [bind_apply, h]

/-- A failed first step is the result. -/
theorem bind_error {x : EStateM ε σ α} {f : α → EStateM ε σ β} {s t : σ} {e : ε}
    (h : x s = .error e t) : (x >>= f) s = .error e t := by rw [bind_apply, h]

/-- A successful method writes its new state back to the field. -/
theorem call_ok {f : Field σ τ} {w : ε → ε'} {method : EStateM ε τ α} {s : σ} {t : τ} {a : α}
    (h : method (f.get s) = .ok a t) : f.call w method s = .ok a (f.set t s) := by
  rw [Field.call, h]

/-- A failed method keeps its writes and converts its error. -/
theorem call_error {f : Field σ τ} {w : ε → ε'} {method : EStateM ε τ α} {s : σ} {t : τ} {e : ε}
    (h : method (f.get s) = .error e t) :
    f.call w method s = .error (w e) (f.set t s) := by
  rw [Field.call, h]

/-- An infallible method writes its new state back to the field. -/
theorem update_of {f : Field σ τ} {method : τ → α × τ} {s : σ} {a : α} {t : τ}
    (h : method (f.get s) = (a, t)) : (f.update method : EStateM ε σ α) s = .ok a (f.set t s) := by
  rw [Field.update, h]

/-- State left behind by a method, whether it failed or not. -/
def after : EStateM.Result ε σ α → σ
  | .ok _ s => s
  | .error _ s => s

/-- Run a method and, when it fails, a cleanup before its error is passed on. -/
def withCleanup (cleanup : σ → σ) (method : EStateM ε σ α) : EStateM ε σ α := fun s =>
  match method s with
  | .ok a t => .ok a t
  | .error e t => .error e (cleanup t)

/-- A successful method needs no cleanup. -/
theorem withCleanup_ok {cleanup : σ → σ} {method : EStateM ε σ α} {s t : σ} {a : α}
    (h : method s = .ok a t) : withCleanup cleanup method s = .ok a t := by
  rw [withCleanup, h]

/-- A failed method is cleaned up after and keeps its error. -/
theorem withCleanup_error {cleanup : σ → σ} {method : EStateM ε σ α} {s t : σ} {e : ε}
    (h : method s = .error e t) : withCleanup cleanup method s = .error e (cleanup t) := by
  rw [withCleanup, h]

/-- Value or error of a method, without the state. -/
def reply : EStateM.Result ε σ α → Except ε α
  | .ok a _ => .ok a
  | .error e _ => .error e

@[simp] theorem after_ok (a : α) (s : σ) : after (.ok a s : EStateM.Result ε σ α) = s := rfl

@[simp] theorem after_error (e : ε) (s : σ) : after (.error e s : EStateM.Result ε σ α) = s := rfl

@[simp] theorem reply_ok (a : α) (s : σ) : reply (.ok a s : EStateM.Result ε σ α) = .ok a := rfl

@[simp] theorem reply_error (e : ε) (s : σ) :
    reply (.error e s : EStateM.Result ε σ α) = .error e := rfl

section Keeps

variable {γ : Type} {view : σ → γ}

/-- Success or failure, a method leaves a view of the state alone. -/
def Keeps (view : σ → γ) (method : EStateM ε σ α) : Prop :=
  ∀ s, view (after (method s)) = view s

theorem keeps_pure (a : α) : Keeps view (pure a : EStateM ε σ α) := fun _ => rfl

theorem keeps_throw (e : ε) : Keeps view (throw e : EStateM ε σ α) := fun _ => rfl

theorem keeps_get : Keeps view (get : EStateM ε σ σ) := fun _ => rfl

theorem keeps_modify {f : σ → σ} (h : ∀ s, view (f s) = view s) :
    Keeps view (modify f : EStateM ε σ PUnit) := h

/-- Two methods in sequence keep what both keep. -/
theorem Keeps.bind {x : EStateM ε σ α} {f : α → EStateM ε σ β} (hx : Keeps view x)
    (hf : ∀ a, Keeps view (f a)) : Keeps view (x >>= f) := by
  intro s
  have hfirst := hx s
  rw [bind_apply]
  cases hr : x s with
  | ok a t =>
    rw [hr] at hfirst
    exact (hf a t).trans hfirst
  | error e t =>
    rw [hr] at hfirst
    exact hfirst

/-- A method on a field keeps what no write of the field changes. -/
theorem keeps_call {f : Field σ τ} (h : ∀ t s, view (f.set t s) = view s) (w : ε → ε')
    (method : EStateM ε τ α) : Keeps view (f.call w method) := by
  intro s
  unfold Field.call
  cases method (f.get s) with
  | ok a t => exact h t s
  | error e t => exact h t s

theorem keeps_update {f : Field σ τ} (h : ∀ t s, view (f.set t s) = view s)
    (method : τ → α × τ) : Keeps view (f.update method : EStateM ε σ α) :=
  fun s => h _ s

/-- A cleanup that leaves the view alone does not show. -/
theorem Keeps.withCleanup {cleanup : σ → σ} {method : EStateM ε σ α} (hm : Keeps view method)
    (hc : ∀ s, view (cleanup s) = view s) : Keeps view (withCleanup cleanup method) := by
  intro s
  have hmethod := hm s
  unfold StateBorrow.withCleanup
  cases hr : method s with
  | ok a t =>
    rw [hr] at hmethod
    exact hmethod
  | error e t =>
    rw [hr] at hmethod
    exact (hc t).trans hmethod

end Keeps

section Clean

variable {method x : EStateM ε σ α} {f : α → EStateM ε σ β}

/-- A method that fails leaves the state as it was. -/
def Clean (method : EStateM ε σ α) : Prop := ∀ s e t, method s = .error e t → t = s

/-- A method that succeeds has only read the state. -/
def Reads (method : EStateM ε σ α) : Prop := ∀ s a t, method s = .ok a t → t = s

/-- A method that never fails. -/
def Succeeds (method : EStateM ε σ α) : Prop := ∀ s, ∃ a t, method s = .ok a t

theorem succeeds_pure (a : α) : Succeeds (pure a : EStateM ε σ α) := fun s => ⟨a, s, rfl⟩

theorem succeeds_modify (g : σ → σ) : Succeeds (modify g : EStateM ε σ PUnit) :=
  fun s => ⟨⟨⟩, g s, rfl⟩

theorem clean_throw (e : ε) : Clean (throw e : EStateM ε σ α) := by
  intro s e' t h
  cases h
  rfl

/-- A method that never fails leaves nothing behind a failure. -/
theorem Succeeds.clean (h : Succeeds method) : Clean method := by
  intro s e t he
  obtain ⟨a, t', ha⟩ := h s
  cases ha.symm.trans he

/-- Two methods that never fail do not fail in sequence. -/
theorem Succeeds.bind (hx : Succeeds x) (hf : ∀ a, Succeeds (f a)) : Succeeds (x >>= f) := by
  intro s
  obtain ⟨a, t, ha⟩ := hx s
  obtain ⟨b, u, hb⟩ := hf a t
  exact ⟨b, u, (bind_ok ha).trans hb⟩

/-- After a part that only reads, the rest decides what a failure leaves behind. -/
theorem Clean.bind_reads (hx : Clean x) (hr : Reads x) (hf : ∀ a, Clean (f a)) :
    Clean (x >>= f) := by
  intro s e t h
  rw [bind_apply] at h
  cases hs : x s with
  | ok a u =>
    rw [hs] at h
    rw [hf a u e t h]
    exact hr s a u hs
  | error e' u =>
    rw [hs] at h
    cases h
    exact hx s _ _ hs

/-- A rest that never fails adds no failure. -/
theorem Clean.bind_succeeds (hx : Clean x) (hf : ∀ a, Succeeds (f a)) : Clean (x >>= f) := by
  intro s e t h
  rw [bind_apply] at h
  cases hs : x s with
  | ok a u =>
    rw [hs] at h
    obtain ⟨b, v, hb⟩ := hf a u
    cases hb.symm.trans h
  | error e' u =>
    rw [hs] at h
    cases h
    exact hx s _ _ hs

end Clean

end HisiRfCore.StateBorrow
