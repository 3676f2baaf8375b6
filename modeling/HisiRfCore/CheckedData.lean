import Mathlib.Logic.Function.Basic
import Mathlib.Data.List.Basic

/-!
# Values behind checking constructors

A value whose fields are private can be built by its checking constructor only, and is
read back through its accessors. Constructor and accessors are partial inverses: the
constructor accepts a description exactly when some value reads back as it. This carries
over to pairs, to lists of parts and to trees of nodes that check their own parts.
-/

namespace HisiRfCore.CheckedData

open Function

variable {α β γ δ η ν : Type*}

/-- A value that passed the check of its constructor. -/
structure Checked (rejects : α → Prop) where
  /-- The value handed to the constructor. -/
  value : α
  /-- The constructor did not reject it. -/
  accepted : ¬ rejects value

/-- The constructor: reject the value, or keep it as it is. -/
def Checked.tryNew (rejects : α → Prop) [DecidablePred rejects] (value : α) :
    Option (Checked rejects) :=
  if h : rejects value then none else some ⟨value, h⟩

/-- What the constructor accepts is read back, and nothing else is. -/
theorem Checked.isPartialInv (rejects : α → Prop) [DecidablePred rejects] :
    IsPartialInv (Checked.value : Checked rejects → α) (Checked.tryNew rejects) := by
  intro x value
  unfold Checked.tryNew
  split
  · next h =>
    refine ⟨fun he => (by cases he), ?_⟩
    rintro rfl
    exact (x.accepted h).elim
  · constructor
    · intro he
      cases he
      rfl
    · rintro rfl
      rfl

/-- The constructor accepts what it does not reject. -/
theorem Checked.tryNew_isSome {rejects : α → Prop} [DecidablePred rejects] {value : α} :
    (Checked.tryNew rejects value).isSome = true ↔ ¬ rejects value := by
  unfold Checked.tryNew
  split
  · next h => simp [h]
  · next h => simp [h]

section Parts

variable {view : α → β} {build : β → Option α} {other : γ → δ} {buildOther : δ → Option γ}

/-- A constructor accepts exactly the descriptions of its values. -/
theorem isSome_iff (h : IsPartialInv view build) {b : β} :
    (build b).isSome = true ↔ ∃ a, view a = b := by
  rw [Option.isSome_iff_exists]
  exact exists_congr fun a => h a b

/-- Both parts of a pair are built on their own. -/
def buildBoth (build : β → Option α) (buildOther : δ → Option γ) (b : β × δ) : Option (α × γ) :=
  (build b.1).bind fun a => (buildOther b.2).map fun c => (a, c)

/-- A pair is read back by parts. -/
theorem isPartialInv_both (h : IsPartialInv view build) (ho : IsPartialInv other buildOther) :
    IsPartialInv (Prod.map view other) (buildBoth build buildOther) := by
  rintro ⟨a, c⟩ ⟨b, d⟩
  simp only [buildBoth, Option.bind_eq_some_iff, Option.map_eq_some_iff, Prod.map, Prod.mk.injEq]
  constructor
  · rintro ⟨a', ha, c', hc, rfl, rfl⟩
    exact ⟨(h _ _).mp ha, (ho _ _).mp hc⟩
  · rintro ⟨ha, hc⟩
    exact ⟨a, (h _ _).mpr ha, c, (ho _ _).mpr hc, rfl, rfl⟩

/-- A pair is accepted when both parts are. -/
theorem buildBoth_isSome {b : β} {d : δ} :
    (buildBoth build buildOther (b, d)).isSome = true ↔
      (build b).isSome = true ∧ (buildOther d).isSome = true := by
  cases hb : build b <;> cases hd : buildOther d <;> simp [buildBoth, hb, hd]

/-- What is kept as it is, is read back as it is. -/
theorem isPartialInv_id : IsPartialInv (id : α → α) some := fun _ _ => Option.some_inj.trans eq_comm

/-- A record that holds its parts as they are is read back by them. -/
theorem isPartialInv_record (fields : ν → α) (make : α → ν) (h : IsPartialInv view build)
    (hmake : ∀ x, make (fields x) = x) (hfields : ∀ a, fields (make a) = a) :
    IsPartialInv (fun x => view (fields x)) fun b => (build b).map make := by
  intro x b
  rw [Option.map_eq_some_iff, ← h]
  constructor
  · rintro ⟨a, ha, rfl⟩
    rw [hfields]
    exact ha
  · intro ha
    exact ⟨fields x, ha, hmake x⟩

/-- A list is read back part by part. -/
theorem isPartialInv_list (h : IsPartialInv view build) :
    IsPartialInv (List.map view) (List.mapM build) := by
  intro parts described
  induction described generalizing parts with
  | nil => cases parts <;> simp
  | cons b rest ih =>
    cases parts with
    | nil => simp [Option.bind_eq_some_iff]
    | cons a parts =>
      simp only [List.mapM_cons, Option.bind_eq_bind, Option.bind_eq_some_iff, Option.pure_def,
        Option.some.injEq, List.cons.injEq, List.map_cons]
      constructor
      · rintro ⟨a', ha, parts', hparts, rfl, rfl⟩
        exact ⟨(h _ _).mp ha, (ih _).mp hparts⟩
      · rintro ⟨ha, hparts⟩
        exact ⟨a, (h _ _).mpr ha, parts, (ih _).mpr hparts, rfl, rfl⟩

/-- A list is accepted when each of its parts is. -/
theorem mapM_isSome {described : List β} :
    (described.mapM build).isSome = true ↔ ∀ b ∈ described, (build b).isSome = true := by
  induction described with
  | nil => simp
  | cons b rest ih =>
    rw [List.forall_mem_cons, ← ih]
    cases hb : build b <;> cases hr : rest.mapM build <;> simp [hb, hr]

end Parts

/-- A node of a tree: what it holds itself, and its parts. -/
structure Node (η β : Type*) where
  /-- What the node holds itself. -/
  head : η
  /-- Its parts, in order. -/
  parts : List β

/-- The node with its parts described. -/
def Node.map (view : α → β) (node : Node η α) : Node η β := ⟨node.head, node.parts.map view⟩

/-- Build the parts, then the node over them. -/
def Node.build (tryNew : η → List α → Option ν) (build : β → Option α) (node : Node η β) :
    Option ν :=
  (node.parts.mapM build).bind (tryNew node.head)

section Nodes

variable {view : α → β} {build : β → Option α} {tryNew : η → List α → Option ν}
  {read : ν → Node η α}

/-- A tree is read back node by node. -/
theorem Node.isPartialInv (hnode : IsPartialInv read fun node => tryNew node.head node.parts)
    (hpart : IsPartialInv view build) :
    IsPartialInv (fun x => (read x).map view) (Node.build tryNew build) := by
  rintro x ⟨head, described⟩
  have hlist := isPartialInv_list hpart
  simp only [Node.build, Node.map, Option.bind_eq_some_iff, Node.mk.injEq]
  constructor
  · rintro ⟨parts, hparts, hx⟩
    have hread : read x = ⟨head, parts⟩ := (hnode x ⟨head, parts⟩).mp hx
    rw [hread]
    exact ⟨rfl, (hlist _ _).mp hparts⟩
  · rintro ⟨hhead, hparts⟩
    refine ⟨(read x).parts, (hlist _ _).mpr hparts, ?_⟩
    rw [← hhead]
    exact (hnode x (read x)).mpr rfl

/-- A tree is accepted when its parts are and the node over them is. -/
theorem Node.build_isSome (well : η → List β → Prop) (hpart : IsPartialInv view build)
    (hwell : ∀ head parts, (tryNew head parts).isSome = true ↔ well head (parts.map view))
    {node : Node η β} :
    (node.build tryNew build).isSome = true ↔
      (∀ part ∈ node.parts, (build part).isSome = true) ∧ well node.head node.parts := by
  rw [← mapM_isSome, Node.build]
  cases hparts : node.parts.mapM build with
  | none => simp
  | some parts =>
    have hmap : parts.map view = node.parts := (isPartialInv_list hpart _ _).mp hparts
    rw [Option.bind_some, hwell, hmap]
    simp

/-- A node that checks no more than that it has parts. -/
abbrev NonemptyNode (η α : Type*) := Checked fun node : Node η α => node.parts.isEmpty = true

/-- Build a node that has parts. -/
def NonemptyNode.ofParts (build : β → Option α) : Node η β → Option (NonemptyNode η α) :=
  Node.build (fun head parts => Checked.tryNew _ ⟨head, parts⟩) build

theorem NonemptyNode.isPartialInv (hpart : IsPartialInv view build) :
    IsPartialInv (fun x : NonemptyNode η α => x.value.map view) (NonemptyNode.ofParts build) :=
  Node.isPartialInv (Checked.isPartialInv _) hpart

/-- It is accepted when it has parts and each is accepted. -/
theorem NonemptyNode.ofParts_isSome (hpart : IsPartialInv view build) {node : Node η β} :
    (NonemptyNode.ofParts build node).isSome = true ↔
      node.parts ≠ [] ∧ ∀ part ∈ node.parts, (build part).isSome = true := by
  have hwell : ∀ (head : η) (parts : List α),
      (Checked.tryNew (fun node : Node η α => node.parts.isEmpty = true)
        ⟨head, parts⟩).isSome = true ↔ parts.map view ≠ [] := by
    intro head parts
    rw [Checked.tryNew_isSome, List.isEmpty_iff, ne_eq, List.map_eq_nil_iff]
  rw [NonemptyNode.ofParts, Node.build_isSome (fun _ parts => parts ≠ []) hpart hwell, and_comm]

end Nodes

end HisiRfCore.CheckedData
