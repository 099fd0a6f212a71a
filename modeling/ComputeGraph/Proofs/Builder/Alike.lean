import ComputeGraph.Proofs.Builder.Session
import ComputeGraph.Proofs.Graph.WellFormed

/-!
# Descriptions that are alike

Two builders that number their nodes differently describe the same node by requests that differ in
the numbers of nodes alone.

* `Request.Alike`, `Node.Alike` — the same description up to the numbers of nodes;
* `Attributes.ext` — attributes are told apart by their values at some key;
* **`Request.eq_rename_of_alike`** — where one number belongs to the other by a function, the one
  request is the other with the nodes renamed.
-/

namespace ComputeGraph

/-! ### Descriptions of nodes up to their numbers -/

/-- The value is the same, or a node in place of a related one. -/
def Attribute.Alike (related : NodeId → NodeId → Prop) : Attribute → Attribute → Prop
  | .node i, .node j => related i j
  | a, b => a = b

/-- The values at a key are the same, up to the numbers of nodes if the key refers to nodes. -/
def Attribute.AlikeAt (refers : String → Bool) (related : NodeId → NodeId → Prop) (key : String)
    (a b : Attribute) : Prop :=
  if refers key then a.Alike related b else a = b

/-- Entries with the same key and values that are the same up to the numbers of nodes. -/
def Attributes.EntryAlike (refers : String → Bool) (related : NodeId → NodeId → Prop)
    (e e' : String × Attribute) : Prop :=
  e.1 = e'.1 ∧ Attribute.AlikeAt refers related e.1 e.2 e'.2

/-- The same keys, with values that are the same up to the numbers of nodes. -/
def Attributes.Alike (refers : String → Bool) (related : NodeId → NodeId → Prop)
    (a b : Attributes) : Prop :=
  ∀ key, Option.Rel (Attribute.AlikeAt refers related key) (a.find? key) (b.find? key)

/-- Requests that are the same up to the numbers of nodes. -/
structure Request.Alike (refers : String → Bool) (related : NodeId → NodeId → Prop)
    (p q : Request) : Prop where
  kind_eq : p.kind = q.kind
  inputs : List.Forall₂ related p.inputs q.inputs
  attributes : p.attributes.Alike refers related q.attributes
  name_eq : p.name = q.name
  hostShape_eq : p.hostShape = q.hostShape

/-- All that a node says but its own number. -/
def Node.description (node : Node) : Request :=
  { kind := node.kind, inputs := node.inputs, attributes := node.attributes, name := node.name
    hostShape := node.hostShape }

/-- Nodes that are the same up to the numbers of nodes. -/
def Node.Alike (refers : String → Bool) (related : NodeId → NodeId → Prop) (p q : Node) : Prop :=
  p.description.Alike refers related q.description

section Alike

variable {refers : String → Bool} {related related' : NodeId → NodeId → Prop}

theorem Attribute.Alike.mono {a b : Attribute} (h : a.Alike related b)
    (himp : ∀ i j, related i j → related' i j) : a.Alike related' b := by
  cases a with
  | node i =>
    cases b with
    | node j => exact himp i j h
    | _ => cases h
  | _ => exact h

theorem Attribute.AlikeAt.mono {key : String} {a b : Attribute} (h : AlikeAt refers related key a b)
    (himp : ∀ i j, related i j → related' i j) : AlikeAt refers related' key a b := by
  unfold AlikeAt at h ⊢
  split
  · rename_i hrefers
    rw [if_pos hrefers] at h
    exact h.mono himp
  · rename_i hrefers
    rwa [if_neg hrefers] at h

/-- A value that is not a node is the same whatever the numbers of nodes. -/
theorem Attribute.alikeAt_self {a : Attribute} (h : a.node? = none) (key : String) :
    AlikeAt refers related key a a := by
  unfold AlikeAt
  split
  · cases a with
    | node id => cases h
    | _ => rfl
  · rfl

theorem Attribute.alikeAt_rename {f g : NodeId → NodeId} {key : String} {a : Attribute}
    (h : ∀ i, refers key = true → a.node? = some i → related (f i) (g i)) :
    AlikeAt refers related key (Attributes.renameAt refers f key a)
      (Attributes.renameAt refers g key a) := by
  unfold AlikeAt Attributes.renameAt
  split
  · rename_i hrefers
    cases a with
    | node i => exact h i hrefers rfl
    | _ => rfl
  · rfl

theorem optionRel_imp {α : Type} {r s : α → α → Prop} {x y : Option α} (h : Option.Rel r x y)
    (himp : ∀ a b, r a b → s a b) : Option.Rel s x y := by
  cases h with
  | none => exact .none
  | some hvalue => exact .some (himp _ _ hvalue)

namespace Attributes

theorem Alike.mono {a b : Attributes} (h : a.Alike refers related b)
    (himp : ∀ i j, related i j → related' i j) : a.Alike refers related' b :=
  fun key => optionRel_imp (h key) fun _ _ hvalue => hvalue.mono himp

theorem Alike.insert {a b : Attributes} (h : a.Alike refers related b) {key : String}
    {value value' : Attribute} (hvalue : Attribute.AlikeAt refers related key value value') :
    (a.insert key value).Alike refers related (b.insert key value') := by
  intro k
  rw [find?_insert, find?_insert]
  split
  · rename_i hk
    exact hk ▸ .some hvalue
  · exact h k

/-- Attributes that are listed in the same order. -/
theorem alike_ofList {entries entries' : List (String × Attribute)}
    (h : List.Forall₂ (EntryAlike refers related) entries entries') :
    (ofList entries).Alike refers related (ofList entries') := by
  have hfold : ∀ a b : Attributes, a.Alike refers related b →
      (entries.foldl (fun attributes e => attributes.insert e.1 e.2) a).Alike refers related
        (entries'.foldl (fun attributes e => attributes.insert e.1 e.2) b) := by
    induction h with
    | nil => exact fun a b hab => hab
    | @cons e e' _ _ hhead _ ih =>
      intro a b hab
      obtain ⟨hkey, hvalue⟩ := hhead
      refine ih _ _ ?_
      show (a.insert e.1 e.2).Alike refers related (b.insert e'.1 e'.2)
      rw [← hkey]
      exact hab.insert hvalue
  exact hfold empty empty fun _ => .none

/-- Entries that refer to no nodes are the same whatever the numbers of nodes. -/
theorem entriesAlike_self {entries : List (String × Attribute)}
    (h : ∀ e ∈ entries, e.2.node? = none) :
    List.Forall₂ (EntryAlike refers related) entries entries :=
  List.forall₂_same.2 fun e he => ⟨rfl, Attribute.alikeAt_self (h e he) e.1⟩

/-- A node that is referred to is found at some key. -/
theorem exists_find?_of_mem_references {attributes : Attributes} {i : NodeId}
    (h : i ∈ attributes.references refers) :
    ∃ key, refers key = true ∧ attributes.find? key = some (.node i) := by
  obtain ⟨⟨key, value⟩, he, hi⟩ := List.mem_filterMap.1 h
  have hfind : attributes.find? key = some value := find?_eq_some_iff.2 he
  split at hi
  · rename_i hrefers
    cases value <;> simp [Attribute.node?] at hi
    exact ⟨key, hrefers, hi ▸ hfind⟩
  · cases hi

theorem alike_rename {f g : NodeId → NodeId} {attributes : Attributes}
    (h : ∀ i ∈ attributes.references refers, related (f i) (g i)) :
    (attributes.rename refers f).Alike refers related (attributes.rename refers g) := by
  intro key
  rw [find?_rename, find?_rename]
  cases hvalue : attributes.find? key with
  | none => exact .none
  | some value =>
    refine .some (Attribute.alikeAt_rename fun i hrefers hi => h i ?_)
    have hnode : value = .node i := by
      cases value <;> simp [Attribute.node?] at hi
      rw [hi]
    exact mem_references hrefers (hnode ▸ hvalue)

end Attributes

namespace Request

theorem Alike.mono {p q : Request} (h : p.Alike refers related q)
    (himp : ∀ i j, related i j → related' i j) : p.Alike refers related' q :=
  ⟨h.kind_eq, h.inputs.imp himp, h.attributes.mono himp, h.name_eq, h.hostShape_eq⟩

/-- A request for related nodes. -/
theorem alike_rename {f g : NodeId → NodeId} {request : Request}
    (h : ∀ i ∈ request.references refers, related (f i) (g i)) :
    (request.rename refers f).Alike refers related (request.rename refers g) where
  kind_eq := rfl
  inputs := by
    show List.Forall₂ related (request.inputs.map f) (request.inputs.map g)
    rw [List.forall₂_map_left_iff, List.forall₂_map_right_iff, List.forall₂_same]
    exact fun i hi => h i (List.mem_append_left _ hi)
  attributes := Attributes.alike_rename fun i hi => h i (List.mem_append_right _ hi)
  name_eq := rfl
  hostShape_eq := rfl

/-- What a request refers to is related to something. -/
theorem Alike.exists_of_mem_references {p q : Request} (h : p.Alike refers related q) {i : NodeId}
    (hi : i ∈ p.references refers) : ∃ j, related i j := by
  rcases List.mem_append.1 hi with hi | hi
  · obtain ⟨n, hn, rfl⟩ := List.mem_iff_getElem.1 hi
    obtain ⟨hlength, hget⟩ := List.forall₂_iff_get.1 h.inputs
    exact ⟨_, hget n hn (hlength ▸ hn)⟩
  · obtain ⟨key, hrefers, hkey⟩ := Attributes.exists_find?_of_mem_references hi
    have hvalue := h.attributes key
    rw [hkey] at hvalue
    generalize q.attributes.find? key = found at hvalue
    cases hvalue with
    | @some _ b hvalue =>
      unfold Attribute.AlikeAt at hvalue
      rw [if_pos hrefers] at hvalue
      cases b with
      | node j => exact ⟨j, hvalue⟩
      | _ => cases hvalue

end Request

/-! ### One number by a function of the other -/

namespace Attributes

/-- Attributes are told apart by their values at some key. -/
theorem ext {a b : Attributes} (h : ∀ key, a.find? key = b.find? key) : a = b := by
  have hnodup : ∀ c : Attributes, c.entries.Nodup := fun c =>
    c.sorted.imp fun hlt heq => String.ne_of_lt hlt (congrArg Prod.fst heq)
  have hmem : ∀ e, e ∈ a.entries ↔ e ∈ b.entries := by
    intro e
    rw [← find?_eq_some_iff, ← find?_eq_some_iff, h e.1]
  have hperm : a.entries.Perm b.entries :=
    (List.perm_ext_iff_of_nodup (hnodup a) (hnodup b)).2 hmem
  have hentries : a.entries = b.entries :=
    hperm.eq_of_pairwise (fun _ _ _ _ hlt hgt => absurd hgt (String.lt_asymm hlt)) a.sorted b.sorted
  cases a
  cases b
  cases hentries
  rfl

theorem eq_renameAt_of_alikeAt {f : NodeId → NodeId} {key : String} {a b : Attribute}
    (h : Attribute.AlikeAt refers (fun i j => j = f i) key a b) : b = renameAt refers f key a := by
  unfold Attribute.AlikeAt at h
  unfold renameAt
  split
  · rename_i hrefers
    rw [if_pos hrefers] at h
    cases a with
    | node i =>
      cases b with
      | node j => exact congrArg Attribute.node h
      | _ => cases h
    | _ => exact h.symm
  · rename_i hrefers
    rw [if_neg hrefers] at h
    exact h.symm

theorem eq_rename_of_alike {f : NodeId → NodeId} {a b : Attributes}
    (h : a.Alike refers (fun i j => j = f i) b) : b = a.rename refers f := by
  refine ext fun key => ?_
  rw [find?_rename]
  have hkey := h key
  revert hkey
  cases a.find? key <;> cases b.find? key <;> intro hkey
  · rfl
  · cases hkey
  · cases hkey
  · cases hkey with
    | some hvalue => exact congrArg some (eq_renameAt_of_alikeAt hvalue)

end Attributes

/-- **Requests** that are alike up to a function of numbers differ by a renaming. -/
theorem Request.eq_rename_of_alike {f : NodeId → NodeId} {p q : Request}
    (h : p.Alike refers (fun i j => j = f i) q) : q = p.rename refers f := by
  have hinputs : List.Forall₂ Eq (p.inputs.map f) q.inputs :=
    List.forall₂_map_left_iff.2 (h.inputs.imp fun _ _ hij => hij.symm)
  rw [List.forall₂_eq_eq_eq] at hinputs
  have hattributes : q.attributes = p.attributes.rename refers f :=
    Attributes.eq_rename_of_alike h.attributes
  calc q = ⟨q.kind, q.inputs, q.attributes, q.name, q.hostShape⟩ := rfl
    _ = p.rename refers f := by
      rw [← h.kind_eq, ← hinputs, hattributes, ← h.name_eq, ← h.hostShape_eq]
      rfl

end Alike

end ComputeGraph
