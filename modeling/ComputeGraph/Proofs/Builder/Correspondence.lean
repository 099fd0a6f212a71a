import ComputeGraph.Proofs.Builder.Alike
import ComputeGraph.Proofs.Builder.Effect

/-!
# Graphs that correspond up to folding

Two builders, of which one folds functions of literals, make graphs whose nodes correspond up to
their numbers. The plain graph has more nodes: the constants that functions are applied to.

* `Node.IsFolded`, `Node.Matches` — a function of a constant and the constant of its values; nodes
  that are such a pair, or the same up to the numbers of nodes;
* `Correspondence` — a plain graph and a folding one, with the counterpart of every node of the
  latter, and what holds of them;
* **`Correspondence.snoc`**, `Correspondence.skip` — both graphs grow, or the plain one alone.
-/

namespace ComputeGraph

/-! ### Correspondences -/

/-- A node is the counterpart of another if it stands at the place of that one in a list. -/
def IsCounterpart (counterparts : List NodeId) (i j : NodeId) : Prop :=
  counterparts[j]? = some i

/-- The first node applies a function to a constant that has no counterpart, and the second is the
constant of the values. -/
structure Node.IsFolded (policy : DomainPolicy) (plain : Graph) (counterparts : List NodeId)
    (f : Elementwise) (value : Tensor) (p q : Node) : Prop where
  kind_eq : p.kind = f.kind
  operand : ∃ c constant, p.inputs = [c] ∧ plain.node? c = some constant ∧
    constant.IsConstant value ∧ c ∉ counterparts
  constant : q.IsConstant (f.fold policy value)
  name_eq : p.name = q.name
  hostShape_eq : p.hostShape = q.hostShape

theorem IsCounterpart.of_extends {counterparts more : List NodeId} (h : counterparts <+: more)
    {i j : NodeId} (hat : IsCounterpart counterparts i j) : IsCounterpart more i j := by
  obtain ⟨new, rfl⟩ := h
  have hlt : j < counterparts.length := (List.getElem?_eq_some_iff.1 hat).1
  show (counterparts ++ new)[j]? = some i
  rw [List.getElem?_append_left hlt]
  exact hat

/-- A folded node stays one if only new nodes become counterparts. -/
theorem Node.IsFolded.mono {policy : DomainPolicy} {plain after : Graph}
    {counterparts more : List NodeId} (hplain : plain.nodes <+: after.nodes)
    (hfresh : ∀ i ∈ more, i ∈ counterparts ∨ plain.size ≤ i) {f : Elementwise} {value : Tensor}
    {p q : Node} (h : IsFolded policy plain counterparts f value p q) :
    IsFolded policy after more f value p q := by
  obtain ⟨c, constant, hinputs, hconstant, his, hnot⟩ := h.operand
  refine { h with operand :=
    ⟨c, constant, hinputs, Graph.node?_of_extends hplain hconstant, his, fun hmem => ?_⟩ }
  rcases hfresh c hmem with hold | hnew
  · exact hnot hold
  · exact absurd (Graph.lt_size_of_node? hconstant) (Nat.not_lt.2 hnew)

/-- The nodes are the same up to the numbers of nodes, or the second is folded. -/
def Node.Matches (refers : String → Bool) (policy : DomainPolicy) (plain : Graph)
    (counterparts : List NodeId) (p q : Node) : Prop :=
  p.Alike refers (IsCounterpart counterparts) q ∨
    ∃ f value, IsFolded policy plain counterparts f value p q

namespace Node.Matches

variable {refers : String → Bool} {policy : DomainPolicy} {plain after : Graph}
  {counterparts more : List NodeId} {p q : Node}

theorem mono (hplain : plain.nodes <+: after.nodes) (hextends : counterparts <+: more)
    (hfresh : ∀ i ∈ more, i ∈ counterparts ∨ plain.size ≤ i)
    (h : p.Matches refers policy plain counterparts q) :
    p.Matches refers policy after more q := by
  refine h.imp (fun h => h.mono fun _ _ => IsCounterpart.of_extends hextends) fun h => ?_
  obtain ⟨f, value, h⟩ := h
  exact ⟨f, value, h.mono hplain hfresh⟩

theorem name_eq (h : p.Matches refers policy plain counterparts q) : p.name = q.name := by
  rcases h with h | ⟨f, value, h⟩
  · exact h.name_eq
  · exact h.name_eq

theorem hostShape_eq (h : p.Matches refers policy plain counterparts q) :
    p.hostShape = q.hostShape := by
  rcases h with h | ⟨f, value, h⟩
  · exact h.hostShape_eq
  · exact h.hostShape_eq

/-- Neither a function nor a constant is a dynamic axis. -/
theorem dynamicAxis_iff (h : p.Matches refers policy plain counterparts q) :
    p.kind = .dynamicAxis ↔ q.kind = .dynamicAxis := by
  rcases h with h | ⟨f, value, h⟩
  · have hkind : p.kind = q.kind := h.kind_eq
    rw [hkind]
  · rw [h.kind_eq, h.constant.kind_eq]
    cases f <;> decide

end Node.Matches

/-- A graph made by a plain builder and one made by a folding builder. Every node of the latter has
a counterpart in the former, in the same order, which matches it. The nodes of the plain graph that
are not counterparts are unnamed constants. -/
structure Correspondence (refers : String → Bool) (policy : DomainPolicy) where
  plain : Graph
  folding : Graph
  /-- The counterpart of every node of the folding graph. -/
  counterparts : List NodeId
  length_eq : counterparts.length = folding.size
  increasing : counterparts.Pairwise (· < ·)
  matched : ∀ {i j}, IsCounterpart counterparts i j → ∃ p q, plain.node? i = some p ∧
    folding.node? j = some q ∧ p.Matches refers policy plain counterparts q
  alone : ∀ {i p}, plain.node? i = some p → i ∉ counterparts →
    p.name = none ∧ ∃ value, p.IsConstant value
  hasName_eq : ∀ name, plain.hasName name = folding.hasName name

namespace Correspondence

variable {refers : String → Bool} {policy : DomainPolicy}

/-- The two graphs without nodes. -/
def empty (refers : String → Bool) (policy : DomainPolicy) : Correspondence refers policy where
  plain := .empty
  folding := .empty
  counterparts := []
  length_eq := rfl
  increasing := .nil
  matched := by
    intro i j h
    cases h
  alone := by
    intro i p h
    cases h
  hasName_eq := fun _ => rfl

/-- The node of the plain graph is the counterpart of the node of the folding one. -/
def At (world : Correspondence refers policy) (i j : NodeId) : Prop :=
  IsCounterpart world.counterparts i j

/-- Nodes that are counterparts and the same up to the numbers of nodes. -/
def Alike (world : Correspondence refers policy) (i j : NodeId) : Prop :=
  ∃ p q, world.plain.node? i = some p ∧ world.folding.node? j = some q ∧ world.At i j ∧
    p.Alike refers world.At q

/-- Nodes of the given name that are counterparts, of which the first applies a function to a
constant and the second is the constant of the values. -/
def Folded (world : Correspondence refers policy) (f : Elementwise) (value : Tensor)
    (name : Option String) (i j : NodeId) : Prop :=
  ∃ p q, world.plain.node? i = some p ∧ world.folding.node? j = some q ∧ world.At i j ∧
    q.name = name ∧ Node.IsFolded policy world.plain world.counterparts f value p q

/-- Both graphs have more nodes, and only new nodes are new counterparts. -/
structure Extends (world after : Correspondence refers policy) : Prop where
  plain : world.plain.nodes <+: after.plain.nodes
  folding : world.folding.nodes <+: after.folding.nodes
  counterparts : world.counterparts <+: after.counterparts
  fresh : ∀ i ∈ after.counterparts, i ∈ world.counterparts ∨ world.plain.size ≤ i

/-! ### What corresponds -/

variable {world after last : Correspondence refers policy} {i j : NodeId}

theorem lt_size (h : i ∈ world.counterparts) : i < world.plain.size := by
  obtain ⟨j, hj⟩ := List.mem_iff_getElem?.1 h
  obtain ⟨p, q, hp, -, -⟩ := world.matched hj
  exact Graph.lt_size_of_node? hp

/-- Counterparts have the same name and the same shape, and both are dynamic axes or none is. -/
theorem exists_of_at (h : world.At i j) : ∃ p q, world.plain.node? i = some p ∧
    world.folding.node? j = some q ∧ p.name = q.name ∧ p.hostShape = q.hostShape ∧
      (p.kind = .dynamicAxis ↔ q.kind = .dynamicAxis) := by
  obtain ⟨p, q, hp, hq, hmatch⟩ := world.matched h
  exact ⟨p, q, hp, hq, hmatch.name_eq, hmatch.hostShape_eq, hmatch.dynamicAxis_iff⟩

/-- The same names are free. -/
theorem isFree_iff (world : Correspondence refers policy) (name : Option String) :
    world.plain.IsFree name ↔ world.folding.IsFree name := by
  unfold Graph.IsFree
  simp only [world.hasName_eq]

/-! ### Growing -/

namespace Extends

theorem refl (world : Correspondence refers policy) : world.Extends world :=
  ⟨List.prefix_refl _, List.prefix_refl _, List.prefix_refl _, fun _ hi => .inl hi⟩

theorem trans (h : world.Extends after) (h' : after.Extends last) : world.Extends last where
  plain := h.plain.trans h'.plain
  folding := h.folding.trans h'.folding
  counterparts := h.counterparts.trans h'.counterparts
  fresh := by
    intro i hi
    rcases h'.fresh i hi with hold | hnew
    · exact h.fresh i hold
    · exact .inr (Nat.le_trans h.plain.length_le hnew)

theorem at_of_at (h : world.Extends after) (hat : world.At i j) : after.At i j :=
  hat.of_extends h.counterparts

theorem alike (h : world.Extends after) (halike : world.Alike i j) : after.Alike i j := by
  obtain ⟨p, q, hp, hq, hat, hsame⟩ := halike
  exact ⟨p, q, Graph.node?_of_extends h.plain hp, Graph.node?_of_extends h.folding hq,
    h.at_of_at hat, hsame.mono fun _ _ => h.at_of_at⟩

theorem folded (h : world.Extends after) {f : Elementwise} {value : Tensor} {name : Option String}
    (hfolded : world.Folded f value name i j) : after.Folded f value name i j := by
  obtain ⟨p, q, hp, hq, hat, hname, hfold⟩ := hfolded
  exact ⟨p, q, Graph.node?_of_extends h.plain hp, Graph.node?_of_extends h.folding hq,
    h.at_of_at hat, hname, hfold.mono h.plain h.fresh⟩

end Extends

/-- Only the plain graph gets a node, which is an unnamed constant. -/
def skip (world : Correspondence refers policy) (c : Node) (hname : c.name = none)
    (hconstant : ∃ value, c.IsConstant value) : Correspondence refers policy where
  plain := world.plain.snoc c
  folding := world.folding
  counterparts := world.counterparts
  length_eq := world.length_eq
  increasing := world.increasing
  matched := by
    intro i j h
    obtain ⟨p, q, hp, hq, hmatch⟩ := world.matched h
    have hextends := world.plain.nodes_prefix_snoc c
    exact ⟨p, q, Graph.node?_of_extends hextends hp, hq,
      hmatch.mono hextends (List.prefix_refl _) fun _ hi => .inl hi⟩
  alone := by
    intro i p hp hnot
    rcases Graph.node?_snoc_eq_some hp with hp | ⟨-, rfl⟩
    · exact world.alone hp hnot
    · exact ⟨hname, hconstant⟩
  hasName_eq := by
    intro name
    rw [Graph.hasName_snoc, hname, world.hasName_eq]
    rfl

theorem extends_skip {c : Node} (hname : c.name = none) (hconstant : ∃ value, c.IsConstant value) :
    world.Extends (world.skip c hname hconstant) :=
  ⟨world.plain.nodes_prefix_snoc c, List.prefix_refl _, List.prefix_refl _, fun _ hi => .inl hi⟩

/-- The next node of the plain graph is not a counterpart yet. -/
theorem fresh_snoc (world : Correspondence refers policy) :
    ∀ i ∈ world.counterparts ++ [world.plain.size],
      i ∈ world.counterparts ∨ world.plain.size ≤ i := by
  intro i hi
  refine (List.mem_append.1 hi).imp_right fun hi => ?_
  exact Nat.le_of_eq (List.mem_singleton.1 hi).symm

/-- Both graphs get a node, and the nodes match. -/
def snoc (world : Correspondence refers policy) (p q : Node)
    (hmatch : p.Matches refers policy world.plain world.counterparts q) :
    Correspondence refers policy where
  plain := world.plain.snoc p
  folding := world.folding.snoc q
  counterparts := world.counterparts ++ [world.plain.size]
  length_eq := by
    show _ = (world.folding.nodes ++ [q]).length
    rw [List.length_append, List.length_append, world.length_eq]
    rfl
  increasing := by
    refine List.pairwise_append.2 ⟨world.increasing, List.pairwise_singleton _ _, ?_⟩
    intro i hi j hj
    rw [List.mem_singleton.1 hj]
    exact lt_size hi
  matched := by
    have hplain := world.plain.nodes_prefix_snoc p
    have hcounterparts : world.counterparts <+: world.counterparts ++ [world.plain.size] :=
      List.prefix_append _ _
    intro i j h
    rcases getElem?_concat_eq_some h with hold | ⟨rfl, rfl⟩
    · obtain ⟨p', q', hp, hq, hold⟩ := world.matched hold
      exact ⟨p', q', Graph.node?_of_extends hplain hp,
        Graph.node?_of_extends (world.folding.nodes_prefix_snoc q) hq,
        hold.mono hplain hcounterparts world.fresh_snoc⟩
    · refine ⟨p, q, Graph.node?_snoc_size _ p, ?_, hmatch.mono hplain hcounterparts
        world.fresh_snoc⟩
      rw [world.length_eq, Graph.node?_snoc_size]
  alone := by
    intro i p' hp hnot
    rcases Graph.node?_snoc_eq_some hp with hp | ⟨hi, -⟩
    · exact world.alone hp fun hmem => hnot (List.mem_append_left _ hmem)
    · exact absurd (hi ▸ List.mem_append_right _ List.mem_cons_self) hnot
  hasName_eq := by
    intro name
    rw [Graph.hasName_snoc, Graph.hasName_snoc, hmatch.name_eq, world.hasName_eq]

section Snoc

variable {p q : Node} (hmatch : p.Matches refers policy world.plain world.counterparts q)

theorem extends_snoc : world.Extends (world.snoc p q hmatch) :=
  ⟨world.plain.nodes_prefix_snoc p, world.folding.nodes_prefix_snoc q, List.prefix_append _ _,
    world.fresh_snoc⟩

/-- The new nodes are counterparts. -/
theorem at_snoc : (world.snoc p q hmatch).At world.plain.size world.folding.size := by
  show (world.counterparts ++ [world.plain.size])[world.folding.size]? = some world.plain.size
  rw [← world.length_eq, List.getElem?_concat_length]

end Snoc

end Correspondence

end ComputeGraph
