import ComputeGraph.Proofs.Builder.Growth
import ComputeGraph.Proofs.Graph.Tables
import ComputeGraph.Proofs.Shape.Broadcast

/-!
# Well-formed graphs

The ids of nodes are their places, operands come before the nodes that consume them, names are
distinct, and the index holds the names with the ids of their nodes and nothing else. Appending a
node keeps this, so it holds of every graph that can be reached.

* `Graph.WellFormed` — the invariant;
* **`Graph.WellFormed.push`** — what appending a node keeps;
* **`Graph.WellFormed.find?_eq_some`** — a name finds the one node that has it;
* **`Graph.Reachable.wellFormed`** — what holds after any sequence of calls and requests;
* **`Registry.isRefusal_of_reports`** — the errors for which requests are refused;
* **`wellFormed_and_lookup`** — all that follows for names, errors and tables.
-/

namespace ComputeGraph

/-! ### Lists of pairs with distinct keys -/

theorem lookup_eq_some_of_nodup {α : Type} {entries : List (String × α)}
    (h : (entries.map Prod.fst).Nodup) {key : String} {value : α} :
    entries.lookup key = some value ↔ (key, value) ∈ entries := by
  induction entries with
  | nil => simp
  | cons head entries ih =>
    obtain ⟨k, v⟩ := head
    obtain ⟨hhead, htail⟩ := List.nodup_cons.1 h
    by_cases hk : key = k
    · subst hk
      have hnot : (key, value) ∉ entries := fun hmem => hhead (List.mem_map.2 ⟨_, hmem, rfl⟩)
      rw [List.lookup_cons_self, List.mem_cons, Option.some.injEq, Prod.mk.injEq]
      constructor
      · intro hv
        exact .inl ⟨rfl, hv.symm⟩
      · intro hmem
        rcases hmem with hv | hmem
        · exact hv.2.symm
        · exact absurd hmem hnot
    · have hbeq : (key == k) = false := by simpa using hk
      rw [List.lookup_cons, hbeq, List.mem_cons, Prod.mk.injEq]
      constructor
      · intro hlookup
        exact .inr ((ih htail).1 hlookup)
      · intro hmem
        rcases hmem with hv | hmem
        · exact absurd hv.1 hk
        · exact (ih htail).2 hmem

namespace Attributes

theorem keys_nodup (attributes : Attributes) : (attributes.entries.map Prod.fst).Nodup :=
  (List.pairwise_map.2 attributes.sorted).imp fun hlt => String.ne_of_lt hlt

theorem find?_eq_some_iff {attributes : Attributes} {key : String} {value : Attribute} :
    attributes.find? key = some value ↔ (key, value) ∈ attributes.entries :=
  lookup_eq_some_of_nodup attributes.keys_nodup

end Attributes

/-! ### The invariant -/

/-- What holds of the nodes of a graph and its index of names. -/
structure Graph.WellFormed (graph : Graph) : Prop where
  id_eq : ∀ {i : Nat} {node : Node}, graph.node? i = some node → node.id = i
  inputs_lt : ∀ node ∈ graph.nodes, ∀ input ∈ node.inputs, input < node.id
  names_nodup : (graph.nodes.filterMap Node.name).Nodup
  index_perm : graph.names.Perm (graph.nodes.filterMap Node.entry?)

namespace Graph.WellFormed

theorem empty : WellFormed .empty where
  id_eq := by
    intro i node h
    cases h
  inputs_lt := by simp [Graph.empty]
  names_nodup := List.nodup_nil
  index_perm := List.Perm.refl _

variable {graph : Graph}

theorem id_lt (h : graph.WellFormed) {node : Node} (hnode : node ∈ graph.nodes) :
    node.id < graph.size := by
  obtain ⟨i, hi⟩ := List.mem_iff_getElem?.1 hnode
  rw [h.id_eq hi]
  exact lt_size_of_node? hi

theorem node?_id (h : graph.WellFormed) {node : Node} (hnode : node ∈ graph.nodes) :
    graph.node? node.id = some node := by
  obtain ⟨i, hi⟩ := List.mem_iff_getElem?.1 hnode
  rw [h.id_eq hi]
  exact hi

/-- The ids of the nodes count them. -/
theorem map_id (h : graph.WellFormed) : graph.nodes.map Node.id = List.range graph.size := by
  refine List.ext_getElem ?_ fun i hi _ => ?_
  · simp [size]
  · rw [List.getElem_map, List.getElem_range]
    exact h.id_eq (List.getElem?_eq_getElem (by simpa using hi))

theorem inBounds (h : graph.WellFormed) : graph.InBounds := by
  intro node hnode
  have hid := h.id_lt hnode
  exact ⟨hid, fun input hinput => Nat.lt_trans (h.inputs_lt node hnode input hinput) hid⟩

/-! ### Names -/

/-- The keys of the index are the names of the nodes. -/
theorem keys_perm (h : graph.WellFormed) :
    (graph.names.map Prod.fst).Perm (graph.nodes.filterMap Node.name) := by
  have hkeys : (graph.nodes.filterMap Node.entry?).map Prod.fst =
      graph.nodes.filterMap Node.name := by
    rw [List.map_filterMap]
    congr 1
    funext node
    show (node.name.map fun name => (name, node.id)).map Prod.fst = node.name
    cases node.name <;> rfl
  exact hkeys ▸ h.index_perm.map Prod.fst

theorem mem_names (h : graph.WellFormed) {name : String} {id : NodeId} :
    (name, id) ∈ graph.names ↔ ∃ node ∈ graph.nodes, node.name = some name ∧ node.id = id := by
  rw [h.index_perm.mem_iff, List.mem_filterMap]
  simp only [Node.entry?, Option.map_eq_some_iff, Prod.mk.injEq]
  constructor
  · intro hentry
    obtain ⟨node, hnode, n, hname, rfl, hid⟩ := hentry
    exact ⟨node, hnode, hname, hid⟩
  · intro hentry
    obtain ⟨node, hnode, hname, hid⟩ := hentry
    exact ⟨node, hnode, name, hname, rfl, hid⟩

theorem lookup_eq_some (h : graph.WellFormed) {name : String} {id : NodeId} :
    graph.names.lookup name = some id ↔
      ∃ node ∈ graph.nodes, node.name = some name ∧ node.id = id := by
  have hkeys : (graph.names.map Prod.fst).Nodup := h.keys_perm.nodup_iff.2 h.names_nodup
  rw [lookup_eq_some_of_nodup hkeys, h.mem_names]

/-- **Names.** A name finds the node that has it. -/
theorem find?_eq_some (h : graph.WellFormed) {name : String} {node : Node} :
    graph.find? name = some node ↔ node ∈ graph.nodes ∧ node.name = some name := by
  unfold find?
  rw [Option.bind_eq_some_iff]
  constructor
  · intro hfind
    obtain ⟨id, hlookup, hget⟩ := hfind
    obtain ⟨node', hmem, hname, hid⟩ := h.lookup_eq_some.1 hlookup
    rw [← hid, h.node?_id hmem] at hget
    exact Option.some.inj hget ▸ ⟨hmem, hname⟩
  · intro hnode
    exact ⟨node.id, h.lookup_eq_some.2 ⟨node, hnode.1, hnode.2, rfl⟩, h.node?_id hnode.1⟩

theorem find?_eq_none (h : graph.WellFormed) {name : String} :
    graph.find? name = none ↔ ∀ node ∈ graph.nodes, node.name ≠ some name := by
  constructor
  · intro hnone node hnode hname
    rw [h.find?_eq_some.2 ⟨hnode, hname⟩] at hnone
    cases hnone
  · intro hall
    cases hfind : graph.find? name with
    | none => rfl
    | some node =>
      obtain ⟨hnode, hname⟩ := h.find?_eq_some.1 hfind
      exact absurd hname (hall node hnode)

/-- A name is free iff no node has it. -/
theorem hasName_eq_false (h : graph.WellFormed) {name : String} :
    graph.hasName name = false ↔ ∀ node ∈ graph.nodes, node.name ≠ some name := by
  unfold hasName
  rw [Option.isSome_eq_false_iff, Option.isNone_iff_eq_none]
  constructor
  · intro hnone node hnode hname
    rw [h.lookup_eq_some.2 ⟨node, hnode, hname, rfl⟩] at hnone
    cases hnone
  · intro hall
    cases hlookup : graph.names.lookup name with
    | none => rfl
    | some id =>
      obtain ⟨node, hnode, hname, -⟩ := h.lookup_eq_some.1 hlookup
      exact absurd hname (hall node hnode)

/-! ### Appending keeps the invariant -/

/-- **Appending a node** keeps the ids, the order of operands, the names and the index. -/
theorem push {after : Graph} {node : Node} (hpush : graph.push node = .ok after)
    (h : graph.WellFormed) : after.WellFormed := by
  obtain ⟨hid, hinputs, hfree, rfl⟩ := push_eq_ok.1 hpush
  refine ⟨?_, ?_, ?_, ?_⟩
  · intro i node' hget
    rcases node?_snoc_eq_some hget with hold | ⟨rfl, rfl⟩
    · exact h.id_eq hold
    · exact hid
  · intro node' hmem input hinput
    rcases List.mem_append.1 hmem with hmem | hmem
    · exact h.inputs_lt node' hmem input hinput
    · rw [List.mem_singleton.1 hmem] at hinput ⊢
      rw [hid]
      exact hinputs input hinput
  · show ((graph.nodes ++ [node]).filterMap Node.name).Nodup
    rw [List.filterMap_append]
    refine List.nodup_append.2 ⟨h.names_nodup, ?_, ?_⟩
    · cases hname : node.name <;> simp [hname]
    · intro name hold name' hnew heq
      obtain ⟨old, hmem, hname⟩ := List.mem_filterMap.1 hold
      obtain ⟨node', hmem', hname'⟩ := List.mem_filterMap.1 hnew
      rw [List.mem_singleton.1 hmem'] at hname'
      exact h.hasName_eq_false.1 (hfree name' hname') old hmem (heq ▸ hname)
  · show (node.entry?.toList ++ graph.names).Perm ((graph.nodes ++ [node]).filterMap Node.entry?)
    rw [List.filterMap_append]
    have hlast : [node].filterMap Node.entry? = node.entry?.toList := by
      cases hentry : node.entry? <;> simp [hentry]
    rw [hlast]
    exact List.perm_append_comm.trans (h.index_perm.append_right _)

theorem grows {related : Graph → Node → Prop} {after : Graph}
    (hgrows : Grows related graph after) (h : graph.WellFormed) : after.WellFormed :=
  hgrows.preserves h push

end Graph.WellFormed

/-- **Reachable graphs** are well-formed. -/
theorem Graph.Reachable.wellFormed {graph : Graph} (h : graph.Reachable) : graph.WellFormed :=
  .grows h.grows .empty

/-! ### Errors of requests -/

theorem Operator.inferShape_eq_error {operator : Operator} {request : Request}
    {shapes : List (Option Extents)} {e : Error}
    (h : operator.inferShape request shapes = .error e) :
    ∃ left right, e = .cannotBroadcast left right := by
  unfold inferShape at h
  split at h
  · cases h
  · unfold OutputRule.infer at h
    split at h
    · cases h
    · cases h
    · cases h
    · exact OutputRule.broadcastAll_eq_error h

/-- The errors for which a registry refuses a request. -/
def Error.IsRefusal : Error → Prop
  | .notRegistered .. | .wrongKind .. | .wrongArity .. | .missingAttribute .. | .noSuchNode ..
  | .cannotBroadcast .. | .nameInUse .. => True
  | _ => False

/-- A registry reports errors for which requests are refused. -/
theorem Registry.isRefusal_of_reports {registry : Registry} {strict : Bool} {graph : Graph}
    {request : Request} {e : Error} (h : (registry.append strict graph request).Reports e) :
    e.IsRefusal := by
  rcases Attempt.reports_bind.1 h with h | ⟨operator, -, h⟩
  · obtain ⟨-, rfl⟩ := get_eq_error.1 (Attempt.reports_lift.1 h)
    trivial
  rcases Attempt.reports_bind.1 h with h | ⟨⟨⟩, -, h⟩
  · rcases Operator.validate_eq_error.1 (Attempt.reports_lift.1 h) with
      ⟨-, rfl⟩ | ⟨-, ⟨-, rfl⟩ | ⟨-, key, -, rfl⟩⟩ <;> trivial
  rcases Attempt.reports_bind.1 h with h | ⟨shapes, hshapes, h⟩
  · obtain ⟨id, -, rfl⟩ := Graph.hostShapes_eq_error.1 (Attempt.reports_lift.1 h)
    trivial
  rw [Attempt.result_lift] at hshapes
  rcases Attempt.reports_bind.1 h with h | ⟨shape, -, h⟩
  · obtain ⟨left, right, rfl⟩ :=
      Operator.inferShape_eq_error (Attempt.reports_shapeOrUnknown.1 h)
    trivial
  rcases Attempt.reports_bind.1 h with h | ⟨pushed, -, h⟩
  · obtain ⟨name, -, -, rfl⟩ :=
      (Graph.push_eq_error rfl (Graph.lt_size_of_hostShapes hshapes)).1 (Attempt.reports_lift.1 h)
    trivial
  · rcases Attempt.reports_bind.1 h with h | ⟨⟨⟩, -, h⟩
    · obtain ⟨output, h⟩ := Attempt.reports_record.1 h
      cases h
    · exact (Attempt.not_reports_pure _ h).elim

/-- **Refused requests** are refused for one of a few errors. -/
theorem Registry.isRefusal {registry : Registry} {strict : Bool} {graph : Graph}
    {request : Request} {e : Error}
    (h : (registry.append strict graph request).result = .error e) : e.IsRefusal :=
  isRefusal_of_reports (.inl h)

/-- The errors of appending a node whose id is not the next one or whose operands are missing. -/
def Error.IsMisplacement : Error → Prop
  | .wrongId .. | .missingInput .. => True
  | _ => False

/-- A request is never refused because its node would be misplaced. -/
theorem Registry.not_isMisplacement {registry : Registry} {strict : Bool} {graph : Graph}
    {request : Request} {e : Error}
    (h : (registry.append strict graph request).result = .error e) : ¬ e.IsMisplacement := by
  have hrefusal := isRefusal h
  intro hmisplacement
  cases e <;> first | exact hmisplacement | exact hrefusal

/-! ### What follows -/

/-- **Reachable graphs.** Ids, operands, names and the index of names are in order; a name finds the
one node that has it; no request is refused because its node would be misplaced; and the tables for
outputs and edges have every place that is looked up. -/
theorem wellFormed_and_lookup {graph : Graph} (h : graph.Reachable) :
    graph.WellFormed ∧
      (∀ name node, graph.find? name = some node ↔ node ∈ graph.nodes ∧ node.name = some name) ∧
      (∀ name, graph.find? name = none ↔ ∀ node ∈ graph.nodes, node.name ≠ some name) ∧
      (∀ (registry : Registry) (strict : Bool) (request : Request) (e : Error),
        (registry.append strict graph request).result = .error e → ¬ e.IsMisplacement) ∧
      graph.markedOutputs? = some graph.outputs ∧ graph.indexedEdges? = some graph.edges := by
  have hwf := h.wellFormed
  exact ⟨hwf, fun _ _ => hwf.find?_eq_some, fun _ => hwf.find?_eq_none,
    fun _ _ _ _ => Registry.not_isMisplacement, Graph.markedOutputs?_eq hwf.inBounds,
    Graph.indexedEdges?_eq hwf.inBounds⟩

/-- A sum after calls that fail for a missing operand and for a name in use. -/
theorem wellFormed_and_lookup_sum :
    let calls : List Call :=
      [.declare (.input (.scalar 2) none) (some "x"), .unary (.apply .relu) (.node 7) none,
        .binary (.combine .plus) (.node 0) (.node 0) (some "x"),
        .binary (.combine .plus) (.node 0) (.node 0) (some "y")]
    let graph := (Builder.runAll {} calls).graph
    graph.nodes.map Node.inputs = [[], [0, 0]] ∧ graph.WellFormed ∧
      ∃ node, graph.find? "y" = some node ∧ node.id = 1 ∧
        (node ∈ graph.nodes ∧ node.name = some "y") := by
  intro calls graph
  have hreachable : graph.Reachable := Builder.reachable_runAll .empty calls
  obtain ⟨hwf, hfind, -⟩ := wellFormed_and_lookup hreachable
  exact ⟨rfl, hwf, _, rfl, rfl, (hfind "y" _).1 rfl⟩

end ComputeGraph
