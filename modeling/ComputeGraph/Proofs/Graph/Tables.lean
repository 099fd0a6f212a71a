import ComputeGraph.Graph.Order
import ComputeGraph.Proofs.Graph.Append

/-!
# Tables over the nodes of a graph

The outputs of a graph can be found with a table that has a mark for each node, and its edges with a
table that has an index for each node. Looking up a place that a table does not have gives nothing.

* **`Graph.markedOutputs?_eq`**, **`Graph.indexedEdges?_eq`** — where every operand and every id is
  the place of a node, nothing is looked up in vain, and the outputs and the edges are found;
* `Graph.successors_eq_edges` — the successors of a node are the ends of its edges, in order.
-/

namespace ComputeGraph

/-! ### Tables of marks -/

/-- The marks with those at some places set, if a table has all these places. -/
def setMarks? (marks : List Bool) : List Nat → Option (List Bool)
  | [] => some marks
  | i :: places => if i < marks.length then setMarks? (marks.set i true) places else none

/-- The places of a list whose marks are not set, if a table has all these places. -/
def unmarked? (marks : List Bool) : List Nat → Option (List Nat)
  | [] => some []
  | i :: places => do
    let mark ← marks[i]?
    let rest ← unmarked? marks places
    return if mark then rest else i :: rest

theorem setMarks?_eq_some {marks : List Bool} {places : List Nat}
    (h : ∀ i ∈ places, i < marks.length) :
    ∃ marks', setMarks? marks places = some marks' ∧ marks'.length = marks.length ∧
      ∀ i, marks'[i]? = if i ∈ places then some true else marks[i]? := by
  induction places generalizing marks with
  | nil => exact ⟨marks, rfl, rfl, by simp⟩
  | cons j places ih =>
    have hj : j < marks.length := h j List.mem_cons_self
    have hrest : ∀ i ∈ places, i < (marks.set j true).length := by
      intro i hi
      rw [List.length_set]
      exact h i (List.mem_cons_of_mem _ hi)
    obtain ⟨marks', hset, hlength, hget⟩ := ih hrest
    refine ⟨marks', by rw [setMarks?, if_pos hj, hset], by simpa using hlength, fun i => ?_⟩
    rw [hget i]
    by_cases hi : i ∈ places
    · rw [if_pos hi, if_pos (List.mem_cons_of_mem _ hi)]
    · rw [if_neg hi]
      by_cases hij : i = j
      · rw [hij, if_pos List.mem_cons_self, List.getElem?_set_self hj]
      · have hmem : i ∉ j :: places := fun hmem => (List.mem_cons.1 hmem).elim hij hi
        rw [if_neg hmem, List.getElem?_set_ne (Ne.symm hij)]

theorem unmarked?_eq_some {marks : List Bool} {places : List Nat} {isMarked : Nat → Bool}
    (h : ∀ i ∈ places, marks[i]? = some (isMarked i)) :
    unmarked? marks places = some (places.filter fun i => !isMarked i) := by
  induction places with
  | nil => rfl
  | cons i places ih =>
    rw [unmarked?, h i List.mem_cons_self, ih fun j hj => h j (List.mem_cons_of_mem _ hj)]
    cases hi : isMarked i with
    | true => simp [hi]
    | false => simp [hi]

namespace Graph

/-! ### Outputs and edges -/

/-- The outputs, found with a table of marks for the nodes that are consumed. -/
def markedOutputs? (graph : Graph) : Option (List NodeId) := do
  let consumed ← setMarks? (List.replicate graph.size false) (graph.nodes.flatMap Node.inputs)
  unmarked? consumed (graph.nodes.map Node.id)

/-- The edges from operands to the nodes that consume them, in the order of the nodes and of their
operands. -/
def edges (graph : Graph) : List (NodeId × NodeId) :=
  graph.nodes.flatMap fun node => node.inputs.map fun input => (input, node.id)

/-- The edges, with both ends looked up in a table that has an index for each node. -/
def indexedEdges? (graph : Graph) : Option (List (Nat × Nat)) :=
  graph.edges.mapM fun edge => do
    let source ← (List.range graph.size)[edge.1]?
    let target ← (List.range graph.size)[edge.2]?
    return (source, target)

/-- Every id and every operand is the place of a node. -/
def InBounds (graph : Graph) : Prop :=
  ∀ node ∈ graph.nodes, node.id < graph.size ∧ ∀ input ∈ node.inputs, input < graph.size

theorem isConsumed_iff {graph : Graph} {id : NodeId} :
    graph.isConsumed id = true ↔ id ∈ graph.nodes.flatMap Node.inputs := by
  simp [isConsumed, List.any_eq_true, List.mem_flatMap]

theorem markedOutputs?_eq {graph : Graph} (h : graph.InBounds) :
    graph.markedOutputs? = some graph.outputs := by
  have hinputs : ∀ i ∈ graph.nodes.flatMap Node.inputs,
      i < (List.replicate graph.size false).length := by
    intro i hi
    obtain ⟨node, hnode, hinput⟩ := List.mem_flatMap.1 hi
    simpa using (h node hnode).2 i hinput
  obtain ⟨marks, hmarks, -, hget⟩ := setMarks?_eq_some hinputs
  have hids : ∀ i ∈ graph.nodes.map Node.id, marks[i]? = some (graph.isConsumed i) := by
    intro i hi
    obtain ⟨node, hnode, rfl⟩ := List.mem_map.1 hi
    have hlt := (h node hnode).1
    rw [hget]
    by_cases hmem : node.id ∈ graph.nodes.flatMap Node.inputs
    · rw [if_pos hmem, isConsumed_iff.2 hmem]
    · have hfalse : graph.isConsumed node.id = false := by
        rw [← Bool.not_eq_true, isConsumed_iff]
        exact hmem
      rw [if_neg hmem, hfalse, List.getElem?_replicate, if_pos hlt]
  unfold markedOutputs?
  rw [hmarks]
  exact unmarked?_eq_some hids

theorem mem_edges {graph : Graph} {edge : NodeId × NodeId} :
    edge ∈ graph.edges ↔ ∃ node ∈ graph.nodes, edge.1 ∈ node.inputs ∧ node.id = edge.2 := by
  unfold edges
  rw [List.mem_flatMap]
  constructor
  · intro h
    obtain ⟨node, hnode, hedge⟩ := h
    obtain ⟨input, hinput, rfl⟩ := List.mem_map.1 hedge
    exact ⟨node, hnode, hinput, rfl⟩
  · intro h
    obtain ⟨node, hnode, hinput, hid⟩ := h
    exact ⟨node, hnode, List.mem_map.2 ⟨edge.1, hinput, by rw [hid]⟩⟩

theorem indexedEdges?_eq {graph : Graph} (h : graph.InBounds) :
    graph.indexedEdges? = some graph.edges := by
  have hedge : ∀ edge ∈ graph.edges, (do
      let source ← (List.range graph.size)[edge.1]?
      let target ← (List.range graph.size)[edge.2]?
      return (source, target)) = some edge := by
    intro edge hmem
    obtain ⟨node, hnode, hinput, hid⟩ := mem_edges.1 hmem
    have hsource : edge.1 < graph.size := (h node hnode).2 _ hinput
    have htarget : edge.2 < graph.size := hid ▸ (h node hnode).1
    rw [List.getElem?_range hsource, List.getElem?_range htarget]
    rfl
  unfold indexedEdges?
  generalize graph.edges = edges at hedge ⊢
  induction edges with
  | nil => rfl
  | cons edge edges ih =>
    rw [List.mapM_cons, hedge edge List.mem_cons_self,
      ih fun edge' hmem => hedge edge' (List.mem_cons_of_mem _ hmem)]
    rfl

theorem successors_eq_edges (graph : Graph) (id : NodeId) :
    graph.successors id = (graph.edges.filter fun edge => edge.1 = id).map Prod.snd := by
  unfold successors edges
  induction graph.nodes with
  | nil => rfl
  | cons node nodes ih =>
    rw [List.flatMap_cons, List.flatMap_cons, List.filter_append, List.map_append, ih,
      List.filter_map, List.map_map]
    rfl

end Graph

end ComputeGraph
