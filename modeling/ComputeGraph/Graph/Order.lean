import ComputeGraph.Graph.Basic

/-!
# Topological order

Depth-first search along the edges from operands to consumers. A node is finished after all nodes
that are reached from it, so the finished nodes, last one first, are an order in which every node
follows its operands.

* `explore` — the search with an explicit stack;
* `Graph.firstEarly?` — the first node of a list that does not follow all its operands;
* `Graph.topologicalOrder` — the order, or an error if the edges form a cycle.
-/

namespace ComputeGraph

/-- Depth-first search. `unseen` are the nodes not discovered yet, `stack` has its top first, and
`finished` its latest node. A node on top is discovered if it is unseen, and its unseen successors
are put on it; otherwise it is taken off, and finished if it is not yet. -/
def explore (successors : NodeId → List NodeId) :
    (unseen stack finished : List NodeId) → List NodeId
  | _, [], finished => finished
  | unseen, id :: stack, finished =>
    if id ∈ unseen then
      explore successors (unseen.erase id)
        ((successors id).filter (· ∈ unseen.erase id) ++ id :: stack) finished
    else if id ∈ finished then explore successors unseen stack finished
    else explore successors unseen stack (id :: finished)
termination_by unseen stack => (unseen.length, stack.length)
decreasing_by
  · rename_i h
    have hpos : 0 < unseen.length := List.length_pos_of_mem h
    exact Prod.Lex.left _ _ (by rw [List.length_erase_of_mem h]; omega)
  · exact Prod.Lex.right _ (by simp)
  · exact Prod.Lex.right _ (by simp)

namespace Graph

/-- The nodes that have an id among their operands, in the order of their ids, once for each time
that they have it. -/
def successors (graph : Graph) (id : NodeId) : List NodeId :=
  graph.nodes.flatMap fun node => (node.inputs.filter (· = id)).map fun _ => node.id

/-- The ids of the operands of a node. -/
def inputsOf (graph : Graph) (id : NodeId) : List NodeId :=
  ((graph.node? id).map Node.inputs).getD []

/-- The first node of a list that does not follow all its operands, where the nodes of `before`
come first. -/
def firstEarly? (graph : Graph) (before : List NodeId) : List NodeId → Option NodeId
  | [] => none
  | id :: order =>
    if ∀ input ∈ graph.inputsOf id, input ∈ before then graph.firstEarly? (id :: before) order
    else some id

/-- The nodes in the order in which the search finishes them, last one first. -/
def finishOrder (graph : Graph) : List NodeId :=
  explore graph.successors (List.range graph.size) (List.range graph.size) []

/-- All nodes in an order in which every node follows its operands. -/
def topologicalOrder (graph : Graph) : Except Error (List NodeId) :=
  match graph.firstEarly? [] graph.finishOrder with
  | none => .ok graph.finishOrder
  | some id => .error (.cycle id)

end Graph

end ComputeGraph
