import ComputeGraph.Attribute
import ComputeGraph.Error

/-!
# Graphs of nodes

A graph is the list of its nodes in the order of their ids, with an index of the names in use. A
node refers to its operands by their ids.

* `Node` — what the engine is told about an operator and its operands;
* `Graph.push` — appends a node with the next id, operands that exist and a name not in use;
* `Graph.node?`, `Graph.find?` — nodes by id and by name;
* `Graph.outputs` — the nodes that no other node consumes.
-/

namespace ComputeGraph

/-- A node of a graph. -/
structure Node where
  id : NodeId
  name : Option String
  kind : Kind
  /-- The operands in the order of the engine. -/
  inputs : List NodeId
  attributes : Attributes
  /-- The extents of the output, outermost first, where they are known. -/
  hostShape : Option Extents
deriving DecidableEq

namespace Node

/-- The name of a node, or a text made from its id. -/
def displayName (node : Node) : String :=
  node.name.getD ("node_" ++ node.id.repr)

/-- The rank of the output, where it is known. -/
def rank? (node : Node) : Option Nat :=
  node.hostShape.map List.length

end Node

/-- Nodes in the order of their ids, and the ids of the nodes that have a name. -/
structure Graph where
  nodes : List Node
  names : List (String × NodeId)
deriving DecidableEq

namespace Graph

/-- The graph without nodes. -/
def empty : Graph :=
  ⟨[], []⟩

/-- The number of nodes. -/
def size (graph : Graph) : Nat :=
  graph.nodes.length

/-- The id of the node that is appended next. -/
def nextId (graph : Graph) : NodeId :=
  graph.nodes.length

/-- The node with an id. -/
def node? (graph : Graph) (id : NodeId) : Option Node :=
  graph.nodes[id]?

/-- The node with an id, which has to exist. -/
def get (graph : Graph) (id : NodeId) : Except Error Node :=
  match graph.node? id with
  | some node => .ok node
  | none => .error (.noSuchNode id)

/-- Whether a node has the name. -/
def hasName (graph : Graph) (name : String) : Bool :=
  (graph.names.lookup name).isSome

/-- The node with a name. -/
def find? (graph : Graph) (name : String) : Option Node :=
  (graph.names.lookup name).bind graph.node?

/-- The host shapes of some nodes, all of which have to exist. -/
def hostShapes (graph : Graph) (ids : List NodeId) : Except Error (List (Option Extents)) :=
  ids.mapM fun id => (graph.get id).map Node.hostShape

/-- The host shape of a node, which `kind` needs to be known. -/
def knownShape (graph : Graph) (id : NodeId) (kind : Kind) : Except Error Extents := do
  let node ← graph.get id
  match node.hostShape with
  | some shape => return shape
  | none => throw (.rankUnknown kind node.displayName)

/-- The index of names with the name of a node added. -/
def indexName (graph : Graph) (node : Node) : Except Error (List (String × NodeId)) :=
  match node.name with
  | none => .ok graph.names
  | some name =>
    if graph.hasName name then .error (.nameInUse name) else .ok ((name, node.id) :: graph.names)

/-- The graph with a node appended. -/
def push (graph : Graph) (node : Node) : Except Error Graph :=
  if node.id ≠ graph.nextId then .error (.wrongId node.id graph.nextId)
  else match node.inputs.find? (graph.nextId ≤ ·) with
    | some input => .error (.missingInput node.displayName input)
    | none => do
      let names ← graph.indexName node
      return ⟨graph.nodes ++ [node], names⟩

/-- Whether some node has the id among its operands. -/
def isConsumed (graph : Graph) (id : NodeId) : Bool :=
  graph.nodes.any fun node => id ∈ node.inputs

/-- The nodes that no node consumes. -/
def outputs (graph : Graph) : List NodeId :=
  (graph.nodes.map Node.id).filter fun id => !graph.isConsumed id

end Graph

end ComputeGraph
