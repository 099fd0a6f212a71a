import ComputeGraph.Graph.Basic

/-!
# Descriptions of graphs

A graph is described by a JSON object whose only member lists the nodes in the order of their ids.
What is missing or unknown is `null`.
-/

namespace ComputeGraph

/-- The description of a node, unless one of its paths is not a text. -/
def Node.toJson? (node : Node) : Option (Json (List Char)) :=
  node.attributes.toJson?.map fun attributes =>
    .object
      [("id".toList, .ofNat node.id),
        ("name".toList, .ofOption (fun name => .string name.toList) node.name),
        ("kind".toList, .string node.kind.name.toList),
        ("inputs".toList, .array (node.inputs.map .ofNat)),
        ("attributes".toList, attributes),
        ("host_shape".toList, .ofOption Extents.toJson node.hostShape)]

namespace Graph

/-- The description of a graph, unless a path in it is not a text. -/
def toJson? (graph : Graph) : Option (Json (List Char)) :=
  (graph.nodes.mapM Node.toJson?).map fun nodes => .object [("nodes".toList, .array nodes)]

/-- The text of the description over several lines. -/
def describe (graph : Graph) : Except Error String :=
  match graph.toJson? with
  | some description => .ok description.pretty
  | none => .error .unwritable

end Graph

end ComputeGraph
