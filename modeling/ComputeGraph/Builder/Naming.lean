import ComputeGraph.Builder.Options
import ComputeGraph.Operator.Basic

/-!
# Names for unnamed nodes

With a name prefix every node gets a name: the prefix followed by a number. The number is the least
one from the id of the node on whose name is not in use. There are at most as many taken numbers as
names, so the search is bounded by the number of names.
-/

namespace ComputeGraph

/-- A text followed by a number. -/
def numbered (stem : String) (n : Nat) : String :=
  stem ++ n.repr

/-- The least number from `n` on whose name is not taken, among the first `steps` of them. -/
def leastFree (taken : String → Bool) (stem : String) : Nat → Nat → Nat
  | 0, n => n
  | steps + 1, n => if taken (numbered stem n) then leastFree taken stem steps (n + 1) else n

/-- The name for the next node of a graph. -/
def Graph.freshName (graph : Graph) (stem : String) : String :=
  numbered stem (leastFree graph.hasName stem graph.names.length graph.nextId)

/-- A request with its own name or, if names begin with something, a fresh one. -/
def Request.named (request : Request) (options : Options) (graph : Graph) : Request :=
  match request.name, options.namePrefix with
  | none, some stem => { request with name := some (graph.freshName stem) }
  | _, _ => request

end ComputeGraph
