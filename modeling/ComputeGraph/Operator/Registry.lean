import ComputeGraph.Operator.Basic

/-!
# Registries of operators

A registry holds at most one operator for each kind. Nodes are created through it: a request is
checked against the operator of its kind, the shape of the output is found, and the node is
appended.

* `Registry.register` — adds an operator for a new kind;
* `Registry.standard` — an operator for every kind;
* `Registry.append` — the graph with the node of a request appended.
-/

namespace ComputeGraph

/-- Operators of different kinds. -/
structure Registry where
  operators : List Operator
  kinds_nodup : (operators.map Operator.kind).Nodup
deriving DecidableEq, Repr

/-- The operator of each kind. -/
def standardOperators : List Operator :=
  [{ kind := .crossEntropyWithSoftmax, arity := 2, rule := .scalar },
    { kind := .squareError, arity := 2, rule := .scalar },
    { kind := .errorPrediction, arity := 2, rule := .scalar },
    { kind := .less, arity := 2, rule := .broadcast },
    { kind := .equal, arity := 2, rule := .broadcast },
    { kind := .greater, arity := 2, rule := .broadcast },
    { kind := .greaterEqual, arity := 2, rule := .broadcast },
    { kind := .notEqual, arity := 2, rule := .broadcast },
    { kind := .lessEqual, arity := 2, rule := .broadcast },
    { kind := .plus, arity := 2, rule := .broadcast },
    { kind := .minus, arity := 2, rule := .broadcast },
    { kind := .elementTimes, arity := 2, rule := .broadcast },
    { kind := .elementDivide, arity := 2, rule := .broadcast },
    { kind := .times, arity := 2, rule := .declared, required := ["outputRank"] },
    { kind := .identity, arity := 1, rule := .preserve },
    { kind := .floor, arity := 1, rule := .preserve },
    { kind := .ceil, arity := 1, rule := .preserve },
    { kind := .round, arity := 1, rule := .preserve },
    { kind := .clip, arity := 3, rule := .preserve },
    { kind := .relu, arity := 1, rule := .preserve },
    { kind := .sigmoid, arity := 1, rule := .preserve },
    { kind := .tanh, arity := 1, rule := .preserve },
    { kind := .softmax, arity := 1, rule := .preserve },
    { kind := .exp, arity := 1, rule := .preserve },
    { kind := .log, arity := 1, rule := .preserve },
    { kind := .sqrt, arity := 1, rule := .preserve },
    { kind := .square, arity := 1, rule := .preserve },
    { kind := .abs, arity := 1, rule := .preserve },
    { kind := .cond, arity := 3, rule := .broadcast },
    { kind := .futureValue, arity := 1, rule := .preserve,
      required := ["dims", "timeStep", "defaultHiddenActivation"] },
    { kind := .pastValue, arity := 1, rule := .preserve,
      required := ["dims", "timeStep", "defaultHiddenActivation"] },
    { kind := .reshape, arity := 1, rule := .declared,
      required := ["shape", "beginDim", "endDim"] },
    { kind := .transposeDimensions, arity := 1, rule := .declared,
      required := ["axis1", "axis2"] },
    { kind := .slice, arity := 1, rule := .declared,
      required := ["beginIndex", "endIndex", "axis"] },
    { kind := .dropout, arity := 1, rule := .preserve },
    { kind := .input, arity := 0, rule := .declared, required := ["shape"] },
    { kind := .sparseInput, arity := 0, rule := .declared, required := ["shape"] },
    { kind := .parameter, arity := 0, rule := .declared,
      required := ["shape", "learningRateMultiplier", "init"] },
    { kind := .dynamicAxis, arity := 0, rule := .declared },
    { kind := .reconcileDynamicAxis, arity := 2, rule := .preserve }]

namespace Registry

/-- The registry without operators. -/
def empty : Registry :=
  ⟨[], List.nodup_nil⟩

/-- The registry with an operator for every kind. -/
def standard : Registry :=
  ⟨standardOperators, by decide⟩

/-- The number of operators. -/
def size (registry : Registry) : Nat :=
  registry.operators.length

/-- The operator of a kind. -/
def find? (registry : Registry) (kind : Kind) : Option Operator :=
  registry.operators.find? fun operator => operator.kind = kind

/-- The operator of a kind, which has to be registered. -/
def get (registry : Registry) (kind : Kind) : Except Error Operator :=
  match registry.find? kind with
  | some operator => .ok operator
  | none => .error (.notRegistered kind)

theorem not_mem_of_find?_eq_none {registry : Registry} {kind : Kind}
    (h : registry.find? kind = none) : kind ∉ registry.operators.map Operator.kind := by
  intro hmem
  obtain ⟨operator, hin, hkind⟩ := List.mem_map.1 hmem
  exact absurd hkind (by simpa using List.find?_eq_none.1 h operator hin)

/-- The registry with one more operator, whose kind must be new. -/
def register (registry : Registry) (operator : Operator) : Except Error Registry :=
  match h : registry.find? operator.kind with
  | some _ => .error (.alreadyRegistered operator.kind)
  | none => .ok
    ⟨operator :: registry.operators,
      List.nodup_cons.2 ⟨not_mem_of_find?_eq_none h, registry.kinds_nodup⟩⟩

/-- The graph with the node of a request appended, and the id of that node. Unless `strict` is set,
an output shape that cannot be inferred is left unknown. -/
def append (registry : Registry) (strict : Bool) (graph : Graph) (request : Request) :
    Attempt (NodeId × Graph) := do
  let operator ← registry.get request.kind
  operator.validate request
  let shapes ← graph.hostShapes request.inputs
  let shape ← Attempt.shapeOrUnknown strict request.kind.engineName
    (operator.inferShape request shapes)
  let node := request.toNode graph shape
  let graph ← graph.push node
  Attempt.record (.added node)
  return (node.id, graph)

end Registry

end ComputeGraph
