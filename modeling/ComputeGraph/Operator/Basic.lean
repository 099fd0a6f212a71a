import ComputeGraph.Attempt
import ComputeGraph.Shape.Broadcast

/-!
# Operators

An operator says what a request for a node of its kind has to bring: how many operands, which
attributes, and how the shape of the output follows from the shapes of the operands.

* `Request` — a node that is asked for;
* `Operator.validate` — whether a request brings what it has to;
* `Operator.inferShape` — the shape of the output.
-/

namespace ComputeGraph

/-- A node that is asked for. -/
structure Request where
  kind : Kind
  inputs : List NodeId := []
  attributes : Attributes := .empty
  name : Option String := none
  /-- The shape of the output, where it is known beforehand. -/
  hostShape : Option Extents := none
deriving DecidableEq

/-- The node of a request with a given output shape, as the next node of a graph. -/
def Request.toNode (request : Request) (graph : Graph) (shape : Option Extents) : Node :=
  { id := graph.nextId
    name := request.name
    kind := request.kind
    inputs := request.inputs
    attributes := request.attributes
    hostShape := shape }

/-- How the shape of an output follows from the shapes of the operands. -/
inductive OutputRule where
  /-- The shape of the first operand. -/
  | preserve
  /-- The common shape of all operands. -/
  | broadcast
  /-- A single element. -/
  | scalar
  /-- Only a request can say it. -/
  | declared
deriving DecidableEq, Repr

namespace OutputRule

/-- The name of a rule. -/
def name : OutputRule → String
  | .preserve => "Preserve"
  | .broadcast => "Broadcast"
  | .scalar => "Scalar"
  | .declared => "Declared"

/-- The common shape of a shape and further ones, which stays unknown from the first unknown one
on. -/
def broadcastAll (shape : Extents) : List (Option Extents) → Except Error (Option Extents)
  | [] => .ok (some shape)
  | none :: _ => .ok none
  | some next :: shapes => do
    let shape ← shape.broadcast next
    broadcastAll shape shapes

/-- The shape that a rule gives for operands of the given shapes. -/
def infer (rule : OutputRule) (shapes : List (Option Extents)) :
    Except Error (Option Extents) :=
  match rule with
  | .preserve => .ok (shapes.head?.bind id)
  | .scalar => .ok (some [1])
  | .declared => .ok none
  | .broadcast => broadcastAll [] shapes

end OutputRule

/-- What the nodes of a kind need. -/
structure Operator where
  kind : Kind
  arity : Nat
  rule : OutputRule
  /-- The keys of attributes that a request must have, in the order in which they are checked. -/
  required : List String := []
deriving DecidableEq, Repr

namespace Operator

/-- The first required attribute that a request lacks. -/
def missing? (operator : Operator) (request : Request) : Option String :=
  operator.required.find? fun key => (request.attributes.find? key).isNone

/-- Whether a request has the kind, the number of operands and the attributes that are needed. -/
def validate (operator : Operator) (request : Request) : Except Error Unit :=
  if request.kind ≠ operator.kind then .error (.wrongKind operator.kind request.kind)
  else if request.inputs.length ≠ operator.arity then
    .error (.wrongArity operator.kind operator.arity request.inputs.length)
  else match operator.missing? request with
    | some key => .error (.missingAttribute operator.kind key)
    | none => .ok ()

/-- The shape of the output: the one in the request, or the one that the rule gives. -/
def inferShape (operator : Operator) (request : Request) (shapes : List (Option Extents)) :
    Except Error (Option Extents) :=
  match request.hostShape with
  | some shape => .ok (some shape)
  | none => operator.rule.infer shapes

end Operator

end ComputeGraph
