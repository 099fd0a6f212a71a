import ComputeGraph.Elementwise
import ComputeGraph.Operator.Basic

/-!
# Calls of a builder

What a builder can be asked to do: declare inputs and parameters, apply operators to one, two or
three operands, or append the node of a request as it is. An operand is a node, or a tensor that
becomes a constant first.
-/

namespace ComputeGraph

/-- An argument of an operator. -/
inductive Operand where
  | node (id : NodeId)
  | literal (value : Tensor)
deriving DecidableEq

/-- How a parameter gets its initial value. -/
inductive Initialisation where
  | uniform | fromFile | fromLiteral
deriving DecidableEq, Repr

/-- The engine's name of an initialisation. -/
def Initialisation.engineName : Initialisation → String
  | .uniform => "uniform"
  | .fromFile => "fromFile"
  | .fromLiteral => "fromLiteral"

/-- What is said about a parameter. -/
structure Parameter where
  shape : Option Shape := none
  /-- The initial value. -/
  value : Option Tensor := none
  learningRateMultiplier : Float := 1
  /-- The path of a file with the initial value. -/
  file : Option (List UInt8) := none
deriving DecidableEq

namespace Parameter

/-- A parameter that training does not change. -/
def constant (value : Tensor) : Parameter :=
  { value := some value, learningRateMultiplier := 0 }

end Parameter

/-- A node without operands. -/
inductive Declaration where
  | input (shape : Shape) (axis : Option NodeId)
  | sparseInput (shape : Shape) (axis : Option NodeId)
  /-- An input for samples like those in a tensor, which lie along its first axis; with a dynamic
  axis each sample is a sequence along the second. -/
  | inputForSamples (samples : Tensor) (axis : Option NodeId)
  | dynamicAxis
  | parameter (spec : Parameter)

/-- Which way a delayed value looks along the dynamic axis. -/
inductive Direction where
  | future | past
deriving DecidableEq, Repr

/-- The kind of a delayed value. -/
def Direction.kind : Direction → Kind
  | .future => .futureValue
  | .past => .pastValue

/-- An operator on one tensor. -/
inductive UnaryOperator where
  | apply (f : Elementwise)
  | softmax
  | dropout
  /-- The value `timeStep` steps away, or `outside` where the sequence has none. -/
  | delayed (direction : Direction) (dims : Shape) (timeStep : UInt64) (outside : Float)
  /-- The same elements in another shape, of which one extent may be zero and is inferred. -/
  | reshape (target : Shape)
  | transpose (axis1 axis2 : Int)
  /-- The elements from `start` to before `stop` along an axis. -/
  | slice (start stop axis : Int)

/-- An operator on two tensors that needs nothing else. -/
inductive Combination where
  | crossEntropyWithSoftmax | squareError | errorPrediction
  | less | equal | greater | greaterEqual | notEqual | lessEqual
  | plus | minus | elementTimes | elementDivide
  | reconcileDynamicAxis
deriving DecidableEq, Repr

/-- The kind of a combination. -/
def Combination.kind : Combination → Kind
  | .crossEntropyWithSoftmax => .crossEntropyWithSoftmax
  | .squareError => .squareError
  | .errorPrediction => .errorPrediction
  | .less => .less
  | .equal => .equal
  | .greater => .greater
  | .greaterEqual => .greaterEqual
  | .notEqual => .notEqual
  | .lessEqual => .lessEqual
  | .plus => .plus
  | .minus => .minus
  | .elementTimes => .elementTimes
  | .elementDivide => .elementDivide
  | .reconcileDynamicAxis => .reconcileDynamicAxis

/-- An operator on two tensors. -/
inductive BinaryOperator where
  | combine (combination : Combination)
  /-- The product that keeps the first `outputRank` axes of the left operand. -/
  | times (outputRank : Nat)

/-- An operator on three tensors. -/
inductive TernaryOperator where
  /-- The first operand, kept between the second and the third. -/
  | clip
  /-- The second operand where the first is not zero, and the third elsewhere. -/
  | cond
deriving DecidableEq, Repr

/-- The kind of a ternary operator. -/
def TernaryOperator.kind : TernaryOperator → Kind
  | .clip => .clip
  | .cond => .cond

/-- A call of a builder. All but `add` may name the node that they make. -/
inductive Call where
  | declare (declaration : Declaration) (name : Option String)
  | unary (operator : UnaryOperator) (x : Operand) (name : Option String)
  | binary (operator : BinaryOperator) (left right : Operand) (name : Option String)
  | ternary (operator : TernaryOperator) (first second third : Operand) (name : Option String)
  | add (request : Request)

/-- The operands of a call in the order of its arguments. -/
def Call.operands : Call → List Operand
  | .declare _ _ => []
  | .unary _ x _ => [x]
  | .binary _ left right _ => [left, right]
  | .ternary _ first second third _ => [first, second, third]
  | .add _ => []

end ComputeGraph
