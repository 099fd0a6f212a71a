import ComputeGraph.Json.Printer
import ComputeGraph.Kind
import ComputeGraph.Shape.Basic

/-!
# Errors

The causes for which a text, a shape or a node is refused. Each cause belongs to a category, and
its message begins with the heading of that category.
-/

namespace ComputeGraph

/-- Why something is refused. -/
inductive Error where
  -- texts of shapes
  | notADimension (token text : String)
  | noDimensions (text : String)
  | notAShape (value : Json (List Char))
  -- axes and shapes
  | axisOutOfRange (axis : Int) (rank : Nat)
  | outputRankOutOfRange (leftRank outputRank : Nat)
  | productRankOutOfRange (leftRank outputRank : Nat)
  | tooManyContracted (contracted : Nat) (left right : Extents)
  | contractedAxesDiffer (left right : Extents)
  | cannotBroadcast (left right : Extents)
  | manyInferred (target : Extents)
  | countTooLarge (input : Extents)
  | targetCountTooLarge (target : Extents)
  | cannotInfer (input target : Extents)
  | countsDiffer (input : Extents) (inputCount : Nat) (target : Extents) (targetCount : Nat)
  | emptyRange (start stop axis extent : Int)
  -- values
  | emptyValue (shape : Extents)
  | valueTooLarge (shape : Extents)
  | notSamples (shape : Extents)
  | parameterWithoutShape
  | valueShapeDiffers (shape : Shape) (value : Extents)
  | valueAndFile
  | zeroTimeStep (kind : Kind)
  -- requests
  | wrongArity (kind : Kind) (expected given : Nat)
  | missingAttribute (kind : Kind) (key : String)
  | wrongKind (operator requested : Kind)
  | alreadyRegistered (kind : Kind)
  | notRegistered (kind : Kind)
  -- nodes
  | rankUnknown (kind : Kind) (node : String)
  | notADynamicAxis (node : String) (kind : Kind)
  | noSuchNode (id : Nat)
  | wrongId (id next : Nat)
  | missingInput (node : String) (input : Nat)
  | nameInUse (name : String)
  | cycle (id : Nat)
  -- JSON
  | unreadable
  | unwritable

/-- What an error is about. -/
inductive Error.Category where
  | invalidShape | axisOutOfRange | validation | missingField | invalidOperator
  | unsupportedFeature | invalidGraph | serialization
deriving DecidableEq, Repr

namespace Error

/-- The words before the details of an error. -/
def Category.heading : Category → String
  | .invalidShape => "Invalid shape: "
  | .axisOutOfRange => ""
  | .validation => "Validation error: "
  | .missingField => "Missing required field: "
  | .invalidOperator => "Invalid operator: "
  | .unsupportedFeature => "Unsupported feature: "
  | .invalidGraph => "Invalid graph structure: "
  | .serialization => "Serialization error: "

/-- The category of an error. -/
def category : Error → Category
  | .notADimension .. | .noDimensions .. | .notAShape .. => .invalidShape
  | .axisOutOfRange .. => .axisOutOfRange
  | .missingAttribute .. => .missingField
  | .wrongKind .. | .alreadyRegistered .. => .invalidOperator
  | .notRegistered .. => .unsupportedFeature
  | .noSuchNode .. | .wrongId .. | .missingInput .. | .nameInUse .. | .cycle .. => .invalidGraph
  | .unreadable | .unwritable => .serialization
  | _ => .validation

/-- What is wrong, without the heading. -/
def detail : Error → String
  | .notADimension token text =>
    "'" ++ token ++ "' is not a dimension in shape '" ++ text ++ "'"
  | .noDimensions text => "shape '" ++ text ++ "' has no dimensions"
  | .notAShape value => "expected a dimension or a list of dimensions, got " ++ value.compact
  | .axisOutOfRange axis rank =>
    "Axis " ++ axis.repr ++ " out of range for tensor of rank " ++ rank.repr ++
      ", expected an axis in [0, " ++ rank.repr ++ ")"
  | .outputRankOutOfRange leftRank outputRank =>
    "times output_rank must be in [1, " ++ leftRank.repr ++ "] for a left operand of rank " ++
      leftRank.repr ++ ", got " ++ outputRank.repr
  | .productRankOutOfRange leftRank outputRank =>
    "times output_rank must be in [1, " ++ leftRank.repr ++ "], got " ++ outputRank.repr
  | .tooManyContracted contracted left right =>
    "times cannot contract " ++ contracted.repr ++ " axes of " ++ left.text ++ " with " ++
      right.text
  | .contractedAxesDiffer left right =>
    "times operands " ++ left.text ++ " and " ++ right.text ++
      " do not agree on the contracted axes"
  | .cannotBroadcast left right =>
    "shapes " ++ left.text ++ " and " ++ right.text ++ " cannot be broadcast together"
  | .manyInferred target =>
    "reshape target " ++ target.text ++ " may leave at most one dimension to be inferred"
  | .countTooLarge input => "element count of " ++ input.text ++ " overflows"
  | .targetCountTooLarge target =>
    "element count of reshape target " ++ target.text ++ " overflows"
  | .cannotInfer input target => "cannot reshape " ++ input.text ++ " into " ++ target.text
  | .countsDiffer input inputCount target targetCount =>
    "cannot reshape " ++ input.text ++ " (" ++ inputCount.repr ++ " elements) into " ++
      target.text ++ " (" ++ targetCount.repr ++ " elements)"
  | .emptyRange start stop axis extent =>
    "slice [" ++ start.repr ++ ", " ++ stop.repr ++
      ") is not a non-empty range within axis " ++ axis.repr ++ " of extent " ++ extent.repr
  | .emptyValue shape => "cannot encode an empty value of shape " ++ shape.text
  | .valueTooLarge shape => "value of shape " ++ shape.text ++ " is too large to encode"
  | .notSamples shape =>
    "value of shape " ++ shape.text ++ " is not an array of input samples"
  | .parameterWithoutShape => "parameter requires a shape or a value"
  | .valueShapeDiffers shape value =>
    "parameter shape " ++ shape.text ++ " does not match its value of shape " ++ value.text
  | .valueAndFile => "parameter cannot be initialised from both a value and a file"
  | .zeroTimeStep kind => kind.engineName ++ " requires time_step >= 1"
  | .wrongArity kind expected given =>
    kind.engineName ++ " requires " ++ expected.repr ++ " inputs, got " ++ given.repr
  | .missingAttribute kind key => kind.engineName ++ " requires attribute '" ++ key ++ "'"
  | .wrongKind operator requested =>
    operator.engineName ++ " cannot build a " ++ requested.engineName ++ " node"
  | .alreadyRegistered kind => "Operator " ++ kind.engineName ++ " is already registered"
  | .notRegistered kind => "Operator " ++ kind.engineName ++ " not found in registry"
  | .rankUnknown kind node =>
    kind.engineName ++ " needs the rank of " ++ node ++ ", which is unknown"
  | .notADynamicAxis node kind =>
    node ++ " is a " ++ kind.engineName ++ " node, not a dynamic axis"
  | .noSuchNode id => "node " ++ id.repr ++ " does not exist"
  | .wrongId id next =>
    "node id " ++ id.repr ++ " does not match the next slot " ++ next.repr
  | .missingInput node input =>
    "node " ++ node ++ " refers to missing input " ++ input.repr
  | .nameInUse name => "node name '" ++ name ++ "' is already in use"
  | .cycle id => "graph contains a cycle through node " ++ id.repr
  | .unreadable => "the text is not a description of the expected form"
  | .unwritable => "a path is not a text"

/-- The whole message of an error. -/
def message (error : Error) : String :=
  error.category.heading ++ error.detail

end Error

end ComputeGraph
