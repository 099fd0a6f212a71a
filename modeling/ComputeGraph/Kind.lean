/-!
# Kinds of nodes

The operators that a node can stand for. A kind has a name of its own and the name of the engine's
node type, which differ for three kinds, and it belongs to one of the engine's two node libraries.

**Engine names tell kinds apart:** `ofEngineName?_engineName`.
-/

namespace ComputeGraph

/-- The node library of the engine that a kind is taken from. -/
inductive Library where
  /-- Nodes of the network description. -/
  | v1
  /-- Tensor nodes. -/
  | v2
deriving DecidableEq, Repr

/-- The name of a library. -/
def Library.name : Library → String
  | .v1 => "V1"
  | .v2 => "V2"

/-- What a node computes or declares. -/
inductive Kind where
  -- criteria
  | crossEntropyWithSoftmax | squareError | errorPrediction
  -- comparisons
  | less | equal | greater | greaterEqual | notEqual | lessEqual
  -- arithmetic
  | plus | minus | elementTimes | elementDivide | times | identity
  -- steps
  | floor | ceil | round
  -- functions
  | clip | relu | sigmoid | tanh | softmax | exp | log | sqrt | square | abs | cond
  -- delays
  | futureValue | pastValue
  -- shapes
  | reshape | transposeDimensions | slice
  -- training
  | dropout
  -- leaves
  | input | sparseInput | parameter | dynamicAxis | reconcileDynamicAxis
deriving DecidableEq, Repr

namespace Kind

/-- All kinds in the order of their declaration. -/
def all : List Kind :=
  [.crossEntropyWithSoftmax, .squareError, .errorPrediction, .less, .equal, .greater,
    .greaterEqual, .notEqual, .lessEqual, .plus, .minus, .elementTimes, .elementDivide, .times,
    .identity, .floor, .ceil, .round, .clip, .relu, .sigmoid, .tanh, .softmax, .exp, .log, .sqrt,
    .square, .abs, .cond, .futureValue, .pastValue, .reshape, .transposeDimensions, .slice,
    .dropout, .input, .sparseInput, .parameter, .dynamicAxis, .reconcileDynamicAxis]

/-- The name of a kind. -/
def name : Kind → String
  | .crossEntropyWithSoftmax => "CrossEntropyWithSoftmax"
  | .squareError => "SquareError"
  | .errorPrediction => "ErrorPrediction"
  | .less => "Less"
  | .equal => "Equal"
  | .greater => "Greater"
  | .greaterEqual => "GreaterEqual"
  | .notEqual => "NotEqual"
  | .lessEqual => "LessEqual"
  | .plus => "Plus"
  | .minus => "Minus"
  | .elementTimes => "ElementTimes"
  | .elementDivide => "ElementDivide"
  | .times => "Times"
  | .identity => "Identity"
  | .floor => "Floor"
  | .ceil => "Ceil"
  | .round => "Round"
  | .clip => "Clip"
  | .relu => "Relu"
  | .sigmoid => "Sigmoid"
  | .tanh => "Tanh"
  | .softmax => "Softmax"
  | .exp => "Exp"
  | .log => "Log"
  | .sqrt => "Sqrt"
  | .square => "Square"
  | .abs => "Abs"
  | .cond => "Cond"
  | .futureValue => "FutureValue"
  | .pastValue => "PastValue"
  | .reshape => "Reshape"
  | .transposeDimensions => "TransposeDimensions"
  | .slice => "Slice"
  | .dropout => "Dropout"
  | .input => "Input"
  | .sparseInput => "SparseInput"
  | .parameter => "Parameter"
  | .dynamicAxis => "DynamicAxis"
  | .reconcileDynamicAxis => "ReconcileDynamicAxis"

/-- The name of the engine's node type. -/
def engineName : Kind → String
  | .cond => "If"
  | .reshape => "NewReshape"
  | .parameter => "ParameterTensor"
  | kind => kind.name

/-- The kind with a given engine name. -/
def ofEngineName? (text : String) : Option Kind :=
  all.find? fun kind => kind.engineName = text

/-- The place of a kind among all kinds. -/
def position (kind : Kind) : Nat :=
  all.idxOf kind

/-- The library that the engine takes the node type from. -/
def library : Kind → Library
  | .crossEntropyWithSoftmax | .squareError | .cond | .futureValue | .pastValue | .reshape
  | .input | .sparseInput | .parameter | .reconcileDynamicAxis => .v1
  | _ => .v2

/-! ### Names -/

/-- No kind is missing from the list. -/
theorem mem_all (kind : Kind) : kind ∈ all := by
  cases kind <;> decide

theorem ofEngineName?_engineName (kind : Kind) : ofEngineName? kind.engineName = some kind := by
  cases kind <;> decide

end Kind

end ComputeGraph
