import ComputeGraph.Builder.Call
import ComputeGraph.Shape.Product
import ComputeGraph.Shape.Reshape
import ComputeGraph.Tensor.Literal

/-!
# The requests of calls

What each call asks for once its operands are nodes: the arguments are put into the convention of
the engine, and the shape of the output is found where the operator's rule does not say it.
-/

namespace ComputeGraph

/-- A machine word read as a signed number. -/
def signedWord (n : UInt64) : Int :=
  n.toInt64.toInt

/-- The extents with two of them exchanged. -/
def Extents.swap (extents : Extents) (i j : Nat) : Extents :=
  (extents.set i (extents.getD j 0)).set j (extents.getD i 0)

/-! ### Declarations -/

/-- Refuses a node that is not a dynamic axis. -/
def Graph.requireDynamicAxis (graph : Graph) (axis : NodeId) : Except Error Unit := do
  let node ← graph.get axis
  if node.kind = .dynamicAxis then return ()
  else throw (.notADynamicAxis node.displayName node.kind)

/-- The attribute for a dynamic axis, which must be one. -/
def Graph.axisAttribute (graph : Graph) :
    Option NodeId → Except Error (List (String × Attribute))
  | none => .ok []
  | some axis => do
    graph.requireDynamicAxis axis
    return [("dynamicAxis", .node axis)]

/-- The request for an input. -/
def requestInput (graph : Graph) (kind : Kind) (shape : Shape) (axis : Option NodeId)
    (name : Option String) : Attempt Request := do
  let engineShape ← Attempt.toEngine shape
  let axisAttribute ← graph.axisAttribute axis
  return {
    kind, name
    attributes := .ofList ([("shape", .shape engineShape)] ++ axisAttribute)
    hostShape := some shape.extents }

/-- How many axes of a tensor of samples are not axes of a sample. -/
def sampleAxis : Option NodeId → Nat
  | none => 1
  | some _ => 2

/-- The shape of one sample. -/
def Tensor.sampleShape (samples : Tensor) (axis : Option NodeId) : Except Error Shape :=
  if samples.shape.length ≤ sampleAxis axis ∨ samples.shape.head? = some 0 then
    .error (.notSamples samples.shape)
  else .ok (.dims (samples.shape.drop (sampleAxis axis)))

/-- The request for a parameter without a value. -/
def requestUninitialised (shape : Shape) (multiplier : Float) (file : Option (List UInt8))
    (name : Option String) : Attempt Request := do
  let engineShape ← Attempt.toEngine shape
  let initialisation : List (String × Attribute) := match file with
    | none => [("init", .text Initialisation.uniform.engineName)]
    | some path =>
      [("init", .text Initialisation.fromFile.engineName), ("initFromFilePath", .path path)]
  return {
    kind := .parameter, name
    attributes := .ofList
      ([("learningRateMultiplier", .float multiplier), ("shape", .shape engineShape)] ++
        initialisation)
    hostShape := some shape.extents }

/-- Refuses a shape other than the one that a value has. -/
def requireShapeOf (value : Tensor) : Option Shape → Except Error Unit
  | none => .ok ()
  | some shape =>
    if shape.extents = value.extents then .ok ()
    else .error (.valueShapeDiffers shape value.extents)

/-- The request for a parameter with a value. -/
def requestInitialised (value : Tensor) (multiplier : Float) (name : Option String) :
    Attempt Request := do
  let literal ← value.literal
  Attempt.record (.reordered (.dims value.extents) literal.shape)
  return {
    kind := .parameter, name
    attributes := .ofList
      [("learningRateMultiplier", .float multiplier), ("shape", .shape literal.shape),
        ("init", .text Initialisation.fromLiteral.engineName),
        ("initFromLiteral", .literal literal.text)]
    hostShape := some value.extents }

/-- The request for a parameter. -/
def requestParameter (spec : Parameter) (name : Option String) : Attempt Request :=
  match spec.value, spec.shape with
  | none, none => Attempt.fail .parameterWithoutShape
  | none, some shape => requestUninitialised shape spec.learningRateMultiplier spec.file name
  | some value, shape => do
    requireShapeOf value shape
    if spec.file.isSome then Attempt.fail .valueAndFile
    else requestInitialised value spec.learningRateMultiplier name

/-- The request for a declaration. -/
def Declaration.request (graph : Graph) (name : Option String) :
    Declaration → Attempt Request
  | .input shape axis => requestInput graph .input shape axis name
  | .sparseInput shape axis => requestInput graph .sparseInput shape axis name
  | .inputForSamples samples axis => do
    let shape ← samples.sampleShape axis
    requestInput graph .input shape axis name
  | .dynamicAxis => return { kind := .dynamicAxis, name }
  | .parameter spec => requestParameter spec name

/-! ### Operators on one tensor -/

/-- The request for a delayed value. -/
def requestDelayed (direction : Direction) (dims : Shape) (timeStep : UInt64) (outside : Float)
    (x : NodeId) (name : Option String) : Attempt Request := do
  let engineDims ← Attempt.toEngine dims
  return {
    kind := direction.kind, inputs := [x], name
    attributes := .ofList
      [("dims", .shape engineDims), ("timeStep", .int (signedWord timeStep)),
        ("defaultHiddenActivation", .float outside)] }

/-- The request for a reshape. -/
def requestReshape (strict : Bool) (graph : Graph) (target : Shape) (x : NodeId)
    (name : Option String) : Attempt Request := do
  let node ← graph.get x
  let hostShape ← Attempt.shapeOrUnknown strict "reshape"
    (Extents.reshape node.hostShape target.extents)
  return {
    kind := .reshape, inputs := [x], name, hostShape
    attributes := .ofList
      [("shape", .shape (target.forEngine .target)), ("beginDim", .int 0), ("endDim", .int 0)] }

/-- The shape of a stored tensor with one of its axes marked, recorded. -/
def markAxis (shape : Extents) (axis : Int) : Attempt MarkedShape := do
  let marked ← (Shape.dims shape).mark axis
  Attempt.record (.reordered (.dims shape) marked.shape)
  return marked

/-- The request for a transposition. -/
def requestTranspose (graph : Graph) (axis1 axis2 : Int) (x : NodeId) (name : Option String) :
    Attempt Request := do
  let shape ← graph.knownShape x .transposeDimensions
  let marked ← markAxis shape axis1
  let engineAxis2 ← EngineAxis.ofHost axis2 marked.shape.rank
  return {
    kind := .transposeDimensions, inputs := [x], name
    attributes := .ofList [("axis1", .axis marked.axis), ("axis2", .axis engineAxis2)]
    hostShape := some (shape.swap axis1.toNat axis2.toNat) }

/-- Refuses a range that is empty or not within an extent, which is read as a signed number. -/
def requireRange (start stop axis extent : Int) : Except Error Unit :=
  if start < 0 ∨ stop ≤ start ∨ extent < stop then .error (.emptyRange start stop axis extent)
  else .ok ()

/-- The request for a slice. -/
def requestSlice (graph : Graph) (start stop axis : Int) (x : NodeId) (name : Option String) :
    Attempt Request := do
  let shape ← graph.knownShape x .slice
  let marked ← markAxis shape axis
  requireRange start stop axis (signedWord (shape.getD axis.toNat 0))
  return {
    kind := .slice, inputs := [x], name
    attributes := .ofList
      [("beginIndex", .int start), ("endIndex", .int stop), ("axis", .axis marked.axis)]
    hostShape := some (shape.set axis.toNat (UInt64.ofNat (stop - start).toNat)) }

/-- Why an operator is refused whatever its operand is. -/
def UnaryOperator.refusal? : UnaryOperator → Option Error
  | .delayed direction _ timeStep _ =>
    if timeStep = 0 then some (.zeroTimeStep direction.kind) else none
  | _ => none

/-- The request for an operator on a node. -/
def UnaryOperator.request (strict : Bool) (graph : Graph) (x : NodeId) (name : Option String) :
    UnaryOperator → Attempt Request
  | .apply f => return { kind := f.kind, inputs := [x], name }
  | .softmax => return { kind := .softmax, inputs := [x], name }
  | .dropout => return { kind := .dropout, inputs := [x], name }
  | .delayed direction dims timeStep outside =>
    requestDelayed direction dims timeStep outside x name
  | .reshape target => requestReshape strict graph target x name
  | .transpose axis1 axis2 => requestTranspose graph axis1 axis2 x name
  | .slice start stop axis => requestSlice graph start stop axis x name

/-! ### Operators on several tensors -/

/-- The shape of a product, where the shape of the right operand is known. -/
def productShape (left : Extents) (right : Option Extents) (outputRank : Nat) :
    Except Error (Option Extents) :=
  match right with
  | none => .ok none
  | some right => (left.product right outputRank).map some

/-- The request for a product. The engine gets the operands swapped. -/
def requestTimes (strict : Bool) (graph : Graph) (outputRank : Nat) (left right : NodeId)
    (name : Option String) : Attempt Request := do
  let leftShape ← graph.knownShape left .times
  let engineRank ← engineOutputRank leftShape.length outputRank
  let rightNode ← graph.get right
  let hostShape ← Attempt.shapeOrUnknown strict Kind.times.engineName
    (productShape leftShape rightNode.hostShape outputRank)
  return {
    kind := .times, inputs := [right, left], name, hostShape
    attributes := .ofList [("outputRank", .int engineRank)] }

/-- The request for an operator on two nodes. -/
def BinaryOperator.request (strict : Bool) (graph : Graph) (left right : NodeId)
    (name : Option String) : BinaryOperator → Attempt Request
  | .combine combination => return { kind := combination.kind, inputs := [left, right], name }
  | .times outputRank => requestTimes strict graph outputRank left right name

/-- The request for an operator on three nodes. -/
def TernaryOperator.request (first second third : NodeId) (name : Option String)
    (operator : TernaryOperator) : Request :=
  { kind := operator.kind, inputs := [first, second, third], name }

end ComputeGraph
