import ComputeGraph.Builder.Request
import ComputeGraph.Proofs.Graph.Append
import ComputeGraph.Proofs.Tensor.Literal
import Mathlib.Algebra.Ring.Int.Defs
import Mathlib.Algebra.Ring.Nat

/-!
# When calls make requests, and which

For each call the conditions under which it makes a request once its operands are nodes, and the
request itself.

* `signedWord_eq`, `le_signedWord_iff` — words that are read as signed numbers;
* `EngineAxis.ofHost_eq_ok` — an axis is translated iff it is an axis of the tensor;
* `Extents.reshape_eq_error`, `productShape_eq_error` — shapes are refused only if they do not fit;
* `requestInput_eq_ok`, `requestParameter_eq_ok` — declarations;
* `requestReshape_eq_ok`, `requestTranspose_eq_ok`, `requestSlice_eq_ok` — operators on one tensor;
* `requestTimes_eq_ok` — products.
-/

namespace ComputeGraph

/-! ### Machine words -/

/-- Below half of its range a word is the same number when it is read as a signed one. From there on
it is the negative number that is less by the whole range. -/
theorem signedWord_eq (n : UInt64) :
    signedWord n = if n.toNat < 2 ^ 63 then (n.toNat : Int) else n.toNat - 2 ^ 64 := by
  show n.toBitVec.toInt = _
  rw [BitVec.toInt_eq_toNat_cond]
  have htoNat : n.toBitVec.toNat = n.toNat := rfl
  rw [htoNat]
  split <;> split <;> omega

/-- A word is no more as a signed number than as it is. -/
theorem signedWord_le (n : UInt64) : signedWord n ≤ n.toNat := by
  rw [signedWord_eq]
  split <;> omega

theorem signedWord_eq_toNat_iff (n : UInt64) : signedWord n = n.toNat ↔ n.toNat < 2 ^ 63 := by
  rw [signedWord_eq]
  split <;> omega

/-- A positive number is at most a word, read as a signed number, iff it is at most the word and the
word is below half of its range. -/
theorem le_signedWord_iff {n : UInt64} {stop : Int} (h : 0 < stop) :
    stop ≤ signedWord n ↔ stop ≤ n.toNat ∧ n.toNat < 2 ^ 63 := by
  have hlt := n.toNat_lt_size
  have hsize : UInt64.size = 2 ^ 64 := rfl
  rw [signedWord_eq]
  split <;> omega

/-! ### Axes -/

theorem EngineAxis.ofHost_eq_ok {axis : Int} {rank : Nat} {engine : EngineAxis} :
    EngineAxis.ofHost axis rank = .ok engine ↔
      0 ≤ axis ∧ axis < rank ∧ engine.number = axis.toNat + 1 := by
  unfold ofHost
  obtain ⟨number, hpos⟩ := engine
  split
  · rename_i h
    rw [Except.ok.injEq, EngineAxis.mk.injEq]
    exact ⟨fun heq => ⟨h.1, h.2, heq.symm⟩, fun heq => heq.2.2.symm⟩
  · rename_i h
    constructor
    · intro heq
      cases heq
    · intro heq
      exact absurd ⟨heq.1, heq.2.1⟩ h

/-- The number of an axis for the engine is one more than that for the host. -/
theorem EngineAxis.number_of_ofHost {axis : Int} {rank : Nat} {engine : EngineAxis}
    (h : EngineAxis.ofHost axis rank = .ok engine) : (engine.number : Int) = axis + 1 := by
  obtain ⟨hnonneg, -, hnumber⟩ := ofHost_eq_ok.1 h
  omega

/-- A translated axis means the axis that it comes from. -/
theorem EngineAxis.toHost_of_ofHost {axis : Int} {rank : Nat} {engine : EngineAxis}
    (h : EngineAxis.ofHost axis rank = .ok engine) :
    engine.toHost = axis.toNat ∧ axis.toNat < rank := by
  obtain ⟨hnonneg, hlt, hnumber⟩ := ofHost_eq_ok.1 h
  unfold toHost
  rw [hnumber]
  omega

theorem Shape.mark_eq_ok {shape : Shape} {axis : Int} {marked : MarkedShape} :
    shape.mark axis = .ok marked ↔
      0 ≤ axis ∧ axis < shape.rank ∧ marked.shape = shape.toEngine ∧
        marked.axis.number = axis.toNat + 1 := by
  unfold mark
  constructor
  · intro h
    obtain ⟨engine, hengine, h⟩ := except_bind_eq_ok.1 h
    obtain ⟨hnonneg, hlt, hnumber⟩ := EngineAxis.ofHost_eq_ok.1 hengine
    cases h
    exact ⟨hnonneg, hlt, rfl, hnumber⟩
  · intro h
    obtain ⟨hnonneg, hlt, hshape, hnumber⟩ := h
    refine except_bind_eq_ok.2 ⟨marked.axis, EngineAxis.ofHost_eq_ok.2 ⟨hnonneg, hlt, hnumber⟩, ?_⟩
    rw [← hshape]
    rfl

theorem result_markAxis (shape : Extents) (axis : Int) :
    (markAxis shape axis).result = (Shape.dims shape).mark axis := by
  unfold markAxis
  rw [Attempt.result_bind, Attempt.result_lift]
  cases (Shape.dims shape).mark axis <;> rfl

theorem markAxis_eq_ok {shape : Extents} {axis : Int} {marked : MarkedShape} :
    (markAxis shape axis).result = .ok marked ↔
      0 ≤ axis ∧ axis < shape.length ∧ marked.shape = (Shape.dims shape).toEngine ∧
        marked.axis.number = axis.toNat + 1 := by
  rw [result_markAxis]
  exact Shape.mark_eq_ok

/-- An axis that can be translated is marked as what it is translated to. -/
theorem markAxis_of_ofHost_eq_ok {shape : Extents} {axis : Int} {engine : EngineAxis}
    (h : EngineAxis.ofHost axis shape.length = .ok engine) :
    (markAxis shape axis).result = .ok ⟨(Shape.dims shape).toEngine, engine⟩ := by
  rw [result_markAxis]
  exact except_bind_eq_ok.2 ⟨engine, h, rfl⟩

/-- An axis that cannot be translated cannot be marked. -/
theorem markAxis_of_ofHost_eq_error {shape : Extents} {axis : Int} {e : Error}
    (h : EngineAxis.ofHost axis shape.length = .error e) :
    (markAxis shape axis).result = .error e := by
  rw [result_markAxis]
  exact except_bind_eq_error.2 (.inl h)

/-! ### Shapes that do not fit -/

/-- The errors for operands whose shapes do not fit an operator. -/
def Error.IsMisfit : Error → Prop
  | .productRankOutOfRange .. | .tooManyContracted .. | .contractedAxesDiffer ..
  | .cannotBroadcast .. | .manyInferred .. | .countTooLarge .. | .targetCountTooLarge ..
  | .cannotInfer .. | .countsDiffer .. => True
  | _ => False

theorem Error.IsMisfit.category_eq {e : Error} (h : e.IsMisfit) : e.category = .validation := by
  cases e <;> first | rfl | exact h.elim

theorem Extents.reshape_eq_error {input : Option Extents} {target : Extents} {e : Error}
    (h : Extents.reshape input target = .error e) : e.IsMisfit := by
  unfold Extents.reshape at h
  split at h
  · cases h
    trivial
  · split at h
    · cases h
    · rename_i input
      rw [except_map_eq_error] at h
      unfold reshapeKnown at h
      split at h
      · cases h
        trivial
      · split at h
        · cases h
          trivial
        · unfold fit at h
          split at h
          · split at h
            · cases h
              trivial
            · cases h
          · split at h
            · cases h
              trivial
            · cases h

theorem productShape_eq_error {left : Extents} {right : Option Extents} {outputRank : Nat}
    {e : Error} (h : productShape left right outputRank = .error e) : e.IsMisfit := by
  unfold productShape at h
  split at h
  · cases h
  · rename_i right
    rw [except_map_eq_error] at h
    unfold Extents.product at h
    dsimp only at h
    split at h
    · cases h
      trivial
    · split at h
      · cases h
        trivial
      · split at h
        · cases h
          trivial
        · cases h

/-! ### Declarations -/

theorem Graph.axisAttribute_eq_ok {graph : Graph} {axis : Option NodeId}
    {entries : List (String × Attribute)} :
    graph.axisAttribute axis = .ok entries ↔
      (axis = none ∧ entries = []) ∨
        ∃ id node, axis = some id ∧ graph.node? id = some node ∧ node.kind = .dynamicAxis ∧
          entries = [("dynamicAxis", .node id)] := by
  cases axis with
  | none =>
    show Except.ok [] = .ok entries ↔ _
    rw [Except.ok.injEq]
    constructor
    · intro h
      exact .inl ⟨rfl, h.symm⟩
    · intro h
      rcases h with ⟨-, h⟩ | ⟨id, node, h, -⟩
      · exact h.symm
      · cases h
  | some id =>
    constructor
    · intro h
      obtain ⟨⟨⟩, haxis, h⟩ := except_bind_eq_ok.1 h
      obtain ⟨node, hnode, haxis⟩ := except_bind_eq_ok.1 haxis
      by_cases hkind : node.kind = .dynamicAxis
      · exact .inr ⟨id, node, rfl, Graph.get_eq_ok.1 hnode, hkind, (Except.ok.inj h).symm⟩
      · rw [if_neg hkind] at haxis
        cases haxis
    · intro h
      rcases h with ⟨h, -⟩ | ⟨id', node, hid, hnode, hkind, rfl⟩
      · cases h
      · cases hid
        have haxis : graph.requireDynamicAxis id = .ok () := by
          refine except_bind_eq_ok.2 ⟨node, Graph.get_eq_ok.2 hnode, ?_⟩
          rw [if_pos hkind]
          rfl
        exact except_bind_eq_ok.2 ⟨(), haxis, rfl⟩

/-- An input is asked for iff its dynamic axis, if it has one, is one. -/
theorem requestInput_eq_ok {graph : Graph} {kind : Kind} {shape : Shape} {axis : Option NodeId}
    {name : Option String} {request : Request} :
    (requestInput graph kind shape axis name).result = .ok request ↔
      ∃ entries, graph.axisAttribute axis = .ok entries ∧
        request = {
          kind, name
          attributes := .ofList ([("shape", .shape shape.toEngine)] ++ entries)
          hostShape := some shape.extents } := by
  unfold requestInput
  rw [Attempt.result_toEngine_bind, Attempt.bind_eq_ok]
  simp only [Attempt.result_lift, Attempt.result_pure, Except.ok.injEq, eq_comm]

/-- How a parameter without a value gets its initial value. -/
def initialisationOf : Option (List UInt8) → List (String × Attribute)
  | none => [("init", .text Initialisation.uniform.engineName)]
  | some path =>
    [("init", .text Initialisation.fromFile.engineName), ("initFromFilePath", .path path)]

theorem requestUninitialised_eq (shape : Shape) (multiplier : Float) (file : Option (List UInt8))
    (name : Option String) :
    (requestUninitialised shape multiplier file name).result = .ok {
      kind := .parameter, name
      attributes := .ofList
        ([("learningRateMultiplier", .float multiplier), ("shape", .shape shape.toEngine)] ++
          initialisationOf file)
      hostShape := some shape.extents } := by
  unfold requestUninitialised
  rw [Attempt.result_toEngine_bind]
  cases file <;> rfl

/-- A parameter with a value is asked for iff the value can be written. -/
theorem requestInitialised_eq_ok {value : Tensor} {multiplier : Float} {name : Option String}
    {request : Request} :
    (requestInitialised value multiplier name).result = .ok request ↔
      ∃ literal, value.literal = .ok literal ∧
        request = {
          kind := .parameter, name
          attributes := .ofList
            [("learningRateMultiplier", .float multiplier), ("shape", .shape literal.shape),
              ("init", .text Initialisation.fromLiteral.engineName),
              ("initFromLiteral", .literal literal.text)]
          hostShape := some value.extents } := by
  unfold requestInitialised
  rw [Attempt.bind_eq_ok]
  simp only [Attempt.result_lift, Attempt.result_record_bind, Attempt.result_pure,
    Except.ok.injEq, eq_comm]

/-- A parameter is asked for iff it has a shape and no value, or a value that can be written, that
has the shape if one is given, and no file. -/
theorem requestParameter_eq_ok {spec : Parameter} {name : Option String} {request : Request} :
    (requestParameter spec name).result = .ok request ↔
      (spec.value = none ∧ ∃ shape, spec.shape = some shape ∧
        (requestUninitialised shape spec.learningRateMultiplier spec.file name).result =
          .ok request) ∨
      ∃ value, spec.value = some value ∧ requireShapeOf value spec.shape = .ok () ∧
        spec.file = none ∧
        (requestInitialised value spec.learningRateMultiplier name).result = .ok request := by
  unfold requestParameter
  cases hvalue : spec.value with
  | none =>
    cases hshape : spec.shape with
    | none => simp [Attempt.fail]
    | some shape => simp
  | some value =>
    rw [Attempt.bind_eq_ok]
    constructor
    · intro h
      obtain ⟨⟨⟩, hshape, h⟩ := h
      cases hfile : spec.file with
      | none =>
        rw [hfile] at h
        exact .inr ⟨value, rfl, hshape, rfl, h⟩
      | some path =>
        rw [hfile] at h
        cases h
    · intro h
      rcases h with ⟨h, -⟩ | ⟨value', hvalue', hshape, hfile, h⟩
      · cases h
      · cases hvalue'
        rw [hfile]
        exact ⟨(), hshape, h⟩

/-! ### Operators on one tensor -/

theorem requestDelayed_eq (direction : Direction) (dims : Shape) (timeStep : UInt64)
    (outside : Float) (x : NodeId) (name : Option String) :
    (requestDelayed direction dims timeStep outside x name).result = .ok {
      kind := direction.kind, inputs := [x], name
      attributes := .ofList
        [("dims", .shape dims.toEngine), ("timeStep", .int (signedWord timeStep)),
          ("defaultHiddenActivation", .float outside)] } := by
  unfold requestDelayed
  rw [Attempt.result_toEngine_bind]
  rfl

/-- A reshape is asked for iff its operand exists and its shape is found or may stay open. -/
theorem requestReshape_eq_ok {strict : Bool} {graph : Graph} {target : Shape} {x : NodeId}
    {name : Option String} {request : Request} :
    (requestReshape strict graph target x name).result = .ok request ↔
      ∃ node shape, graph.node? x = some node ∧
        (Extents.reshape node.hostShape target.extents = .ok shape ∨
          (∃ e, Extents.reshape node.hostShape target.extents = .error e) ∧ strict = false ∧
            shape = none) ∧
        request = {
          kind := .reshape, inputs := [x], name, hostShape := shape
          attributes := .ofList
            [("shape", .shape (target.forEngine .target)), ("beginDim", .int 0),
              ("endDim", .int 0)] } := by
  unfold requestReshape
  constructor
  · intro h
    obtain ⟨node, hnode, h⟩ := Attempt.bind_eq_ok.1 h
    obtain ⟨shape, hshape, h⟩ := Attempt.bind_eq_ok.1 h
    exact ⟨node, shape, Graph.get_eq_ok.1 hnode, Attempt.shapeOrUnknown_eq_ok.1 hshape,
      (Except.ok.inj h).symm⟩
  · intro h
    obtain ⟨node, shape, hnode, hshape, rfl⟩ := h
    refine Attempt.bind_eq_ok.2 ⟨node, Graph.get_eq_ok.2 hnode, ?_⟩
    exact Attempt.bind_eq_ok.2 ⟨shape, Attempt.shapeOrUnknown_eq_ok.2 hshape, rfl⟩

/-- A transposition is asked for iff the shape of its operand is known and has both axes. -/
theorem requestTranspose_eq_ok {graph : Graph} {axis1 axis2 : Int} {x : NodeId}
    {name : Option String} {request : Request} :
    (requestTranspose graph axis1 axis2 x name).result = .ok request ↔
      ∃ shape engineAxis1 engineAxis2, graph.HasShape x shape ∧
        EngineAxis.ofHost axis1 shape.length = .ok engineAxis1 ∧
        EngineAxis.ofHost axis2 shape.length = .ok engineAxis2 ∧
        request = {
          kind := .transposeDimensions, inputs := [x], name
          attributes := .ofList [("axis1", .axis engineAxis1), ("axis2", .axis engineAxis2)]
          hostShape := some (shape.swap axis1.toNat axis2.toNat) } := by
  unfold requestTranspose
  constructor
  · intro h
    obtain ⟨shape, hshape, h⟩ := Attempt.bind_eq_ok.1 h
    obtain ⟨marked, hmarked, h⟩ := Attempt.bind_eq_ok.1 h
    obtain ⟨engineAxis2, haxis2, h⟩ := Attempt.bind_eq_ok.1 h
    obtain ⟨hnonneg, hlt, hengine, hnumber⟩ := markAxis_eq_ok.1 hmarked
    have hrank : marked.shape.rank = shape.length := by
      rw [hengine, EngineShape.rank, Shape.extents_toEngine, List.length_reverse]
      rfl
    rw [Attempt.result_lift, hrank] at haxis2
    exact ⟨shape, marked.axis, engineAxis2, Graph.knownShape_eq_ok.1 hshape,
      EngineAxis.ofHost_eq_ok.2 ⟨hnonneg, hlt, hnumber⟩, haxis2, (Except.ok.inj h).symm⟩
  · intro h
    obtain ⟨shape, engineAxis1, engineAxis2, hshape, haxis1, haxis2, rfl⟩ := h
    refine Attempt.bind_eq_ok.2 ⟨shape, Graph.knownShape_eq_ok.2 hshape, ?_⟩
    refine Attempt.bind_eq_ok.2 ⟨_, markAxis_of_ofHost_eq_ok haxis1, ?_⟩
    have hrank : (Shape.dims shape).toEngine.rank = shape.length := List.length_reverse
    exact Attempt.bind_eq_ok.2 ⟨engineAxis2, hrank ▸ haxis2, rfl⟩

theorem requireRange_eq_ok {start stop axis extent : Int} :
    requireRange start stop axis extent = .ok () ↔ 0 ≤ start ∧ start < stop ∧ stop ≤ extent := by
  unfold requireRange
  split
  · rename_i h
    constructor
    · intro heq
      cases heq
    · intro heq
      omega
  · rename_i h
    exact ⟨fun _ => by omega, fun _ => rfl⟩

/-- The length of a range that lies within an extent is a machine word. -/
theorem toNat_rangeLength {start stop : Int} {extent : UInt64} (hstart : 0 ≤ start)
    (hstop : start < stop) (hextent : stop ≤ signedWord extent) :
    ((UInt64.ofNat (stop - start).toNat).toNat : Int) = stop - start := by
  have hle := signedWord_le extent
  have hsize := extent.toNat_lt_size
  rw [UInt64.toNat_ofNat_of_lt' (by omega)]
  omega

/-- A slice is asked for iff the shape of its operand is known and has the axis, and the range is
not empty and ends within the extent of that axis, read as a signed number. -/
theorem requestSlice_eq_ok {graph : Graph} {start stop axis : Int} {x : NodeId}
    {name : Option String} {request : Request} :
    (requestSlice graph start stop axis x name).result = .ok request ↔
      ∃ shape engineAxis, graph.HasShape x shape ∧
        EngineAxis.ofHost axis shape.length = .ok engineAxis ∧
        0 ≤ start ∧ start < stop ∧ stop ≤ signedWord (shape.getD axis.toNat 0) ∧
        request = {
          kind := .slice, inputs := [x], name
          attributes := .ofList
            [("beginIndex", .int start), ("endIndex", .int stop), ("axis", .axis engineAxis)]
          hostShape := some (shape.set axis.toNat (UInt64.ofNat (stop - start).toNat)) } := by
  unfold requestSlice
  constructor
  · intro h
    obtain ⟨shape, hshape, h⟩ := Attempt.bind_eq_ok.1 h
    obtain ⟨marked, hmarked, h⟩ := Attempt.bind_eq_ok.1 h
    obtain ⟨⟨⟩, hrange, h⟩ := Attempt.bind_eq_ok.1 h
    obtain ⟨hnonneg, hlt, hengine, hnumber⟩ := markAxis_eq_ok.1 hmarked
    obtain ⟨hstart, hstop, hextent⟩ := requireRange_eq_ok.1 hrange
    exact ⟨shape, marked.axis, Graph.knownShape_eq_ok.1 hshape,
      EngineAxis.ofHost_eq_ok.2 ⟨hnonneg, hlt, hnumber⟩, hstart, hstop, hextent,
      (Except.ok.inj h).symm⟩
  · intro h
    obtain ⟨shape, engineAxis, hshape, haxis, hstart, hstop, hextent, rfl⟩ := h
    refine Attempt.bind_eq_ok.2 ⟨shape, Graph.knownShape_eq_ok.2 hshape, ?_⟩
    refine Attempt.bind_eq_ok.2 ⟨_, markAxis_of_ofHost_eq_ok haxis, ?_⟩
    exact Attempt.bind_eq_ok.2 ⟨(), requireRange_eq_ok.2 ⟨hstart, hstop, hextent⟩, rfl⟩

/-! ### Products -/

theorem engineOutputRank_eq_ok {leftRank outputRank engineRank : Nat} :
    engineOutputRank leftRank outputRank = .ok engineRank ↔
      1 ≤ outputRank ∧ outputRank ≤ leftRank ∧ engineRank = leftRank + 1 - outputRank := by
  unfold engineOutputRank
  split
  · rename_i h
    constructor
    · intro heq
      cases heq
    · intro heq
      omega
  · rename_i h
    rw [Except.ok.injEq]
    omega

/-- A product is asked for iff the shape of its left operand is known and admits the output rank,
its right operand exists, and its shape is found or may stay open. -/
theorem requestTimes_eq_ok {strict : Bool} {graph : Graph} {outputRank : Nat} {left right : NodeId}
    {name : Option String} {request : Request} :
    (requestTimes strict graph outputRank left right name).result = .ok request ↔
      ∃ leftShape engineRank rightNode shape, graph.HasShape left leftShape ∧
        engineOutputRank leftShape.length outputRank = .ok engineRank ∧
        graph.node? right = some rightNode ∧
        (productShape leftShape rightNode.hostShape outputRank = .ok shape ∨
          (∃ e, productShape leftShape rightNode.hostShape outputRank = .error e) ∧
            strict = false ∧ shape = none) ∧
        request = {
          kind := .times, inputs := [right, left], name, hostShape := shape
          attributes := .ofList [("outputRank", .int engineRank)] } := by
  unfold requestTimes
  constructor
  · intro h
    obtain ⟨leftShape, hleft, h⟩ := Attempt.bind_eq_ok.1 h
    obtain ⟨engineRank, hrank, h⟩ := Attempt.bind_eq_ok.1 h
    obtain ⟨rightNode, hright, h⟩ := Attempt.bind_eq_ok.1 h
    obtain ⟨shape, hshape, h⟩ := Attempt.bind_eq_ok.1 h
    exact ⟨leftShape, engineRank, rightNode, shape, Graph.knownShape_eq_ok.1 hleft, hrank,
      Graph.get_eq_ok.1 hright, Attempt.shapeOrUnknown_eq_ok.1 hshape, (Except.ok.inj h).symm⟩
  · intro h
    obtain ⟨leftShape, engineRank, rightNode, shape, hleft, hrank, hright, hshape, rfl⟩ := h
    refine Attempt.bind_eq_ok.2 ⟨leftShape, Graph.knownShape_eq_ok.2 hleft, ?_⟩
    refine Attempt.bind_eq_ok.2 ⟨engineRank, hrank, ?_⟩
    refine Attempt.bind_eq_ok.2 ⟨rightNode, Graph.get_eq_ok.2 hright, ?_⟩
    exact Attempt.bind_eq_ok.2 ⟨shape, Attempt.shapeOrUnknown_eq_ok.2 hshape, rfl⟩

end ComputeGraph
