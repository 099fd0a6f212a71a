import ComputeGraph.Proofs.Builder.Effect
import ComputeGraph.Proofs.Shape.Broadcast
import ComputeGraph.Proofs.Shape.Product
import ComputeGraph.Proofs.Shape.Reshape
import ComputeGraph.Proofs.Shape.Views

/-!
# Numbers that calls record

The engine gets time steps, ranks, bounds and axes as attributes of a node, and the host keeps the
extents of its shape. All of them are machine words. This module says which number stands for which
argument of a call, and that it is this number as it is and not what is left of it in a word.

* `Attributes.numbers` — the integers and axes among attributes;
* `Attributes.numbers_insert`, `Attributes.numbers_ofList` — what putting values in does to them;
* `Node.IsShaped` — the shape of a node is said, or its extents are taken over from the operands;
* `Node.IsReshaped` — the shape of a node is the one that a reshape finds;
* **`Settings.bears_of_grants`** — what every node has of its request;
* `Call.Stands` — each number is the one that an argument stands for;
* **`Call.stands_of_request`**, **`Call.stands_iff`** — it is, unless the argument is a time step
  from half of the range of words on;
* **`numbers_stand_iff`** — the numbers that every successful call records.
-/

namespace ComputeGraph

/-! ### Numbers among attributes -/

/-- The number that a value is. Axes are counted from one. -/
def Attribute.number? : Attribute → Option Int
  | .int value => some value
  | .axis value => some value.number
  | _ => none

/-- The numbers among entries, in the same order. -/
def numbersOf (entries : List (String × Attribute)) : List (String × Int) :=
  entries.filterMap fun e => e.2.number?.map fun n => (e.1, n)

section Entries

variable {key k : String} {value v : Attribute} {n : Int} {entries : List (String × Attribute)}

theorem numbersOf_cons_of_none (h : v.number? = none) :
    numbersOf ((k, v) :: entries) = numbersOf entries := by
  simp [numbersOf, h]

theorem numbersOf_cons_of_some (h : v.number? = some n) :
    numbersOf ((k, v) :: entries) = (k, n) :: numbersOf entries := by
  simp [numbersOf, h]

theorem lt_of_mem_numbersOf (h : ∀ e ∈ entries, key < e.1) :
    ∀ e ∈ numbersOf entries, key < e.1 := by
  intro e he
  obtain ⟨e', he', heq⟩ := List.mem_filterMap.1 he
  obtain ⟨n, -, rfl⟩ := Option.map_eq_some_iff.1 heq
  exact h e' he'

theorem insertSorted_of_lt {α : Type} {value : α} {entries : List (String × α)}
    (h : ∀ e ∈ entries, key < e.1) : insertSorted key value entries = (key, value) :: entries := by
  cases entries with
  | nil => rfl
  | cons head entries =>
    have hlt := h head List.mem_cons_self
    rw [insertSorted, if_neg (String.ne_of_lt hlt), if_pos hlt]

/-- A number takes its place among the others. -/
theorem numbersOf_insertSorted_of_some (hvalue : value.number? = some n)
    (h : KeysSorted entries) :
    numbersOf (insertSorted key value entries) = insertSorted key n (numbersOf entries) := by
  induction entries with
  | nil => exact numbersOf_cons_of_some hvalue
  | cons head entries ih =>
    obtain ⟨k, v⟩ := head
    obtain ⟨hhead, htail⟩ := List.pairwise_cons.1 h
    rw [insertSorted]
    split
    · rename_i hkey
      subst hkey
      rw [numbersOf_cons_of_some hvalue]
      cases hv : v.number? with
      | none =>
        rw [numbersOf_cons_of_none hv, insertSorted_of_lt (lt_of_mem_numbersOf hhead)]
      | some m => rw [numbersOf_cons_of_some hv, insertSorted, if_pos rfl]
    · rename_i hne
      split
      · rename_i hlt
        have hall : ∀ e ∈ (k, v) :: entries, key < e.1 :=
          List.forall_mem_cons.2 ⟨hlt, fun e he => String.lt_trans hlt (hhead e he)⟩
        rw [numbersOf_cons_of_some hvalue, insertSorted_of_lt (lt_of_mem_numbersOf hall)]
      · rename_i hge
        cases hv : v.number? with
        | none => rw [numbersOf_cons_of_none hv, numbersOf_cons_of_none hv, ih htail]
        | some m =>
          rw [numbersOf_cons_of_some hv, numbersOf_cons_of_some hv, ih htail, insertSorted,
            if_neg hne, if_neg hge]

theorem filter_numbersOf_of_lt (h : ∀ e ∈ entries, key < e.1) :
    (numbersOf entries).filter (·.1 ≠ key) = numbersOf entries :=
  List.filter_eq_self.2 fun e he =>
    decide_eq_true (String.ne_of_lt (lt_of_mem_numbersOf h e he)).symm

/-- A value that is no number replaces a number with its key and leaves the others. -/
theorem numbersOf_insertSorted_of_none (hvalue : value.number? = none) (h : KeysSorted entries) :
    numbersOf (insertSorted key value entries) = (numbersOf entries).filter (·.1 ≠ key) := by
  induction entries with
  | nil => exact numbersOf_cons_of_none hvalue
  | cons head entries ih =>
    obtain ⟨k, v⟩ := head
    obtain ⟨hhead, htail⟩ := List.pairwise_cons.1 h
    rw [insertSorted]
    split
    · rename_i hkey
      subst hkey
      rw [numbersOf_cons_of_none hvalue]
      cases hv : v.number? with
      | none => rw [numbersOf_cons_of_none hv, filter_numbersOf_of_lt hhead]
      | some m =>
        rw [numbersOf_cons_of_some hv, List.filter_cons_of_neg (by simp),
          filter_numbersOf_of_lt hhead]
    · rename_i hne
      split
      · rename_i hlt
        have hall : ∀ e ∈ (k, v) :: entries, key < e.1 :=
          List.forall_mem_cons.2 ⟨hlt, fun e he => String.lt_trans hlt (hhead e he)⟩
        rw [numbersOf_cons_of_none hvalue, filter_numbersOf_of_lt hall]
      · cases hv : v.number? with
        | none => rw [numbersOf_cons_of_none hv, numbersOf_cons_of_none hv, ih htail]
        | some m =>
          rw [numbersOf_cons_of_some hv, numbersOf_cons_of_some hv, ih htail,
            List.filter_cons_of_pos (by simpa using Ne.symm hne)]

end Entries

namespace Attributes

/-- The numbers among attributes, in the order of their keys. -/
def numbers (attributes : Attributes) : List (String × Int) :=
  numbersOf attributes.entries

/-- The numbers after a value is put in. -/
def putIn (numbers : List (String × Int)) (e : String × Attribute) : List (String × Int) :=
  match e.2.number? with
  | some n => insertSorted e.1 n numbers
  | none => numbers.filter (·.1 ≠ e.1)

theorem numbers_insert (attributes : Attributes) (e : String × Attribute) :
    (attributes.insert e.1 e.2).numbers = putIn attributes.numbers e := by
  unfold putIn
  cases hvalue : e.2.number? with
  | none => exact numbersOf_insertSorted_of_none hvalue attributes.sorted
  | some n => exact numbersOf_insertSorted_of_some hvalue attributes.sorted

/-- The numbers of a list are found without the other values. -/
theorem numbers_ofList (entries : List (String × Attribute)) :
    (ofList entries).numbers = entries.foldl putIn [] := by
  have hempty : empty.numbers = [] := rfl
  rw [← hempty, ofList]
  exact (List.foldl_hom numbers fun attributes e => (numbers_insert attributes e).symm).symm

end Attributes

/-! ### Numbers and extents of nodes -/

namespace Node

/-- The numbers among the attributes of a node. -/
def recorded (node : Node) : List (String × Int) :=
  node.attributes.numbers

/-- The node has the shape that is said. Where none is said, its shape is unknown or each extent is
one or an extent of an operand. -/
def IsShaped (graph : Graph) (node : Node) : Option Extents → Prop
  | some shape => node.hostShape = some shape
  | none => ∀ shape, node.hostShape = some shape → ∀ n ∈ shape,
      n = 1 ∨ ∃ x ∈ node.inputs, ∃ operand, graph.HasShape x operand ∧ n ∈ operand

/-- The attributes, operands and extents of a node are those of a request. -/
structure Bears (graph : Graph) (request : Request) (node : Node) : Prop where
  attributes_eq : node.attributes = request.attributes
  inputs_eq : node.inputs = request.inputs
  isShaped : node.IsShaped graph request.hostShape

end Node

section Requests

variable {settings : Settings} {strict : Bool} {graph : Graph} {request : Request} {node : Node}

theorem Node.Bears.recorded_eq (h : node.Bears graph request) :
    node.recorded = request.attributes.numbers :=
  congrArg Attributes.numbers h.attributes_eq

theorem Graph.exists_of_mem_shapes {ids : List NodeId} {shapes : List (Option Extents)}
    (h : graph.hostShapes ids = .ok shapes) {shape : Extents} (hshape : some shape ∈ shapes) :
    ∃ x ∈ ids, graph.HasShape x shape := by
  have hall := Graph.hostShapes_eq_ok.1 h
  clear h
  induction hall with
  | nil => cases hshape
  | cons hhead _ ih =>
    rcases List.mem_cons.1 hshape with rfl | hshape
    · exact ⟨_, List.mem_cons_self, hhead⟩
    · obtain ⟨x, hx, hhas⟩ := ih hshape
      exact ⟨x, List.mem_cons_of_mem _ hx, hhas⟩

/-- **What a node has of its request.** The operator adds no attributes, and no extents but one and
those of the operands. -/
theorem Settings.bears_of_grants (h : settings.Grants graph request node) :
    node.Bears graph request := by
  obtain ⟨-, -, hinputs, hattributes, hsaid, -⟩ := takes_over_of_grants h
  refine ⟨hattributes, hinputs, ?_⟩
  cases hshape : request.hostShape with
  | some shape => exact hsaid shape hshape
  | none =>
    obtain ⟨operator, shapes, found, -, -, hshapes, hfound, rfl⟩ := eq_toNode_of_grants h
    rintro shape (rfl : found = some shape) n hn
    rw [Operator.inferShape_of_eq_none hshape] at hfound
    rcases hfound with hfound | ⟨-, -, hunknown⟩
    · rcases OutputRule.mem_of_infer hfound hn with hone | ⟨operand, hoperand, hn⟩
      · exact .inl hone
      · obtain ⟨x, hx, hhas⟩ := Graph.exists_of_mem_shapes hshapes hoperand
        exact .inr ⟨x, hx, operand, hhas, hn⟩
    · cases hunknown

/-! ### What numbers stand for -/

/-- The shape that a declaration says. -/
def Declaration.shape? : Declaration → Option Extents
  | .input shape _ => some shape.extents
  | .sparseInput shape _ => some shape.extents
  | .inputForSamples samples axis => some (samples.shape.drop (sampleAxis axis))
  | .dynamicAxis => none
  | .parameter spec => (spec.value.map Tensor.extents).or (spec.shape.map Shape.extents)

/-- The shape of a node is the one that a reshape of an operand finds. It keeps the target and has
as many elements as the operand. Where a reshape finds no shape, none is said. -/
def Node.IsReshaped (graph : Graph) (operand : Option Extents) (target : Extents) (node : Node) :
    Prop :=
  match Extents.reshape operand target with
  | .ok (some shape) => node.hostShape = some shape ∧ shape.Keeps target ∧
      ∀ extents, operand = some extents → shape.elementCount = extents.elementCount
  | _ => node.IsShaped graph none

/-- The numbers of a node stand for the arguments of an operator on one tensor. -/
def UnaryOperator.Stands (graph : Graph) (x : NodeId) (node : Node) : UnaryOperator → Prop
  | .delayed _ _ timeStep _ =>
    1 ≤ timeStep.toNat ∧ node.recorded = [("timeStep", (timeStep.toNat : Int))] ∧
      node.IsShaped graph none
  | .reshape target =>
    node.recorded = [("beginDim", 0), ("endDim", 0)] ∧ ∃ operand, graph.node? x = some operand ∧
      node.IsReshaped graph operand.hostShape target.extents
  | .transpose axis1 axis2 =>
    node.recorded = [("axis1", axis1 + 1), ("axis2", axis2 + 1)] ∧ ∃ shape,
      graph.HasShape x shape ∧ shape.HasAxis axis1 ∧ shape.HasAxis axis2 ∧
        node.hostShape = some (shape.swap axis1.toNat axis2.toNat)
  | .slice start stop axis =>
    node.recorded = [("axis", axis + 1), ("beginIndex", start), ("endIndex", stop)] ∧
      ∃ (shape : Extents) (length : UInt64), graph.HasShape x shape ∧ shape.HasAxis axis ∧
        (length.toNat : Int) = stop - start ∧
        node.hostShape = some (shape.set axis.toNat length)
  | _ => node.recorded = [] ∧ node.IsShaped graph none

/-- The numbers of a node stand for the arguments of an operator on two tensors. -/
def BinaryOperator.Stands (graph : Graph) (left : NodeId) (node : Node) : BinaryOperator → Prop
  | .combine _ => node.recorded = [] ∧ node.IsShaped graph none
  | .times outputRank =>
    (∃ (shape : Extents) (rank : Nat), graph.HasShape left shape ∧ 1 ≤ rank ∧
      rank ≤ shape.length ∧ rank + outputRank = shape.length + 1 ∧
      node.recorded = [("outputRank", (rank : Int))]) ∧ node.IsShaped graph none

/-- The numbers of a node stand for the arguments of a call whose operands are the given nodes. -/
def Call.Stands (graph : Graph) (ids : List NodeId) (node : Node) : Call → Prop
  | .declare declaration _ => node.recorded = [] ∧ node.IsShaped graph declaration.shape?
  | .unary operator _ _ => ∃ x, ids = [x] ∧ operator.Stands graph x node
  | .binary operator _ _ _ => ∃ left right, ids = [left, right] ∧ operator.Stands graph left node
  | .ternary .. => node.recorded = [] ∧ node.IsShaped graph none
  | .add request =>
    node.recorded = request.attributes.numbers ∧ node.IsShaped graph request.hostShape

/-- The time step of a delayed value. -/
def UnaryOperator.timeStep? : UnaryOperator → Option UInt64
  | .delayed _ _ timeStep _ => some timeStep
  | _ => none

/-- The time step that a call gives. -/
def Call.timeStep? : Call → Option UInt64
  | .unary operator _ _ => operator.timeStep?
  | _ => none

/-! ### Requests -/

theorem requestInput_numbers {kind : Kind} {shape : Shape} {axis : Option NodeId}
    {name : Option String} (h : (requestInput graph kind shape axis name).result = .ok request) :
    request.attributes.numbers = [] ∧ request.hostShape = some shape.extents := by
  obtain ⟨entries, hentries, rfl⟩ := requestInput_eq_ok.1 h
  refine ⟨?_, rfl⟩
  rcases Graph.axisAttribute_eq_ok.1 hentries with ⟨-, rfl⟩ | ⟨id, axis, -, -, -, rfl⟩
  · exact Attributes.numbers_ofList _
  · exact Attributes.numbers_ofList _

theorem sampleShape_eq_ok {samples : Tensor} {axis : Option NodeId} {shape : Shape}
    (h : samples.sampleShape axis = .ok shape) :
    shape = .dims (samples.shape.drop (sampleAxis axis)) := by
  unfold Tensor.sampleShape at h
  split at h
  · cases h
  · exact (Except.ok.inj h).symm

/-- Declarations give no numbers to the engine, and say their shape. -/
theorem Declaration.request_numbers {declaration : Declaration} {name : Option String}
    (h : (declaration.request graph name).result = .ok request) :
    request.attributes.numbers = [] ∧ request.hostShape = declaration.shape? := by
  cases declaration with
  | input shape axis => exact requestInput_numbers h
  | sparseInput shape axis => exact requestInput_numbers h
  | inputForSamples samples axis =>
    obtain ⟨shape, hshape, h⟩ := Attempt.bind_eq_ok.1 h
    obtain rfl := sampleShape_eq_ok hshape
    exact requestInput_numbers h
  | dynamicAxis =>
    cases h
    exact ⟨rfl, rfl⟩
  | parameter spec =>
    rcases requestParameter_eq_ok.1 h with ⟨hvalue, shape, hshape, h⟩ | ⟨value, hvalue, -, -, h⟩
    · rw [requestUninitialised_eq, Except.ok.injEq] at h
      subst h
      refine ⟨?_, ?_⟩
      · cases spec.file <;> exact Attributes.numbers_ofList _
      · simp [Declaration.shape?, hvalue, hshape]
    · obtain ⟨literal, -, rfl⟩ := requestInitialised_eq_ok.1 h
      refine ⟨Attributes.numbers_ofList _, ?_⟩
      simp [Declaration.shape?, hvalue]

theorem requestDelayed_numbers {direction : Direction} {dims : Shape} {timeStep : UInt64}
    {outside : Float} {x : NodeId} {name : Option String}
    (h : (requestDelayed direction dims timeStep outside x name).result = .ok request) :
    request.hostShape = none ∧
      request.attributes.numbers = [("timeStep", signedWord timeStep)] := by
  rw [requestDelayed_eq, Except.ok.injEq] at h
  subst h
  exact ⟨rfl, Attributes.numbers_ofList _⟩

/-- A node with the shape that its request says, if any, has the one that a reshape finds. -/
theorem isReshaped_of_reshape {operand said : Option Extents} {target : Extents}
    (hsaid : Extents.reshape operand target = .ok said ∨
      (∃ e, Extents.reshape operand target = .error e) ∧ strict = false ∧ said = none)
    (hnode : node.IsShaped graph said) : node.IsReshaped graph operand target := by
  unfold Node.IsReshaped
  rcases hsaid with hfound | ⟨⟨e, herror⟩, -, rfl⟩
  · rw [hfound]
    cases said with
    | none => exact hnode
    | some shape =>
      obtain ⟨hkeeps, hcount, -⟩ := Extents.reshape_eq_some hfound
      exact ⟨hnode, hkeeps, hcount⟩
  · rw [herror]
    exact hnode

/-- **Operators on one tensor** record what their arguments stand for, if a time step is below half
of the range of words. -/
theorem UnaryOperator.stands_of_request {operator : UnaryOperator} {x : NodeId}
    {name : Option String} (hrefusal : operator.refusal? = none)
    (h : (operator.request strict graph x name).result = .ok request)
    (hnode : node.Bears graph request)
    (hstep : ∀ timeStep, operator.timeStep? = some timeStep → timeStep.toNat < 2 ^ 63) :
    operator.Stands graph x node := by
  cases operator with
  | delayed direction dims timeStep outside =>
    obtain ⟨hshape, hnumbers⟩ := requestDelayed_numbers h
    have hsmall := hstep timeStep rfl
    have hpos : 1 ≤ timeStep.toNat := by
      by_contra hzero
      have htimeStep : timeStep = 0 := UInt64.toNat_inj.1 (by simpa using hzero)
      rw [UnaryOperator.refusal?, if_pos htimeStep] at hrefusal
      cases hrefusal
    refine ⟨hpos, ?_, hshape ▸ hnode.isShaped⟩
    rw [hnode.recorded_eq, hnumbers, (signedWord_eq_toNat_iff timeStep).2 hsmall]
  | reshape target =>
    obtain ⟨operand, shape, hoperand, hshape, rfl⟩ := requestReshape_eq_ok.1 h
    refine ⟨?_, operand, hoperand, isReshaped_of_reshape hshape hnode.isShaped⟩
    rw [hnode.recorded_eq]
    exact Attributes.numbers_ofList _
  | transpose axis1 axis2 =>
    obtain ⟨shape, engine1, engine2, hx, haxis1, haxis2, rfl⟩ := requestTranspose_eq_ok.1 h
    refine ⟨?_, shape, hx, View.exists_ofHost_iff.1 ⟨engine1, haxis1⟩,
      View.exists_ofHost_iff.1 ⟨engine2, haxis2⟩, hnode.isShaped⟩
    rw [hnode.recorded_eq, ← EngineAxis.number_of_ofHost haxis1,
      ← EngineAxis.number_of_ofHost haxis2]
    refine (Attributes.numbers_ofList _).trans ?_
    simp only [List.foldl, Attributes.putIn, Attribute.number?, insertSorted, String.reduceEq,
      String.reduceLT, ↓reduceIte]
  | slice start stop axis =>
    obtain ⟨shape, engine, hx, haxis, hstart, hstop, hextent, rfl⟩ := requestSlice_eq_ok.1 h
    refine ⟨?_, shape, _, hx, View.exists_ofHost_iff.1 ⟨engine, haxis⟩,
      toNat_rangeLength hstart hstop hextent, hnode.isShaped⟩
    rw [hnode.recorded_eq, ← EngineAxis.number_of_ofHost haxis]
    refine (Attributes.numbers_ofList _).trans ?_
    simp only [List.foldl, Attributes.putIn, Attribute.number?, insertSorted, String.reduceEq,
      String.reduceLT, ↓reduceIte]
  | _ =>
    cases h
    exact ⟨hnode.recorded_eq, hnode.isShaped⟩

theorem isShaped_of_product {outputRank : Nat} {left right : NodeId} {leftShape : Extents}
    {rightNode : Node} {shape : Option Extents} (hleft : graph.HasShape left leftShape)
    (hright : graph.node? right = some rightNode)
    (hshape : productShape leftShape rightNode.hostShape outputRank = .ok shape ∨
      (∃ e, productShape leftShape rightNode.hostShape outputRank = .error e) ∧ strict = false ∧
        shape = none)
    (hinputs : node.inputs = [right, left]) (hnode : node.IsShaped graph shape) :
    node.IsShaped graph none := by
  cases shape with
  | none => exact hnode
  | some shape =>
    intro shape' hshape' n hn
    obtain rfl : shape = shape' := Option.some.inj (hnode.symm.trans hshape')
    rcases hshape with hshape | ⟨-, -, hnone⟩
    · unfold productShape at hshape
      split at hshape
      · cases hshape
      · rename_i rightShape hrightShape
        obtain ⟨shape', hproduct, heq⟩ := except_map_eq_ok.1 hshape
        cases heq
        right
        rcases (Extents.product_eq_ok.1 hproduct).2.2.mem hn with hn | hn
        · exact ⟨left, by simp [hinputs], leftShape, hleft, hn⟩
        · exact ⟨right, by simp [hinputs], rightShape, ⟨rightNode, hright, hrightShape⟩, hn⟩
    · cases hnone

/-- **Operators on two tensors** record what their arguments stand for. -/
theorem BinaryOperator.stands_of_request {operator : BinaryOperator} {left right : NodeId}
    {name : Option String}
    (h : (operator.request strict graph left right name).result = .ok request)
    (hnode : node.Bears graph request) : operator.Stands graph left node := by
  cases operator with
  | combine combination =>
    cases h
    exact ⟨hnode.recorded_eq, hnode.isShaped⟩
  | times outputRank =>
    obtain ⟨leftShape, engineRank, rightNode, shape, hleft, hrank, hright, hshape, rfl⟩ :=
      requestTimes_eq_ok.1 h
    obtain ⟨hpos, hle, rfl⟩ := engineOutputRank_eq_ok.1 hrank
    refine ⟨⟨leftShape, leftShape.length + 1 - outputRank, hleft, by omega, by omega, by omega,
      ?_⟩, ?_⟩
    · rw [hnode.recorded_eq]
      exact Attributes.numbers_ofList _
    · exact isShaped_of_product hleft hright hshape hnode.inputs_eq hnode.isShaped

/-- **Calls** record what their arguments stand for, if a time step is below half of the range of
words. -/
theorem Call.stands_of_request {call : Call} {ids : List NodeId} (hrefusal : call.refusal? = none)
    (h : (call.request strict graph ids).result = .ok request) (hnode : node.Bears graph request)
    (hstep : ∀ timeStep, call.timeStep? = some timeStep → timeStep.toNat < 2 ^ 63) :
    call.Stands graph ids node := by
  unfold Call.request at h
  split at h
  · obtain ⟨hnumbers, hshape⟩ := Declaration.request_numbers h
    exact ⟨hnode.recorded_eq.trans hnumbers, hshape ▸ hnode.isShaped⟩
  · rename_i operator _ name x
    exact ⟨x, rfl, UnaryOperator.stands_of_request hrefusal h hnode hstep⟩
  · rename_i operator _ _ name left right
    exact ⟨left, right, rfl, BinaryOperator.stands_of_request h hnode⟩
  · cases h
    exact ⟨hnode.recorded_eq, hnode.isShaped⟩
  · cases h
    exact ⟨hnode.recorded_eq, hnode.isShaped⟩
  · cases h

/-- A time step is recorded as a signed number. -/
theorem Call.recorded_of_timeStep {call : Call} {ids : List NodeId} {timeStep : UInt64}
    (h : (call.request strict graph ids).result = .ok request) (hnode : node.Bears graph request)
    (hstep : call.timeStep? = some timeStep) :
    node.recorded = [("timeStep", signedWord timeStep)] := by
  unfold Call.request at h
  split at h
  · cases hstep
  · rename_i operator _ name x
    cases operator with
    | delayed direction dims timeStep' outside =>
      cases hstep
      exact hnode.recorded_eq.trans (requestDelayed_numbers h).2
    | _ => cases hstep
  · cases hstep
  · cases hstep
  · cases hstep
  · cases h

/-- The numbers of a call stand for its arguments iff it gives no time step from half of the range
of words on. -/
theorem Call.stands_iff {call : Call} {ids : List NodeId} (hrefusal : call.refusal? = none)
    (h : (call.request strict graph ids).result = .ok request) (hnode : node.Bears graph request) :
    call.Stands graph ids node ↔
      ∀ timeStep, call.timeStep? = some timeStep → timeStep.toNat < 2 ^ 63 := by
  refine ⟨fun hstands timeStep hstep => ?_, stands_of_request hrefusal h hnode⟩
  have hnumbers := recorded_of_timeStep h hnode hstep
  cases call with
  | unary operator x name =>
    cases operator with
    | delayed direction dims timeStep' outside =>
      cases hstep
      obtain ⟨y, -, -, hexact, -⟩ := hstands
      rw [hexact] at hnumbers
      exact (signedWord_eq_toNat_iff timeStep).1 (by simpa using hnumbers.symm)
    | _ => cases hstep
  | _ => cases hstep

end Requests

/-! ### Calls -/

theorem Node.IsConstant.recorded_eq_nil {value : Tensor} {node : Node} (h : node.IsConstant value) :
    node.recorded = [] := by
  obtain ⟨literal, -, hattributes⟩ := h.attributes_eq
  unfold Node.recorded
  rw [hattributes]
  exact Attributes.numbers_ofList _

/-- A call that succeeds and is not folded is not refused for its arguments alone. -/
theorem Settings.refusal?_of_performStages_yields {settings : Settings} {graph after : Graph}
    {call : Call} {id : NodeId} (h : (settings.performStages call).Yields graph id after) :
    call.refusal? = none := by
  unfold performStages at h
  split at h
  · cases h.1
  · assumption

/-- **The numbers of calls.** A call that succeeds appends the constants of its literal operands and
its node, or only a constant if it is folded. Constants have no numbers but the extents of their
tensors. The numbers of the node stand for the arguments of the call, except that a time step from
half of the range of words on is recorded as the negative number that is less by the whole range. -/
theorem numbers_stand_iff {settings : Settings} {graph after : Graph} {call : Call} {id : NodeId}
    (h : (settings.perform call).Yields graph id after) :
    ∃ constants mid node, graph.Appends constants mid ∧ after = mid.snoc node ∧ node.id = id ∧
      match settings.foldedCall? call with
      | some (_, value) =>
        constants = [] ∧ node.recorded = [] ∧ node.hostShape = some value.extents
      | none =>
        List.Forall₂ (fun value c => c.recorded = [] ∧ c.hostShape = some value.extents)
          call.literals constants ∧
        (call.Stands mid (operandIds graph.size call.operands) node ↔
          ∀ timeStep, call.timeStep? = some timeStep → timeStep.toNat < 2 ^ 63) ∧
        ∀ timeStep, call.timeStep? = some timeStep → 2 ^ 63 ≤ timeStep.toNat →
          node.recorded = [("timeStep", (timeStep.toNat : Int) - 2 ^ 64)] := by
  cases hfold : settings.foldedCall? call with
  | some folded =>
    obtain ⟨f, value⟩ := folded
    obtain ⟨hgraph, hresult⟩ := Settings.perform_of_folded hfold graph
    obtain ⟨node, hconstant, hid, -, happends⟩ :=
      Settings.constant_yields ⟨hresult.symm.trans h.1, hgraph.symm.trans h.2⟩
    refine ⟨[], graph, node, .nil graph, ?_, hid, rfl, hconstant.recorded_eq_nil,
      hconstant.hostShape_eq⟩
    rw [happends.1, Graph.extend_singleton]
  | none =>
    rw [Settings.perform_of_unfolded hfold] at h
    have hrefusal := Settings.refusal?_of_performStages_yields h
    obtain ⟨constants, mid, request, node, happends, hall, hrequest, hgrants, hid, hafter⟩ :=
      Settings.performStages_yields h
    have hnode := Settings.bears_of_grants hgrants
    refine ⟨constants, mid, node, happends, hafter, hid, ?_,
      Call.stands_iff hrefusal hrequest hnode, fun timeStep hstep hlarge => ?_⟩
    · exact hall.imp fun value c hconstant => ⟨hconstant.recorded_eq_nil, hconstant.hostShape_eq⟩
    · rw [Call.recorded_of_timeStep hrequest hnode hstep, signedWord_eq,
        if_neg (Nat.not_lt.2 hlarge)]

/-- The longest time step that is recorded as it is. -/
theorem numbers_stand_iff_longest :
    let before := Builder.runAll {} [.declare (.input (.dims [2]) none) none]
    let call : Call := .unary (.delayed .past (.dims [2]) 9223372036854775807 0) (.node 0) none
    let after := (before.run call).graph
    (before.toSettings.perform call).Yields before.graph 1 after ∧
      ∃ node, after.node? 1 = some node ∧ call.Stands before.graph [0] node := by
  intro before call after
  have hyields : (before.toSettings.perform call).Yields before.graph 1 after := ⟨rfl, rfl⟩
  obtain ⟨constants, mid, node, ⟨hmid, -⟩, hafter, -, hconstants, hstands, -⟩ :=
    numbers_stand_iff hyields
  cases hconstants
  rw [Graph.extend_nil] at hmid
  rw [hmid] at hafter hstands
  refine ⟨hyields, node, hafter ▸ Graph.node?_snoc_size before.graph node, hstands.2 ?_⟩
  intro timeStep hstep
  cases hstep
  decide

/-- The next time step is recorded as the least negative number. -/
theorem longer_timeStep_recorded_negative :
    let before := Builder.runAll {} [.declare (.input (.dims [2]) none) none]
    let call : Call := .unary (.delayed .past (.dims [2]) 9223372036854775808 0) (.node 0) none
    (before.outcome call).result = .ok 1 ∧ call.timeStep? = some 9223372036854775808 ∧
      ∃ node, (before.run call).graph.node? 1 = some node ∧
        node.attributes.find? "timeStep" = some (.int (-9223372036854775808)) ∧
        ¬ call.Stands before.graph [0] node := by
  intro before call
  refine ⟨rfl, rfl, _, rfl, by decide, ?_⟩
  rintro ⟨x, -, -, hnumbers, -⟩
  revert hnumbers
  decide

end ComputeGraph
