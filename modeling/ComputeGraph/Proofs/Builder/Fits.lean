import ComputeGraph.Proofs.Graph.Append
import ComputeGraph.Proofs.Shape.Reshape
import ComputeGraph.Shape.Product

/-!
# How nodes fit their attributes and operands

The attributes of a node are in the convention of the engine and its shape in that of the host, and
they are worked out apart. This module says how they belong together for each kind of node.

* `OutputRule.Fits` — how the shape of a node follows from its operands under the rule of its kind;
* `Node.FitsDeclaration` — how the shapes that a request declares belong to its attributes;
* `Node.Fits` — both, and that a dynamic axis is an earlier node;
* **`Node.Fits.mono`** — a node that fits does so in every larger graph.
-/

namespace ComputeGraph

/-! ### How a node fits -/

namespace Node

/-- The shape of a leaf is the one of its attribute, read by the host. -/
def FitsLeaf (node : Node) : Prop :=
  node.inputs = [] ∧ ∃ shape, node.attributes.find? "shape" = some (.shape shape) ∧
    node.hostShape = some shape.toHost.extents

/-- A product has its operands swapped, an output rank that the engine counts from the other end,
and, if its shape is known, the shape of the product for the rank that the host counts. -/
def FitsProduct (graph : Graph) (node : Node) : Prop :=
  ∃ (right left : NodeId) (leftShape : Extents) (outputRank : Nat),
    node.inputs = [right, left] ∧ graph.HasShape left leftShape ∧
      node.attributes.find? "outputRank" = some (.int outputRank) ∧
      1 ≤ outputRank ∧ outputRank ≤ leftShape.length ∧
      ∀ shape, node.hostShape = some shape → ∃ rightShape, graph.HasShape right rightShape ∧
        leftShape.product rightShape (leftShape.length + 1 - outputRank) = .ok shape

/-- A reshape, if its shape is known, keeps what its target fixes and the number of elements of its
operand; where the shape of the operand is unknown it has the shape of the target. -/
def FitsReshape (graph : Graph) (node : Node) : Prop :=
  ∃ (x : NodeId) (operand : Node) (target : EngineShape),
    node.inputs = [x] ∧ graph.node? x = some operand ∧
      node.attributes.find? "shape" = some (.shape target) ∧
      ∀ shape, node.hostShape = some shape →
        shape.Keeps target.extents ∧
          (∀ extents, operand.hostShape = some extents →
            shape.elementCount = extents.elementCount) ∧
          (operand.hostShape = none → shape = target.extents)

/-- A transposition exchanges two extents of its operand, those of the host axes that its attributes
stand for. -/
def FitsTranspose (graph : Graph) (node : Node) : Prop :=
  ∃ (x : NodeId) (shape : Extents) (axis1 axis2 : EngineAxis),
    node.inputs = [x] ∧ graph.HasShape x shape ∧
      node.attributes.find? "axis1" = some (.axis axis1) ∧
      node.attributes.find? "axis2" = some (.axis axis2) ∧
      axis1.toHost < shape.length ∧ axis2.toHost < shape.length ∧
      node.hostShape = some (shape.swap axis1.toHost axis2.toHost)

/-- A slice replaces the extent of one host axis of its operand by the length of its range, which is
not empty and lies within that extent. -/
def FitsSlice (graph : Graph) (node : Node) : Prop :=
  ∃ (x : NodeId) (shape : Extents) (start stop : Int) (axis : EngineAxis)
    (old new : UInt64),
    node.inputs = [x] ∧ graph.HasShape x shape ∧
      node.attributes.find? "beginIndex" = some (.int start) ∧
      node.attributes.find? "endIndex" = some (.int stop) ∧
      node.attributes.find? "axis" = some (.axis axis) ∧
      shape[axis.toHost]? = some old ∧ 0 ≤ start ∧ start < stop ∧ stop ≤ old.toNat ∧
      new.toNat = stop - start ∧ node.hostShape = some (shape.set axis.toHost new)

/-- How the shape of a node whose request declares it belongs to its attributes and operands. -/
def FitsDeclaration (graph : Graph) (node : Node) : Prop :=
  match node.kind with
  | .input | .sparseInput | .parameter => node.FitsLeaf
  | .dynamicAxis => node.inputs = [] ∧ node.hostShape = none
  | .times => node.FitsProduct graph
  | .reshape => node.FitsReshape graph
  | .transposeDimensions => node.FitsTranspose graph
  | .slice => node.FitsSlice graph
  | _ => False

/-- A dynamic axis among the attributes of a node is an earlier node that is one. -/
def FitsAxis (graph : Graph) (node : Node) : Prop :=
  ∀ value, node.attributes.find? "dynamicAxis" = some value →
    ∃ axis target, value = .node axis ∧ axis < node.id ∧ graph.node? axis = some target ∧
      target.kind = .dynamicAxis

end Node

/-- How the shape of a node follows from those of its operands under the rule of its kind. -/
def OutputRule.Fits (graph : Graph) (node : Node) : OutputRule → Prop
  | .preserve => ∃ first rest operand, node.inputs = first :: rest ∧
      graph.node? first = some operand ∧ node.hostShape = operand.hostShape
  | .broadcast => ∀ shape, node.hostShape = some shape →
      ∃ shapes, List.Forall₂ graph.HasShape node.inputs shapes ∧
        shapes.foldlM Extents.broadcast [] = .ok shape
  | .scalar => node.hostShape = some [1]
  | .declared => node.FitsDeclaration graph

/-- A node agrees with its attributes and with the shapes of its operands. -/
def Node.Fits (graph : Graph) (node : Node) : Prop :=
  (∃ operator, Registry.standard.find? node.kind = some operator ∧
      node.inputs.length = operator.arity ∧ operator.rule.Fits graph node) ∧
    node.FitsAxis graph

/-! ### Larger graphs -/

section Mono

variable {graph after : Graph} {node : Node}

theorem Node.FitsDeclaration.mono (h : graph.nodes <+: after.nodes)
    (hfits : node.FitsDeclaration graph) : node.FitsDeclaration after := by
  unfold FitsDeclaration at hfits ⊢
  split at hfits
  · exact hfits
  · exact hfits
  · exact hfits
  · exact hfits
  · obtain ⟨right, left, leftShape, outputRank, hinputs, hleft, hrank, hpos, hle, hshape⟩ := hfits
    refine ⟨right, left, leftShape, outputRank, hinputs, hleft.of_extends h, hrank, hpos, hle,
      fun shape hknown => ?_⟩
    obtain ⟨rightShape, hright, hproduct⟩ := hshape shape hknown
    exact ⟨rightShape, hright.of_extends h, hproduct⟩
  · obtain ⟨x, operand, target, hinputs, hoperand, hrest⟩ := hfits
    exact ⟨x, operand, target, hinputs, Graph.node?_of_extends h hoperand, hrest⟩
  · obtain ⟨x, shape, axis1, axis2, hinputs, hshape, hrest⟩ := hfits
    exact ⟨x, shape, axis1, axis2, hinputs, hshape.of_extends h, hrest⟩
  · obtain ⟨x, shape, start, stop, axis, old, new, hinputs, hshape, hrest⟩ := hfits
    exact ⟨x, shape, start, stop, axis, old, new, hinputs, hshape.of_extends h, hrest⟩
  · exact hfits

theorem OutputRule.Fits.mono (h : graph.nodes <+: after.nodes) {rule : OutputRule}
    (hfits : rule.Fits graph node) : rule.Fits after node := by
  cases rule with
  | preserve =>
    obtain ⟨first, rest, operand, hinputs, hoperand, hshape⟩ := hfits
    exact ⟨first, rest, operand, hinputs, Graph.node?_of_extends h hoperand, hshape⟩
  | broadcast =>
    intro shape hknown
    obtain ⟨shapes, hshapes, hfold⟩ := hfits shape hknown
    exact ⟨shapes, hshapes.imp fun _ _ hshape => hshape.of_extends h, hfold⟩
  | scalar => exact hfits
  | declared => exact Node.FitsDeclaration.mono h hfits

theorem Node.FitsAxis.mono (h : graph.nodes <+: after.nodes) (hfits : node.FitsAxis graph) :
    node.FitsAxis after := by
  intro value hvalue
  obtain ⟨axis, target, hvalue, hlt, htarget, hkind⟩ := hfits value hvalue
  exact ⟨axis, target, hvalue, hlt, Graph.node?_of_extends h htarget, hkind⟩

/-- **Larger graphs.** A node that fits does so in every graph with more nodes. -/
theorem Node.Fits.mono (h : graph.nodes <+: after.nodes) (hfits : node.Fits graph) :
    node.Fits after := by
  obtain ⟨⟨operator, hoperator, harity, hrule⟩, haxis⟩ := hfits
  exact ⟨⟨operator, hoperator, harity, hrule.mono h⟩, haxis.mono h⟩

end Mono

end ComputeGraph
