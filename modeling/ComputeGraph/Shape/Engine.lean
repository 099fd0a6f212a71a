import ComputeGraph.Error

/-!
# Shapes and axes for the engine

Going to the engine a shape is reversed, and an axis goes up by one. The two belong together: the
axis picks the same extent in the reversed shape, counted from its far end.

* `Shape.toEngine`, `EngineShape.toHost` — the two directions;
* `EngineAxis.ofHost` — the engine's number of an axis of a tensor of known rank;
* `MarkedShape` — a shape with one of its axes;
* `Shape.forEngine` — the shape of a stored tensor is reversed, a target shape is passed as it is.

**The directions are inverse:** `toHost_toEngine` and `toEngine_toHost`.
-/

namespace ComputeGraph

/-- The shape in the order of the engine. -/
def Shape.toEngine : Shape → EngineShape
  | .scalar n => .scalar n
  | .dims extents => .dims extents.reverse

/-- The shape in the order of the host. -/
def EngineShape.toHost : EngineShape → Shape
  | .scalar n => .scalar n
  | .dims extents => .dims extents.reverse

/-- The engine's number of a host axis of a tensor of the given rank. -/
def EngineAxis.ofHost (axis : Int) (rank : Nat) : Except Error EngineAxis :=
  if 0 ≤ axis ∧ axis < rank then .ok ⟨axis.toNat + 1, Nat.succ_pos _⟩
  else .error (.axisOutOfRange axis rank)

/-- A shape and an axis of it, both as the engine counts. -/
structure MarkedShape where
  shape : EngineShape
  axis : EngineAxis
deriving DecidableEq, Repr

/-- The engine's form of a host shape and one of its axes. -/
def Shape.mark (shape : Shape) (axis : Int) : Except Error MarkedShape := do
  let axis ← EngineAxis.ofHost axis shape.rank
  return ⟨shape.toEngine, axis⟩

/-- What a shape describes. -/
inductive ShapeUse where
  /-- A tensor that the engine stores. -/
  | storage
  /-- A form that the engine is asked to give a tensor. -/
  | target
deriving DecidableEq, Repr

/-- The shape as the engine is given it. -/
def Shape.forEngine (use : ShapeUse) (shape : Shape) : EngineShape :=
  match use, shape with
  | .storage, shape => shape.toEngine
  | .target, .scalar n => .scalar n
  | .target, .dims extents => .dims extents

/-! ### Both ways -/

theorem Shape.toHost_toEngine (shape : Shape) : shape.toEngine.toHost = shape := by
  cases shape <;> simp [toEngine, EngineShape.toHost]

theorem EngineShape.toEngine_toHost (shape : EngineShape) : shape.toHost.toEngine = shape := by
  cases shape <;> simp [toHost, Shape.toEngine]

theorem Shape.extents_toEngine (shape : Shape) :
    shape.toEngine.extents = shape.extents.reverse := by
  cases shape <;> rfl

end ComputeGraph
