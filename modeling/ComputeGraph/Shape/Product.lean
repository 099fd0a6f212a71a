import ComputeGraph.Error

/-!
# Shapes of products

A product contracts the last axes of the left operand with as many first axes of the right one. The
host says how many axes of the left operand stay (`outputRank`). The engine gets the operands
swapped and reversed, and counts the same choice from the other end.

* `engineOutputRank` — the number of axes that the engine is told;
* `Extents.product` — the shape of a product.
-/

namespace ComputeGraph

/-- The engine's output rank for a left operand of the given rank. -/
def engineOutputRank (leftRank outputRank : Nat) : Except Error Nat :=
  if outputRank = 0 ∨ leftRank < outputRank then
    .error (.outputRankOutOfRange leftRank outputRank)
  else .ok (leftRank + 1 - outputRank)

/-- The shape of a product that keeps the first `outputRank` axes of `left`. -/
def Extents.product (left right : Extents) (outputRank : Nat) : Except Error Extents :=
  let contracted := left.length - outputRank
  if outputRank = 0 ∨ left.length < outputRank then
    .error (.productRankOutOfRange left.length outputRank)
  else if right.length < contracted then .error (.tooManyContracted contracted left right)
  else if left.drop outputRank ≠ right.take contracted then
    .error (.contractedAxesDiffer left right)
  else .ok (left.take outputRank ++ right.drop contracted)

end ComputeGraph
