import ComputeGraph.Error

/-!
# Reshaping

A tensor may take any shape with as many elements. One extent of the target may be zero and is
then inferred. Element counts are formed from left to right and have to stay below `2 ^ 64` at
every step, so the place of a zero among large extents matters.
-/

namespace ComputeGraph

/-- The target with the inferred extent in place of each zero. -/
def Extents.fill (extent : UInt64) (target : Extents) : Extents :=
  target.map fun n => if n = 0 then extent else n

/-- The shape of a tensor of `total` elements with the shape `input` after the reshape, where
`known` is the product of the extents of `target` other than zero. -/
def Extents.fit (input target : Extents) (total known : Nat) : Except Error Extents :=
  if 0 ∈ target then
    if known = 0 ∨ total % known ≠ 0 then .error (.cannotInfer input target)
    else .ok (target.fill (UInt64.ofNat (total / known)))
  else if known ≠ total then .error (.countsDiffer input total target known)
  else .ok target

/-- The shape of a tensor of known shape after a reshape whose target has at most one zero. -/
def Extents.reshapeKnown (input target : Extents) : Except Error Extents :=
  match input.elementCount? with
  | none => .error (.countTooLarge input)
  | some total =>
    match Extents.elementCount? (target.filter (· ≠ 0)) with
    | none => .error (.targetCountTooLarge target)
    | some known => input.fit target total known

/-- The shape after a reshape. It stays unknown if the shape before is unknown and an extent has to
be inferred. -/
def Extents.reshape (input : Option Extents) (target : Extents) :
    Except Error (Option Extents) :=
  if 1 < List.count 0 target then .error (.manyInferred target)
  else match input with
    | none => .ok (if 0 ∈ target then none else some target)
    | some input => (input.reshapeKnown target).map some

end ComputeGraph
