import ComputeGraph.Error

/-!
# Broadcasting

Two shapes are laid over each other from the last axis on. Where both have an axis, the extents
have to be equal or one of them has to be one; an axis that one shape lacks counts as one.
-/

namespace ComputeGraph

/-- The common extent of two axes. -/
def joinExtent? (x y : UInt64) : Option UInt64 :=
  if x = y then some x
  else if x = 1 then some y
  else if y = 1 then some x
  else none

/-- The common shape of two shapes whose innermost axes come first. -/
def joinInner? : Extents → Extents → Option Extents
  | [], right => some right
  | left, [] => some left
  | x :: left, y :: right => do
    let extent ← joinExtent? x y
    let rest ← joinInner? left right
    return extent :: rest

/-- The common shape of two shapes. -/
def Extents.broadcast? (left right : Extents) : Option Extents :=
  (joinInner? left.reverse right.reverse).map List.reverse

/-- The common shape of two shapes, or an error that shows both. -/
def Extents.broadcast (left right : Extents) : Except Error Extents :=
  match left.broadcast? right with
  | some shape => .ok shape
  | none => .error (.cannotBroadcast left right)

end ComputeGraph
