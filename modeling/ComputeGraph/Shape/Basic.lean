import ComputeGraph.Json.Basic

/-!
# Shapes

The host lists the extents of a tensor outermost first and counts axes from zero. The engine lists
them innermost first and counts axes from one. A shape is either a single extent or a list of
extents, and the two forms stay apart on both sides.

* `Extents.elementCount`, `Extents.elementCount?` — the number of elements, exact and as machine
  words form it;
* `Shape`, `EngineShape` — shapes in the order of the host and of the engine;
* `EngineAxis` — an axis counted from one.
-/

namespace ComputeGraph

/-- The extents of a tensor along its axes. -/
abbrev Extents := List UInt64

/-- The product of a start and some extents, if it stays below `2 ^ 64` at every step. -/
def countFrom? (start : Nat) : Extents → Option Nat
  | [] => some start
  | n :: extents =>
    if start * n.toNat < UInt64.size then countFrom? (start * n.toNat) extents else none

namespace Extents

/-- The exact number of elements. -/
def elementCount : Extents → Nat
  | [] => 1
  | n :: extents => n.toNat * elementCount extents

/-- The number of elements, if every partial product is below `2 ^ 64`. -/
def elementCount? (extents : Extents) : Option Nat :=
  countFrom? 1 extents

/-- The extents in brackets. -/
def text (extents : Extents) : String :=
  "[" ++ ", ".intercalate (extents.map fun n => n.toNat.repr) ++ "]"

/-- The extents as an array of numbers. -/
def toJson {σ : Type} (extents : Extents) : Json σ :=
  .array (extents.map fun n => .ofNat n.toNat)

end Extents

/-- A shape in the order of the host, outermost extent first. -/
inductive Shape where
  | scalar (extent : UInt64)
  | dims (extents : Extents)
deriving DecidableEq, Repr

namespace Shape

/-- The extents of a shape; a single extent makes one axis. -/
def extents : Shape → Extents
  | .scalar n => [n]
  | .dims extents => extents

/-- The number of axes. -/
def rank (shape : Shape) : Nat :=
  shape.extents.length

/-- Whether the shape is a single extent. -/
def isScalar : Shape → Bool
  | .scalar _ => true
  | .dims _ => false

/-- The characters of a shape: a lone extent in parentheses is followed by a comma, which tells it
from a scalar shape. -/
def characters : Shape → List Char
  | .scalar n => Nat.toDigits 10 n.toNat
  | .dims [n] => '(' :: (Nat.toDigits 10 n.toNat ++ [',', ')'])
  | .dims extents =>
    '(' :: (List.intercalate [',', ' '] (extents.map fun n => Nat.toDigits 10 n.toNat) ++ [')'])

/-- The text of a shape. -/
def text (shape : Shape) : String :=
  String.ofList shape.characters

/-- A shape in JSON: a number, or an array of numbers. -/
def toJson {σ : Type} : Shape → Json σ
  | .scalar n => .ofNat n.toNat
  | .dims extents => extents.toJson

end Shape

/-- A shape in the order of the engine, innermost extent first. -/
inductive EngineShape where
  | scalar (extent : UInt64)
  | dims (extents : Extents)
deriving DecidableEq, Repr

namespace EngineShape

/-- The extents of a shape, innermost first. -/
def extents : EngineShape → Extents
  | .scalar n => [n]
  | .dims extents => extents

/-- The number of axes. -/
def rank (shape : EngineShape) : Nat :=
  shape.extents.length

/-- The extent of a scalar shape. -/
def scalar? : EngineShape → Option UInt64
  | .scalar n => some n
  | .dims _ => none

/-- The extents of a shape that is not scalar. -/
def dims? : EngineShape → Option Extents
  | .scalar _ => none
  | .dims extents => some extents

/-- The engine's text of a shape, with colons between the extents. -/
def text : EngineShape → String
  | .scalar n => n.toNat.repr
  | .dims extents => ":".intercalate (extents.map fun n => n.toNat.repr)

/-- The form of a shape and its extents. -/
def description : EngineShape → String
  | .scalar n => "Scalar(" ++ n.toNat.repr ++ ")"
  | .dims extents => "Dims(" ++ extents.text ++ ")"

/-- A shape in JSON: a number, or an array of numbers. -/
def toJson {σ : Type} : EngineShape → Json σ
  | .scalar n => .ofNat n.toNat
  | .dims extents => extents.toJson

end EngineShape

/-- An axis as the engine counts it, from one. -/
structure EngineAxis where
  number : Nat
  number_pos : 0 < number
deriving DecidableEq, Repr

/-- The axis as the host counts it, from zero. -/
def EngineAxis.toHost (axis : EngineAxis) : Nat :=
  axis.number - 1

end ComputeGraph
