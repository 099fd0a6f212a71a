import ComputeGraph.Error
import ComputeGraph.Json.Value

/-!
# Shapes written in JSON

A natural number below `2 ^ 64`, written without sign, point and exponent, is a scalar shape, and
an array of such numbers a list of extents. No other value is a shape.
-/

namespace ComputeGraph

/-- The machine word that a number is, if it is one. -/
def Json.Number.word? (n : Json.Number) : Option UInt64 :=
  if n.decimal.negative = false ∧ n.decimal.fraction = [] ∧ n.exponent = none ∧
      n.decimal.whole < UInt64.size then some (UInt64.ofNat n.decimal.whole)
  else none

namespace Shape

variable {σ : Type}

/-- The extent that a value stands for. -/
def extentOfJson? : Json σ → Option UInt64
  | .number n => n.word?
  | _ => none

/-- The shape that a value stands for. -/
def ofJson? : Json σ → Option Shape
  | .number n => n.word?.map .scalar
  | .array items => (items.mapM extentOfJson?).map .dims
  | _ => none

/-- The shape that a value stands for, or an error that shows the value. -/
def ofJson (value : Json (List Char)) : Except Error Shape :=
  match ofJson? value with
  | some shape => .ok shape
  | none => .error (.notAShape value)

/-- The shape that a JSON text stands for. -/
def parseJson (text : String) : Except Error Shape :=
  match (Json.read? text).bind Json.value? with
  | some value => ofJson value
  | none => .error .unreadable

end Shape

end ComputeGraph
