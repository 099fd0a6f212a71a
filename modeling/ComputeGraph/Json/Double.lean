import ComputeGraph.Json.Basic
import ComputeGraph.Binary64.Shortest

/-!
# Doubles in JSON

A finite double is written with the fewest digits that read back, with a point and at least one
digit after it where the first digit stands for `10 ^ -5` to `10 ^ 15`, and with a power of ten
elsewhere. Infinities and NaN are written `null`.

A number with a point, an exponent or too many digits for a machine word is read as a double: the
digits that fit into 64 bits make the significand, which is then scaled by powers of ten that are
themselves doubles. The result is near the number but not always the nearest double.
-/

namespace ComputeGraph.Json

variable {σ : Type}

/-! ### Writing -/

/-- The number `n * 10 ^ k` where the first digit of `n` stands for `10 ^ first`. -/
def Number.ofShortest (negative : Bool) (n : Nat) (k first : Int) : Number :=
  if first < -5 ∨ 16 ≤ first then
    ⟨.ofScaled negative (first - k).toNat n, some first⟩
  else if 0 ≤ k then ⟨.ofScaled negative 1 (n * Nat.pow 10 (k.toNat + 1)), none⟩
  else ⟨.ofScaled negative (-k).toNat n, none⟩

/-- The number of a finite double. -/
def Number.ofDouble (x : Float) : Number :=
  if Binary64.magnitude x = 0 then ⟨.ofScaled (Binary64.negative x) 1 0, none⟩
  else
    let (n, k) := Binary64.shortest x
    .ofShortest (Binary64.negative x) n k (k + (Nat.toDigits 10 n).length - 1)

/-- The document of a double. -/
def ofDouble (x : Float) : Json σ :=
  if Binary64.isFinite x then .number (.ofDouble x) else .null

/-! ### Reading -/

/-- Appends digits to a significand as long as it fits into 64 bits, and gives the digits left. -/
def absorb : Nat → List (Fin 10) → Nat × List (Fin 10)
  | significand, [] => (significand, [])
  | significand, d :: digits =>
    if significand * 10 + d.val < UInt64.size then absorb (significand * 10 + d.val) digits
    else (significand, d :: digits)

/-- The double nearest to `10 ^ n`. -/
def powerOfTen (n : Nat) : Float :=
  OfScientific.ofScientific 1 false n

/-- Divides by `10 ^ 308` a number of times, or until nothing is left. -/
def divideRepeatedly (x : Float) : Nat → Float
  | 0 => x
  | steps + 1 => if x == 0 then x else divideRepeatedly (x / powerOfTen 308) steps

/-- The double for `significand * 10 ^ exponent`, or nothing if it is too large. -/
def scaled? (significand : Nat) (exponent : Int) : Option Float :=
  let x := (UInt64.ofNat significand).toFloat
  if exponent < 0 then
    let places := exponent.natAbs
    let steps := (places - 1) / 308
    some (divideRepeatedly x steps / powerOfTen (places - 308 * steps))
  else if 308 < exponent then if x == 0 then some x else none
  else
    let y := x * powerOfTen exponent.toNat
    if y.isInf then none else some y

/-- The digits of a natural number, most significant first. -/
def digitsOf (n : Nat) : List (Fin 10) :=
  lastDigits (Nat.toDigits 10 n).length n

/-- The double that a number is read as, or nothing if it is too large. -/
def Number.toDouble? (n : Number) : Option Float :=
  let (significand, beyond) := absorb 0 (digitsOf n.decimal.whole)
  let (significand, dropped) := absorb significand n.decimal.fraction
  let taken : Int := n.decimal.fraction.length - dropped.length
  let exponent := (beyond.length : Int) - taken + n.exponent.getD 0
  (scaled? significand exponent).map fun x => if n.decimal.negative then -x else x

end ComputeGraph.Json
