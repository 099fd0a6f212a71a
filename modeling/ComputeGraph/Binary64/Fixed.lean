import ComputeGraph.Decimal
import ComputeGraph.Binary64.Basic

/-!
# Doubles with a fixed number of decimal places

The exact value of a double, rounded to a given number of decimal places. A value halfway between
two numerals goes to the one whose last digit is even.

* `halfEven` — a quotient rounded to the nearest integer;
* `fixed` — the numeral of a finite double;
* `fixedText` — the text of any double.
-/

namespace ComputeGraph

/-- The integer nearest to `n / d`, the even one if two are equally near. -/
def halfEven (n d : Nat) : Nat :=
  let q := n / d
  let r := n % d
  if 2 * r < d then q
  else if d < 2 * r then q + 1
  else if q % 2 = 0 then q else q + 1

namespace Binary64

/-- The numeral of a finite double with the given number of decimal places. -/
def fixed (places : Nat) (x : Float) : Decimal :=
  .ofScaled (negative x) places (halfEven (magnitude x * Nat.pow 10 places) unitsPerOne)

/-- The text of a double with the given number of decimal places. -/
def fixedText (places : Nat) (x : Float) : List Char :=
  if isNaN x then ['N', 'a', 'N']
  else if isFinite x then (fixed places x).text
  else if negative x then ['-', 'i', 'n', 'f']
  else ['i', 'n', 'f']

end Binary64

end ComputeGraph
