import ComputeGraph.Binary64.Basic

/-!
# The shortest decimal of a double

Of all decimals that round to a given double, the one with the fewest digits, and of these the
nearest. The reals that round to a double form an interval, which holds its ends just when the
significand is even. The search goes through the grids of multiples of `10 ^ k` from coarse to
fine; on a grid only the two neighbours of the double can be the answer.

* `lower`, `upper` — the ends of the interval, in quarters of `2 ^ -1074`;
* `onGrid?` — the nearest multiple of `10 ^ k` that rounds to the double;
* `shortest` — its digits and the exponent of the last one.
-/

namespace ComputeGraph.Binary64

/-- The least end of the interval of reals that round to `x`, in quarters of a unit. Below a
power of two the doubles lie twice as dense. -/
def lower (x : Float) : Nat :=
  4 * magnitude x - (if fraction x = 0 ∧ 1 < exponent x then Nat.pow 2 (spacing x)
    else 2 * Nat.pow 2 (spacing x))

/-- The greatest end of the interval of reals that round to `x`, in quarters of a unit. -/
def upper (x : Float) : Nat :=
  4 * magnitude x + 2 * Nat.pow 2 (spacing x)

/-- Whether the fraction `n / d` of a quarter unit rounds to `x`. -/
def reads (x : Float) (n d : Nat) : Bool :=
  if significand x % 2 = 0 then lower x * d ≤ n && n ≤ upper x * d
  else lower x * d < n && n < upper x * d

/-- The nearest multiple of `step / d` quarter units to `x` that rounds to `x`, as its quotient.
Of two equally near ones the even one is taken. -/
def nearestMultiple? (x : Float) (step d : Nat) : Option Nat :=
  let value := 4 * magnitude x * d
  let below := value / step
  let rest := value % step
  let low := reads x (below * step) d
  let high := reads x ((below + 1) * step) d
  if low && high then
    some (if 2 * rest < step || (2 * rest = step && below % 2 = 0) then below else below + 1)
  else if low then some below
  else if high then some (below + 1)
  else none

/-- The nearest multiple of `10 ^ k` that rounds to `x`, divided by `10 ^ k`. -/
def onGrid? (x : Float) (k : Int) : Option Nat :=
  nearestMultiple? x (4 * unitsPerOne * Nat.pow 10 k.toNat) (Nat.pow 10 (-k).toNat)

/-- The first grid, from `10 ^ k` downwards, that holds a number which rounds to `x`. -/
def shortestFrom (x : Float) : Nat → Int → Nat × Int
  | 0, k => ((onGrid? x k).getD 0, k)
  | steps + 1, k =>
    match onGrid? x k with
    | some n => (n, k)
    | none => shortestFrom x steps (k - 1)

/-- The shortest decimal `n * 10 ^ k` of a finite double other than zero, as `(n, k)`. The
coarsest grid that can matter is `10 ^ 309` and the finest `10 ^ -324`. -/
def shortest (x : Float) : Nat × Int :=
  shortestFrom x 633 309

end ComputeGraph.Binary64
