/-!
# The numbers that doubles stand for

A finite double is an integer multiple of `2 ^ -1074`. Its magnitude is kept as that integer, so
every comparison of doubles with fractions stays in the natural numbers.

* `negative`, `exponent`, `significand` — the three fields of the 64 bits;
* `magnitude` — the distance from zero in units of `2 ^ -1074`;
* `ofNatural` — the double of a signed integer below `2 ^ 53`.
-/

namespace ComputeGraph.Binary64

/-- How many units of `2 ^ -1074` make one. -/
def unitsPerOne : Nat := Nat.pow 2 1074

/-- Whether the sign bit is set. -/
def negative (x : Float) : Bool :=
  Nat.pow 2 63 ≤ x.toBits.toNat

/-- The eleven exponent bits. -/
def exponent (x : Float) : Nat :=
  x.toBits.toNat / Nat.pow 2 52 % Nat.pow 2 11

/-- The fifty-two bits below the exponent. -/
def fraction (x : Float) : Nat :=
  x.toBits.toNat % Nat.pow 2 52

/-- Neither an infinity nor a NaN. -/
def isFinite (x : Float) : Bool :=
  exponent x != 2047

/-- All exponent bits set and some fraction bit. -/
def isNaN (x : Float) : Bool :=
  exponent x == 2047 && fraction x != 0

/-- The integer that the exponent scales: subnormal doubles lack the leading bit. -/
def significand (x : Float) : Nat :=
  if exponent x = 0 then fraction x else Nat.pow 2 52 + fraction x

/-- The distance to the next larger magnitude is `2 ^ spacing` units. -/
def spacing (x : Float) : Nat :=
  exponent x - 1

/-- The distance of a finite double from zero, in units of `2 ^ -1074`. -/
def magnitude (x : Float) : Nat :=
  significand x * Nat.pow 2 (spacing x)

/-- The bits of the integer `n`, which is below `2 ^ 53`. -/
def naturalBits (n : Nat) : Nat :=
  if n = 0 then 0
  else (1023 + n.log2) * Nat.pow 2 52 + (n * Nat.pow 2 (52 - n.log2) - Nat.pow 2 52)

/-- The double of the integer `n`, or of `-n`. Zero keeps the sign. -/
def ofNatural (negative : Bool) (n : Nat) : Float :=
  Float.ofBits (UInt64.ofNat ((if negative then Nat.pow 2 63 else 0) + naturalBits n))

end ComputeGraph.Binary64
