import ComputeGraph.Binary64.Basic

/-!
# Neighbouring integers of a double

The greatest integer below a double and the least above it. Infinities, NaN and integral doubles
are left as they are, and a zero keeps the sign of the number it comes from.
-/

namespace ComputeGraph.Binary64

/-- Whether a double is finite and not an integer. -/
def hasFraction (x : Float) : Bool :=
  isFinite x && magnitude x % unitsPerOne != 0

/-- The integral part of the magnitude. -/
def integralPart (x : Float) : Nat :=
  magnitude x / unitsPerOne

/-- The greatest integer that is not above `x`. -/
def floor (x : Float) : Float :=
  if hasFraction x then
    ofNatural (negative x) (if negative x then integralPart x + 1 else integralPart x)
  else x

/-- The least integer that is not below `x`. -/
def ceil (x : Float) : Float :=
  if hasFraction x then
    ofNatural (negative x) (if negative x then integralPart x else integralPart x + 1)
  else x

/-- The magnitude of `x` without its sign. -/
def abs (x : Float) : Float :=
  Float.ofBits (UInt64.ofNat (x.toBits.toNat % Nat.pow 2 63))

/-- The larger of `x` and a bound, which also replaces NaN. -/
def atLeast (bound x : Float) : Float :=
  if bound < x then x else bound

end ComputeGraph.Binary64
