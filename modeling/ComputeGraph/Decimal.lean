/-!
# Decimal numerals

A decimal numeral is a sign, a whole part and the digits after the point. The sign is kept beside
the digits, so that `-0.0` and `0.0` differ.

* `Decimal.ofScaled` — the numeral of `n / 10 ^ places`;
* `Decimal.scaled` — the number that the digits spell when the point is left out;
* `Decimal.text` — the characters.

**The digits stand for the number they are made from:** `scaled_ofScaled`.
-/

namespace ComputeGraph

/-- The last decimal digit of `n`. -/
def lastDigit (n : Nat) : Fin 10 :=
  ⟨n % 10, Nat.mod_lt n (by decide)⟩

/-- The last `width` decimal digits of `n`, most significant first. -/
def lastDigits : Nat → Nat → List (Fin 10)
  | 0, _ => []
  | width + 1, n => lastDigits width (n / 10) ++ [lastDigit n]

/-- The number that digits spell, most significant first. -/
def ofDigits (digits : List (Fin 10)) : Nat :=
  digits.foldl (fun n d => 10 * n + d.val) 0

/-- The character of a digit. -/
def digitText (d : Fin 10) : Char :=
  Nat.digitChar d.val

/-- A decimal numeral. No digits after the point means that no point is written. -/
structure Decimal where
  negative : Bool
  whole : Nat
  fraction : List (Fin 10)
deriving DecidableEq, Repr

namespace Decimal

/-- The numeral of `n / 10 ^ places`, with that many digits after the point. -/
def ofScaled (negative : Bool) (places n : Nat) : Decimal :=
  ⟨negative, n / Nat.pow 10 places, lastDigits places n⟩

/-- The magnitude in units of the last digit written. -/
def scaled (d : Decimal) : Nat :=
  d.whole * Nat.pow 10 d.fraction.length + ofDigits d.fraction

/-- The digits after the point, with the point, or nothing. -/
def fractionText : List (Fin 10) → List Char
  | [] => []
  | digits => '.' :: digits.map digitText

/-- The characters of a numeral. -/
def text (d : Decimal) : List Char :=
  (if d.negative then ['-'] else []) ++ Nat.toDigits 10 d.whole ++ fractionText d.fraction

end Decimal

/-! ### The digits of a number -/

theorem length_lastDigits (width : Nat) : ∀ n, (lastDigits width n).length = width := by
  induction width with
  | zero => intro n; rfl
  | succ width ih => intro n; simp [lastDigits, ih]

theorem ofDigits_append (s : List (Fin 10)) (d : Fin 10) :
    ofDigits (s ++ [d]) = 10 * ofDigits s + d.val := by
  simp [ofDigits, List.foldl_append]

theorem ofDigits_lastDigits (width : Nat) :
    ∀ n, ofDigits (lastDigits width n) = n % Nat.pow 10 width := by
  induction width with
  | zero => intro n; simp [lastDigits, ofDigits, Nat.mod_one]
  | succ width ih =>
    intro n
    rw [lastDigits, ofDigits_append, ih, lastDigit, Nat.pow_eq, Nat.pow_eq, Nat.pow_succ,
      Nat.mul_comm (_ ^ width), Nat.mod_mul, Nat.add_comm]

theorem Decimal.scaled_ofScaled (negative : Bool) (places n : Nat) :
    (Decimal.ofScaled negative places n).scaled = n := by
  simp only [Decimal.scaled, Decimal.ofScaled, length_lastDigits, ofDigits_lastDigits]
  exact Nat.div_add_mod' n _

end ComputeGraph
