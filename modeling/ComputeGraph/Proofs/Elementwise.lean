import ComputeGraph.Elementwise
import ComputeGraph.Proofs.Binary64.Rounding

/-!
# Functions and rounding

Some functions have the same meaning for doubles as for rational numbers. They may be applied before
a number is rounded to decimal places or after, with the same result, unless rounding takes the
number across a jump of the function.

* `Elementwise.rational?` — the functions that are exact on finite doubles;
* `Elementwise.KeepsOff` — rounding a number does not take it to a jump of a function;
* **`Elementwise.eval_isValue`** — the functions are exact;
* **`Elementwise.rounded_eval_iff`** — when the order of rounding and the function does not matter.
-/

namespace ComputeGraph

namespace Elementwise

/-- What a function is on rational numbers, for the functions that are exact on finite doubles. -/
def rational? : Elementwise → Option (ℚ → ℚ)
  | .identity => some id
  | .floor => some fun q => ⌊q⌋
  | .ceil => some fun q => ⌈q⌉
  | .relu => some fun q => max q 0
  | .abs => some fun q => |q|
  | _ => none

/-- Rounding to decimal places does not take a number to the next jump of a function: the greatest
integer below jumps at the next integer, the least integer above just after the last one. -/
def KeepsOff (places : Nat) : Elementwise → ℚ → Prop
  | .floor, q => q < ⌊q⌋ + 1 - halfPlace places
  | .ceil, q => ⌈q⌉ - 1 + halfPlace places < q
  | _, _ => True

variable {f : Elementwise} {g : ℚ → ℚ}

/-- **The functions are exact** on finite doubles. -/
theorem eval_isValue (hg : f.rational? = some g) (policy : DomainPolicy) {x : Float}
    (hfinite : Binary64.isFinite x = true) :
    Binary64.IsValue (f.eval policy x) (g (Binary64.value x)) := by
  cases f with
  | identity =>
    cases hg
    exact ⟨hfinite, rfl⟩
  | floor =>
    cases hg
    exact Binary64.floor_isValue hfinite
  | ceil =>
    cases hg
    exact Binary64.ceil_isValue hfinite
  | relu =>
    cases hg
    exact Binary64.atLeast_zero_isValue hfinite
  | abs =>
    cases hg
    exact Binary64.abs_isValue hfinite
  | round | sigmoid | tanh | exp | log | sqrt | square => cases hg

/-- The numeral of the magnitude of a double is that of the double without its sign. -/
theorem rounded_abs (places : Nat) {x : Float} (hfinite : Binary64.isFinite x = true) :
    Binary64.rounded places (Binary64.abs x) = |Binary64.rounded places x| := by
  obtain ⟨-, hsign, hmagnitude⟩ := Binary64.abs_fields hfinite
  have hnonneg : 0 ≤ roundedQuotient places (Binary64.magnitude x) Binary64.unitsPerOne :=
    roundedQuotient_nonneg
  rw [Binary64.rounded_eq, Binary64.rounded_eq, hsign, hmagnitude, signed_false]
  cases Binary64.negative x with
  | true => rw [signed_true, abs_neg, abs_of_nonneg hnonneg]
  | false => rw [signed_false, abs_of_nonneg hnonneg]

theorem rounded_atLeast_zero {places : Nat} (hplaces : 0 < places) {x : Float}
    (hfinite : Binary64.isFinite x = true) :
    Binary64.rounded places (Binary64.atLeast 0 x) = max (Binary64.rounded places x) 0 := by
  have hiff := Binary64.zero_lt_iff_value hfinite
  unfold Binary64.atLeast
  split
  · rename_i hpos
    exact (max_eq_left (Binary64.rounded_nonneg_of_pos hplaces (hiff.1 hpos))).symm
  · rename_i hpos
    have hnonpos : Binary64.value x ≤ 0 := not_lt.1 fun h => hpos (hiff.2 h)
    have hzero : Binary64.value 0 = ((0 : ℤ) : ℚ) := by exact_mod_cast Binary64.zero_isValue.2
    rw [max_eq_right (Binary64.rounded_nonpos_of_nonpos hplaces hnonpos),
      Binary64.rounded_of_integer hplaces hzero, Int.cast_zero]

/-- **Rounding after a function** gives what the function gives after rounding iff rounding does not
take the argument to a jump. -/
theorem rounded_eval_iff (hg : f.rational? = some g) (policy : DomainPolicy) {places : Nat}
    (hplaces : 0 < places) {x : Float} (hfinite : Binary64.isFinite x = true) :
    Binary64.rounded places (f.eval policy x) = g (Binary64.rounded places x) ↔
      f.KeepsOff places (Binary64.value x) := by
  cases f with
  | identity =>
    cases hg
    exact iff_of_true rfl trivial
  | floor =>
    cases hg
    have hfloor := Binary64.rounded_of_integer hplaces (Binary64.floor_isValue hfinite).2
    show Binary64.rounded places (Binary64.floor x) = (⌊Binary64.rounded places x⌋ : ℚ) ↔ _
    rw [hfloor, Int.cast_inj, eq_comm]
    exact Binary64.floor_rounded_iff hplaces x
  | ceil =>
    cases hg
    have hceil := Binary64.rounded_of_integer hplaces (Binary64.ceil_isValue hfinite).2
    show Binary64.rounded places (Binary64.ceil x) = (⌈Binary64.rounded places x⌉ : ℚ) ↔ _
    rw [hceil, Int.cast_inj, eq_comm]
    exact Binary64.ceil_rounded_iff hplaces x
  | relu =>
    cases hg
    exact iff_of_true (rounded_atLeast_zero hplaces hfinite) trivial
  | abs =>
    cases hg
    exact iff_of_true (rounded_abs places hfinite) trivial
  | round | sigmoid | tanh | exp | log | sqrt | square => cases hg

end Elementwise

end ComputeGraph
