import ComputeGraph.Proofs.Binary64.Bits

/-!
# The values of doubles

A finite double is a rational number. The neighbouring integers, the magnitude and the larger of a
double and zero are exact: their values are those of the functions of rational numbers.

* `signed`, `value` — the rational number of a finite double;
* `IsValue` — a double is finite and has a value;
* `ofNatural_isValue` — integers below `2 ^ 53` are doubles;
* **`floor_isValue`**, **`ceil_isValue`**, **`abs_isValue`**, **`atLeast_zero_isValue`** — the exact
  functions.
-/

namespace ComputeGraph

/-- A number with a sign before it. -/
def signed : Bool → ℚ → ℚ
  | true, q => -q
  | false, q => q

@[simp] theorem signed_true (q : ℚ) : signed true q = -q := rfl

@[simp] theorem signed_false (q : ℚ) : signed false q = q := rfl

namespace Binary64

/-- The rational number that a finite double is. -/
def value (x : Float) : ℚ :=
  signed (negative x) (magnitude x / unitsPerOne)

/-- A double is finite and stands for a number. -/
def IsValue (x : Float) (q : ℚ) : Prop :=
  isFinite x = true ∧ value x = q

/-- One is a power of two units. The exponent stays a variable, so that the power is not formed. -/
theorem exists_unitsPerOne : ∃ k, k = 1074 ∧ unitsPerOne = 2 ^ k := by
  unfold unitsPerOne
  generalize 1074 = n
  exact ⟨n, rfl, rfl⟩

theorem unitsPerOne_pos : 0 < unitsPerOne := by
  obtain ⟨k, -, hunits⟩ := exists_unitsPerOne
  rw [hunits]
  exact Nat.two_pow_pos k

theorem cast_unitsPerOne_pos : (0 : ℚ) < unitsPerOne :=
  Nat.cast_pos.2 unitsPerOne_pos

/-! ### Integers -/

theorem significand_lt (x : Float) : significand x < 2 ^ 53 := by
  have hfraction : fraction x < 2 ^ 52 := Nat.mod_lt _ (by decide)
  unfold significand
  simp only [Nat.pow_eq]
  split <;> omega

/-- The integral part of a double that has a fraction needs one bit less than the significand. -/
theorem integralPart_lt {x : Float} (h : hasFraction x = true) : integralPart x < 2 ^ 52 := by
  have hmod : magnitude x % unitsPerOne ≠ 0 := bne_iff_ne.1 (Bool.and_eq_true_iff.1 h).2
  obtain ⟨k, -, hunits⟩ := exists_unitsPerOne
  rw [hunits] at hmod
  have hspacing : spacing x < k := by
    refine Nat.lt_of_not_le fun hle => hmod (Nat.mod_eq_zero_of_dvd ?_)
    exact Nat.dvd_mul_left_of_dvd (Nat.pow_dvd_pow 2 hle) (significand x)
  have hhalf : 2 ^ spacing x * 2 ≤ 2 ^ k := by
    rw [← Nat.pow_succ]
    exact Nat.pow_le_pow_right (by decide) hspacing
  rw [integralPart, hunits]
  refine Nat.div_lt_of_lt_mul ?_
  calc magnitude x < 2 ^ 53 * 2 ^ spacing x :=
        Nat.mul_lt_mul_of_pos_right (significand_lt x) (Nat.two_pow_pos _)
    _ = 2 ^ spacing x * 2 * 2 ^ 52 := by rw [Nat.mul_comm, Nat.mul_assoc, ← Nat.pow_succ']
    _ ≤ 2 ^ k * 2 ^ 52 := Nat.mul_le_mul_right _ hhalf

/-- Moved up by the length that is left, the leading bit of an integer stands at the place of
`2 ^ 52`. -/
theorem leading_bit {n : Nat} (hzero : n ≠ 0) (hlog : n.log2 ≤ 52) :
    2 ^ 52 ≤ n * 2 ^ (52 - n.log2) ∧ n * 2 ^ (52 - n.log2) < 2 ^ 52 + 2 ^ 52 := by
  have hshift : 2 ^ n.log2 * 2 ^ (52 - n.log2) = 2 ^ 52 := by
    rw [← Nat.pow_add, Nat.add_sub_cancel' hlog]
  constructor
  · rw [← hshift]
    exact Nat.mul_le_mul_right _ (Nat.log2_self_le hzero)
  · calc n * 2 ^ (52 - n.log2) < 2 ^ (n.log2 + 1) * 2 ^ (52 - n.log2) :=
          Nat.mul_lt_mul_of_pos_right Nat.lt_log2_self (Nat.two_pow_pos _)
      _ = 2 ^ 52 + 2 ^ 52 := by rw [Nat.pow_succ, Nat.mul_right_comm, hshift, Nat.mul_two]

/-- The double of an integer has its fields. -/
theorem ofNatural_fields (sign : Bool) {n : Nat} (hn : n < 2 ^ 53) :
    isFinite (ofNatural sign n) = true ∧ negative (ofNatural sign n) = sign ∧
      magnitude (ofNatural sign n) = n * unitsPerOne := by
  by_cases hzero : n = 0
  · subst hzero
    obtain ⟨hsign, hexponent, hfraction⟩ :=
      fields_ofBits (e := 0) (f := 0) sign (by decide) (by decide) (x := ofNatural sign 0) rfl
    refine ⟨?_, hsign, ?_⟩
    · rw [isFinite, hexponent]
      rfl
    · rw [magnitude, significand, if_pos hexponent, hfraction, Nat.zero_mul, Nat.zero_mul]
  · have hlog : n.log2 ≤ 52 := Nat.le_of_lt_succ ((Nat.log2_lt hzero).2 hn)
    obtain ⟨hlower, hupper⟩ := leading_bit hzero hlog
    have hbits : ofNatural sign n = Float.ofBits (UInt64.ofNat
        (assemble sign (1023 + n.log2) (n * 2 ^ (52 - n.log2) - 2 ^ 52))) := by
      rw [ofNatural, naturalBits, if_neg hzero]
      rfl
    obtain ⟨hsign, hexponent, hfraction⟩ := fields_ofBits sign (by omega)
      (show n * 2 ^ (52 - n.log2) - 2 ^ 52 < 2 ^ 52 by omega) hbits
    refine ⟨?_, hsign, ?_⟩
    · rw [isFinite, hexponent]
      exact bne_iff_ne.2 (by omega)
    · have hspacing : spacing (ofNatural sign n) = 1022 + n.log2 := by
        rw [spacing, hexponent]
        omega
      have hsignificand : significand (ofNatural sign n) = n * 2 ^ (52 - n.log2) := by
        rw [significand, hexponent, hfraction, if_neg (by omega)]
        exact Nat.add_sub_cancel' hlower
      obtain ⟨k, hk, hunits⟩ := exists_unitsPerOne
      calc magnitude (ofNatural sign n)
          = n * 2 ^ (52 - n.log2) * 2 ^ (1022 + n.log2) := by
            rw [magnitude, hsignificand, hspacing]
            rfl
        _ = n * 2 ^ (52 - n.log2 + (1022 + n.log2)) := by rw [Nat.mul_assoc, ← Nat.pow_add]
        _ = n * unitsPerOne := by rw [hunits, show 52 - n.log2 + (1022 + n.log2) = k by omega]

/-- **Integers below `2 ^ 53`** are doubles. -/
theorem ofNatural_isValue (sign : Bool) {n : Nat} (hn : n < 2 ^ 53) :
    IsValue (ofNatural sign n) (signed sign n) := by
  obtain ⟨hfinite, hsign, hmagnitude⟩ := ofNatural_fields sign hn
  refine ⟨hfinite, ?_⟩
  rw [value, hsign, hmagnitude, Nat.cast_mul, mul_div_cancel_right₀ _ cast_unitsPerOne_pos.ne']

/-! ### Neighbouring integers -/

/-- A double without a fraction is an integer. -/
theorem value_of_not_hasFraction {x : Float} (hfinite : isFinite x = true)
    (h : ¬ hasFraction x = true) : ∃ z : ℤ, value x = z := by
  have hmod : magnitude x % unitsPerOne = 0 := by
    by_contra hmod
    exact h (Bool.and_eq_true_iff.2 ⟨hfinite, bne_iff_ne.2 hmod⟩)
  obtain ⟨k, hk⟩ := Nat.dvd_of_mod_eq_zero hmod
  have hquotient : (magnitude x / unitsPerOne : ℚ) = (k : ℤ) := by
    rw [hk, Nat.cast_mul, mul_div_cancel_left₀ _ cast_unitsPerOne_pos.ne', Int.cast_natCast]
  rw [value, hquotient]
  cases negative x with
  | true => exact ⟨-k, by push_cast; rfl⟩
  | false => exact ⟨k, rfl⟩

/-- A double with a fraction lies between its integral part and the next integer. -/
theorem quotient_between {x : Float} (h : hasFraction x = true) :
    (integralPart x : ℚ) < magnitude x / unitsPerOne ∧
      (magnitude x / unitsPerOne : ℚ) < integralPart x + 1 := by
  have hmod : magnitude x % unitsPerOne ≠ 0 := bne_iff_ne.1 (Bool.and_eq_true_iff.1 h).2
  have hsum : unitsPerOne * integralPart x + magnitude x % unitsPerOne = magnitude x :=
    Nat.div_add_mod _ _
  have hlt : magnitude x % unitsPerOne < unitsPerOne := Nat.mod_lt _ unitsPerOne_pos
  have hbelow : integralPart x * unitsPerOne < magnitude x := by
    rw [Nat.mul_comm]
    omega
  have habove : magnitude x < (integralPart x + 1) * unitsPerOne := by
    rw [Nat.add_mul, Nat.mul_comm, Nat.one_mul]
    omega
  rw [lt_div_iff₀ cast_unitsPerOne_pos, div_lt_iff₀ cast_unitsPerOne_pos]
  exact ⟨by exact_mod_cast hbelow, by exact_mod_cast habove⟩

section Neighbours

variable {n : Nat} {q : ℚ} (hbelow : n < q) (habove : q < n + 1)

include hbelow habove

theorem floor_signed (sign : Bool) :
    (⌊signed sign q⌋ : ℚ) = signed sign (if sign then n + 1 else n : Nat) := by
  cases sign with
  | true =>
    have hfloor : ⌊-q⌋ = -((n + 1 : Nat) : ℤ) := by
      rw [Int.floor_eq_iff]
      push_cast
      exact ⟨by linarith, by linarith⟩
    rw [signed_true, hfloor, Int.cast_neg, Int.cast_natCast]
    rfl
  | false =>
    have hfloor : ⌊q⌋ = (n : ℤ) := Int.floor_eq_iff.2 ⟨hbelow.le, habove⟩
    rw [signed_false, hfloor, Int.cast_natCast]
    rfl

theorem ceil_signed (sign : Bool) :
    (⌈signed sign q⌉ : ℚ) = signed sign (if sign then n else n + 1 : Nat) := by
  have hfloor := floor_signed hbelow habove (!sign)
  cases sign with
  | true =>
    rw [signed_true, Int.ceil_neg, Int.cast_neg]
    exact congrArg Neg.neg hfloor
  | false =>
    have hneg : -(⌈q⌉ : ℚ) = -((n + 1 : Nat) : ℚ) := by
      rw [← Int.cast_neg, ← Int.floor_neg]
      exact hfloor
    exact neg_injective hneg

end Neighbours

/-- **The greatest integer below** a finite double is exact. -/
theorem floor_isValue {x : Float} (hfinite : isFinite x = true) :
    IsValue (floor x) ⌊value x⌋ := by
  unfold floor
  split
  · rename_i hfraction
    have hpart := integralPart_lt hfraction
    obtain ⟨hbelow, habove⟩ := quotient_between hfraction
    rw [value, floor_signed hbelow habove]
    exact ofNatural_isValue (negative x) (by split <;> omega)
  · rename_i hfraction
    obtain ⟨z, hz⟩ := value_of_not_hasFraction hfinite hfraction
    exact ⟨hfinite, by rw [hz, Int.floor_intCast]⟩

/-- **The least integer above** a finite double is exact. -/
theorem ceil_isValue {x : Float} (hfinite : isFinite x = true) : IsValue (ceil x) ⌈value x⌉ := by
  unfold ceil
  split
  · rename_i hfraction
    have hpart := integralPart_lt hfraction
    obtain ⟨hbelow, habove⟩ := quotient_between hfraction
    rw [value, ceil_signed hbelow habove]
    exact ofNatural_isValue (negative x) (by split <;> omega)
  · rename_i hfraction
    obtain ⟨z, hz⟩ := value_of_not_hasFraction hfinite hfraction
    exact ⟨hfinite, by rw [hz, Int.ceil_intCast]⟩

/-! ### Signs -/

theorem quotient_nonneg (x : Float) : (0 : ℚ) ≤ magnitude x / unitsPerOne :=
  div_nonneg (Nat.cast_nonneg _) cast_unitsPerOne_pos.le

theorem abs_fields {x : Float} (hfinite : isFinite x = true) :
    isFinite (abs x) = true ∧ negative (abs x) = false ∧ magnitude (abs x) = magnitude x := by
  have hexponent : exponent x < 2047 := by
    have hlt : exponent x < 2048 := Nat.mod_lt _ (by decide)
    have hne : exponent x ≠ 2047 := bne_iff_ne.1 hfinite
    omega
  have hfraction : fraction x < Nat.pow 2 52 := Nat.mod_lt _ (by decide)
  have hbits : x.toBits.toNat % Nat.pow 2 63 = assemble false (exponent x) (fraction x) := by
    show x.toBits.toNat % (2 ^ 52 * 2 ^ 11) = 0 + (exponent x * 2 ^ 52 + fraction x)
    rw [Nat.mod_mul, Nat.zero_add, Nat.add_comm, Nat.mul_comm]
    rfl
  obtain ⟨hsign, hexponent', hfraction'⟩ := fields_ofBits false hexponent hfraction
    (x := abs x) (by rw [abs, hbits])
  refine ⟨?_, hsign, ?_⟩
  · rw [isFinite, hexponent']
    exact bne_iff_ne.2 (Nat.ne_of_lt hexponent)
  · rw [magnitude, significand, spacing, hexponent', hfraction']
    rfl

/-- **The magnitude** of a finite double is exact. -/
theorem abs_isValue {x : Float} (hfinite : isFinite x = true) : IsValue (abs x) |value x| := by
  obtain ⟨hfinite', hsign, hmagnitude⟩ := abs_fields hfinite
  refine ⟨hfinite', ?_⟩
  have hnonneg := quotient_nonneg x
  rw [value, value, hsign, hmagnitude, signed_false]
  cases negative x with
  | true => rw [signed_true, abs_neg, abs_of_nonneg hnonneg]
  | false => rw [signed_false, abs_of_nonneg hnonneg]

theorem zero_isValue : IsValue 0 0 := by
  have hmagnitude : magnitude 0 = 0 := rfl
  refine ⟨rfl, ?_⟩
  rw [value, hmagnitude, Nat.cast_zero, zero_div]
  exact rfl

/-- The order of doubles is that of their values. -/
theorem zero_lt_iff_value {x : Float} (hfinite : isFinite x = true) : 0 < x ↔ 0 < value x := by
  rw [zero_lt_iff hfinite, value]
  cases negative x with
  | true =>
    refine iff_of_false (fun h => nomatch h.1) (not_lt.2 ?_)
    rw [signed_true]
    exact neg_nonpos.2 (quotient_nonneg x)
  | false =>
    rw [signed_false, div_pos_iff_of_pos_right cast_unitsPerOne_pos, Nat.cast_pos,
      Nat.pos_iff_ne_zero, and_iff_right rfl]

/-- **The larger of a finite double and zero** is exact. -/
theorem atLeast_zero_isValue {x : Float} (hfinite : isFinite x = true) :
    IsValue (atLeast 0 x) (max (value x) 0) := by
  have hiff := zero_lt_iff_value hfinite
  unfold atLeast
  split
  · rename_i hpos
    exact ⟨hfinite, (max_eq_left (hiff.1 hpos).le).symm⟩
  · rename_i hpos
    rw [max_eq_right (not_lt.1 fun h => hpos (hiff.2 h))]
    exact zero_isValue

end Binary64

end ComputeGraph
