import ComputeGraph.Binary64.Fixed
import ComputeGraph.Proofs.Binary64.Value

/-!
# Rounding to decimal places

The numeral of a double with some decimal places stands for the nearest multiple of the last place.
Integers are such multiples with an even last digit, so a rounded double lies below an integer just
when the double lies more than half a place below it.

* `halfEven_lt_iff`, `lt_halfEven_iff` — a rounded quotient and an even integer;
* `Decimal.value` — the number that a numeral stands for;
* `rounded` — the number that a double is written as;
* **`rounded_lt_iff`**, **`lt_rounded_iff`** — a rounded double and an integer;
* `floor_rounded_iff`, `ceil_rounded_iff` — when rounding leaves the neighbouring integers as they
  are.
-/

namespace ComputeGraph

/-! ### Quotients -/

section HalfEven

variable {n d : Nat}

theorem halfEven_cases (n d : Nat) :
    (halfEven n d = n / d ∧ (2 * (n % d) < d ∨ (2 * (n % d) = d ∧ n / d % 2 = 0))) ∨
      (halfEven n d = n / d + 1 ∧ (d < 2 * (n % d) ∨ (2 * (n % d) = d ∧ n / d % 2 = 1))) := by
  unfold halfEven
  by_cases hbelow : 2 * (n % d) < d
  · exact .inl ⟨if_pos hbelow, .inl hbelow⟩
  · by_cases habove : d < 2 * (n % d)
    · exact .inr ⟨(if_neg hbelow).trans (if_pos habove), .inl habove⟩
    · have hhalf : 2 * (n % d) = d := by omega
      by_cases heven : n / d % 2 = 0
      · exact .inl ⟨(if_neg hbelow).trans ((if_neg habove).trans (if_pos heven)),
          .inr ⟨hhalf, heven⟩⟩
      · exact .inr ⟨(if_neg hbelow).trans ((if_neg habove).trans (if_neg heven)),
          .inr ⟨hhalf, by omega⟩⟩

/-- An even integer is passed by the quotient iff it is passed by more than a half. -/
theorem halfEven_lt_iff (hd : 0 < d) {N : Nat} (hN : N % 2 = 0) :
    halfEven n d < N ↔ 2 * n + d < 2 * (N * d) := by
  have hn : n = n / d * d + n % d := (Nat.div_add_mod' n d).symm
  have hr : n % d < d := Nat.mod_lt n hd
  obtain hle | hnext | hge : n / d + 2 ≤ N ∨ n / d + 1 = N ∨ N ≤ n / d := by omega
  · have hmul : (n / d + 2) * d ≤ N * d := Nat.mul_le_mul_right d hle
    rw [Nat.add_mul] at hmul
    refine iff_of_true ?_ (by omega)
    obtain ⟨h, -⟩ | ⟨h, -⟩ := halfEven_cases n d <;> omega
  · -- `N` is the upper neighbour, which gets the tie
    have hmul : N * d = n / d * d + d := by rw [← hnext, Nat.add_mul, Nat.one_mul]
    obtain ⟨h, hrest⟩ | ⟨h, hrest⟩ := halfEven_cases n d <;> omega
  · have hmul : N * d ≤ n / d * d := Nat.mul_le_mul_right d hge
    refine iff_of_false ?_ (by omega)
    obtain ⟨h, -⟩ | ⟨h, -⟩ := halfEven_cases n d <;> omega

theorem lt_halfEven_iff (hd : 0 < d) {N : Nat} (hN : N % 2 = 0) :
    N < halfEven n d ↔ 2 * (N * d) + d < 2 * n := by
  have hn : n = n / d * d + n % d := (Nat.div_add_mod' n d).symm
  have hr : n % d < d := Nat.mod_lt n hd
  obtain hlt | heq | hgt : N + 1 ≤ n / d ∨ N = n / d ∨ n / d + 1 ≤ N := by omega
  · have hmul : (N + 1) * d ≤ n / d * d := Nat.mul_le_mul_right d hlt
    rw [Nat.add_mul, Nat.one_mul] at hmul
    refine iff_of_true ?_ (by omega)
    obtain ⟨h, -⟩ | ⟨h, -⟩ := halfEven_cases n d <;> omega
  · -- `N` is the lower neighbour, which gets the tie
    have hmul : N * d = n / d * d := by rw [heq]
    obtain ⟨h, hrest⟩ | ⟨h, hrest⟩ := halfEven_cases n d <;> omega
  · have hmul : (n / d + 1) * d ≤ N * d := Nat.mul_le_mul_right d hgt
    rw [Nat.add_mul, Nat.one_mul] at hmul
    refine iff_of_false ?_ (by omega)
    obtain ⟨h, -⟩ | ⟨h, -⟩ := halfEven_cases n d <;> omega

end HalfEven

/-! ### Numerals -/

/-- The number that a numeral stands for. -/
def Decimal.value (d : Decimal) : ℚ :=
  signed d.negative (d.scaled / 10 ^ d.fraction.length)

/-- Half a unit of the last of some decimal places. -/
def halfPlace (places : Nat) : ℚ :=
  1 / (2 * 10 ^ places)

theorem halfPlace_pos (places : Nat) : 0 < halfPlace places := by
  unfold halfPlace
  positivity

theorem halfPlace_lt_one (places : Nat) : halfPlace places < 1 := by
  have hpow : (1 : ℚ) ≤ 10 ^ places := one_le_pow₀ (by norm_num)
  unfold halfPlace
  rw [div_lt_one (by positivity)]
  linarith

/-! ### Quotients rounded to decimal places -/

/-- A quotient rounded to some decimal places. -/
def roundedQuotient (places m u : Nat) : ℚ :=
  (halfEven (m * 10 ^ places) u : ℚ) / 10 ^ places

section Quotients

variable {m u places : Nat}

theorem roundedQuotient_nonneg : 0 ≤ roundedQuotient places m u := by
  unfold roundedQuotient
  positivity

theorem even_scale (hplaces : 0 < places) (k : Nat) : k * 10 ^ places % 2 = 0 := by
  obtain ⟨p, rfl⟩ := Nat.exists_eq_succ_of_ne_zero (Nat.ne_of_gt hplaces)
  have htwo : k * 10 ^ (p + 1) = 2 * (k * 10 ^ p * 5) := by ring
  rw [htwo, Nat.mul_mod_right]

theorem roundedQuotient_lt_iff (hu : 0 < u) (hplaces : 0 < places) (z : ℤ) :
    roundedQuotient places m u < z ↔ (m : ℚ) / u < z - halfPlace places := by
  have hpow : (0 : ℚ) < 10 ^ places := by positivity
  have hu' : (0 : ℚ) < u := Nat.cast_pos.2 hu
  have hhalf := halfPlace_pos places
  by_cases hz : z ≤ 0
  · have hz' : (z : ℚ) ≤ 0 := by exact_mod_cast hz
    refine iff_of_false (not_lt.2 ?_) (not_lt.2 ?_)
    · exact hz'.trans roundedQuotient_nonneg
    · have hquotient : (0 : ℚ) ≤ m / u := by positivity
      linarith
  · obtain ⟨k, rfl⟩ := Int.eq_ofNat_of_zero_le (by omega : 0 ≤ z)
    have hnat := halfEven_lt_iff (n := m * 10 ^ places) hu (even_scale hplaces k)
    have hleft : roundedQuotient places m u < ((k : ℤ) : ℚ) ↔
        halfEven (m * 10 ^ places) u < k * 10 ^ places := by
      unfold roundedQuotient
      rw [div_lt_iff₀ hpow]
      exact_mod_cast Iff.rfl
    have hright : (m : ℚ) / u < ((k : ℤ) : ℚ) - halfPlace places ↔
        2 * (m * 10 ^ places) + u < 2 * (k * 10 ^ places * u) := by
      rw [← Nat.cast_lt (α := ℚ)]
      push_cast
      unfold halfPlace
      rw [lt_sub_iff_add_lt, div_add_div _ _ hu'.ne' (by positivity), div_lt_iff₀ (by positivity)]
      constructor <;> intro h <;> linarith
    rw [hleft, hright, hnat]

theorem lt_roundedQuotient_iff (hu : 0 < u) (hplaces : 0 < places) (z : ℤ) :
    z < roundedQuotient places m u ↔ z + halfPlace places < (m : ℚ) / u := by
  have hpow : (0 : ℚ) < 10 ^ places := by positivity
  have hu' : (0 : ℚ) < u := Nat.cast_pos.2 hu
  by_cases hz : z < 0
  · have hz' : (z : ℚ) ≤ -1 := by exact_mod_cast Int.le_sub_one_of_lt hz
    have hhalf := halfPlace_lt_one places
    refine iff_of_true ?_ ?_
    · have hrounded : 0 ≤ roundedQuotient places m u := roundedQuotient_nonneg
      linarith
    · have hquotient : (0 : ℚ) ≤ m / u := by positivity
      linarith
  · obtain ⟨k, rfl⟩ := Int.eq_ofNat_of_zero_le (by omega : 0 ≤ z)
    have hnat := lt_halfEven_iff (n := m * 10 ^ places) hu (even_scale hplaces k)
    have hleft : ((k : ℤ) : ℚ) < roundedQuotient places m u ↔
        k * 10 ^ places < halfEven (m * 10 ^ places) u := by
      unfold roundedQuotient
      rw [lt_div_iff₀ hpow]
      exact_mod_cast Iff.rfl
    have hright : ((k : ℤ) : ℚ) + halfPlace places < (m : ℚ) / u ↔
        2 * (k * 10 ^ places * u) + u < 2 * (m * 10 ^ places) := by
      rw [← Nat.cast_lt (α := ℚ)]
      push_cast
      have hsum : (k : ℚ) + halfPlace places =
          (2 * (k * 10 ^ places) + 1) / (2 * 10 ^ places) := by
        unfold halfPlace
        field_simp
      rw [hsum, div_lt_div_iff₀ (by positivity) hu']
      constructor <;> intro h <;> linarith
    rw [hleft, hright, hnat]

end Quotients

namespace Binary64

/-! ### Doubles rounded to decimal places -/

/-- The number that a finite double is written as with some decimal places. -/
def rounded (places : Nat) (x : Float) : ℚ :=
  (fixed places x).value

theorem rounded_eq (places : Nat) (x : Float) :
    rounded places x = signed (negative x) (roundedQuotient places (magnitude x) unitsPerOne) := by
  have hscaled : (fixed places x).scaled =
      halfEven (magnitude x * 10 ^ places) unitsPerOne :=
    Decimal.scaled_ofScaled _ _ _
  have hlength : (fixed places x).fraction.length = places := length_lastDigits _ _
  rw [rounded, Decimal.value, hscaled, hlength]
  rfl

variable {places : Nat} (hplaces : 0 < places) (x : Float)

include hplaces

/-- **A rounded double is below an integer** iff the double is more than half a place below it. -/
theorem rounded_lt_iff (z : ℤ) : rounded places x < z ↔ value x < z - halfPlace places := by
  rw [rounded_eq, value]
  cases negative x with
  | false => exact roundedQuotient_lt_iff unitsPerOne_pos hplaces z
  | true =>
    have hneg := lt_roundedQuotient_iff (m := magnitude x) unitsPerOne_pos hplaces (-z)
    push_cast at hneg
    rw [signed_true, signed_true, neg_lt, hneg]
    constructor <;> intro h <;> linarith

/-- **A rounded double is above an integer** iff the double is more than half a place above it. -/
theorem lt_rounded_iff (z : ℤ) : z < rounded places x ↔ z + halfPlace places < value x := by
  rw [rounded_eq, value]
  cases negative x with
  | false => exact lt_roundedQuotient_iff unitsPerOne_pos hplaces z
  | true =>
    have hneg := roundedQuotient_lt_iff (m := magnitude x) unitsPerOne_pos hplaces (-z)
    push_cast at hneg
    rw [signed_true, signed_true, lt_neg, hneg]
    constructor <;> intro h <;> linarith

/-- Integers are written exactly. -/
theorem rounded_of_integer {x : Float} {z : ℤ} (h : value x = z) : rounded places x = z := by
  have hhalf := halfPlace_pos places
  refine le_antisymm (not_lt.1 fun hlt => ?_) (not_lt.1 fun hlt => ?_)
  · have habove := (lt_rounded_iff hplaces x z).1 hlt
    linarith
  · have hbelow := (rounded_lt_iff hplaces x z).1 hlt
    linarith

/-- The greatest integer below stays the same iff the double is not half a place below the next. -/
theorem floor_rounded_iff :
    ⌊rounded places x⌋ = ⌊value x⌋ ↔ value x < ⌊value x⌋ + 1 - halfPlace places := by
  have hhalf := halfPlace_pos places
  have hfloor : (⌊value x⌋ : ℚ) ≤ rounded places x := by
    refine not_lt.1 fun hlt => ?_
    have hbelow := (rounded_lt_iff hplaces x ⌊value x⌋).1 hlt
    have hle := Int.floor_le (value x)
    linarith
  have hnext := rounded_lt_iff hplaces x (⌊value x⌋ + 1)
  push_cast at hnext
  rw [Int.floor_eq_iff, and_iff_right hfloor, hnext]

/-- The least integer above stays the same iff the double is not half a place above the last. -/
theorem ceil_rounded_iff :
    ⌈rounded places x⌉ = ⌈value x⌉ ↔ ⌈value x⌉ - 1 + halfPlace places < value x := by
  have hhalf := halfPlace_pos places
  have hceil : rounded places x ≤ ⌈value x⌉ := by
    refine not_lt.1 fun hlt => ?_
    have habove := (lt_rounded_iff hplaces x ⌈value x⌉).1 hlt
    have hle := Int.le_ceil (value x)
    linarith
  have hlast := lt_rounded_iff hplaces x (⌈value x⌉ - 1)
  push_cast at hlast
  rw [Int.ceil_eq_iff, and_iff_left hceil, hlast]

/-- Rounding does not change the sign. -/
theorem rounded_nonneg_of_pos {x : Float} (h : 0 < value x) : 0 ≤ rounded places x := by
  refine not_lt.1 fun hlt => ?_
  have hbelow := (rounded_lt_iff hplaces x 0).1 (by exact_mod_cast hlt)
  have hhalf := halfPlace_pos places
  push_cast at hbelow
  linarith

theorem rounded_nonpos_of_nonpos {x : Float} (h : value x ≤ 0) : rounded places x ≤ 0 := by
  refine not_lt.1 fun hlt => ?_
  have habove := (lt_rounded_iff hplaces x 0).1 (by exact_mod_cast hlt)
  have hhalf := halfPlace_pos places
  push_cast at habove
  linarith

end Binary64

end ComputeGraph
