import ComputeGraph.Binary64.Integral
import Mathlib

/-!
# The bits of a double

A double is its 64 bits, except that all NaNs are one. So the fields of a double that is made from
bits are those of the bits, and whether a double is above zero can be read off its fields.

* `toBits_ofBits` — bits that are not those of a NaN are kept;
* `assemble` — the number that a sign, an exponent and a fraction make up;
* `fields_ofBits` — the double of some fields has these fields;
* `unpack_of_isFinite` — what the arithmetic of doubles makes of the fields;
* **`zero_lt_iff`** — which doubles are above zero.
-/

namespace ComputeGraph.Binary64

open Float.Model

/-! ### Unpacking -/

theorem toNat_unpackExponent (b : UInt64) :
    (@UnpackedFloat.unpackExponent .binary64 b.toBitVec).toNat =
      b.toNat / Nat.pow 2 52 % Nat.pow 2 11 := by
  rw [UnpackedFloat.unpackExponent_def, BitVec.extractLsb'_toNat, Nat.shiftRight_eq_div_pow]
  rfl

theorem toNat_unpackMantissa (b : UInt64) :
    (@UnpackedFloat.unpackMantissa .binary64 b.toBitVec).toNat =
      b.toNat % Nat.pow 2 52 := by
  rw [UnpackedFloat.unpackMantissa_def, BitVec.extractLsb'_toNat, Nat.shiftRight_zero]
  rfl

theorem toNat_unpackSign (b : UInt64) :
    (@UnpackedFloat.unpackSign .binary64 b.toBitVec).toNat =
      b.toNat / Nat.pow 2 63 := by
  rw [UnpackedFloat.unpackSign_def, BitVec.extractLsb'_toNat, Nat.shiftRight_eq_div_pow]
  exact Nat.mod_eq_of_lt (Nat.div_lt_of_lt_mul b.toNat_lt)

/-- **Bits that are not those of a NaN** are kept. -/
theorem toBits_ofBits {b : UInt64} (h : b.toNat / Nat.pow 2 52 % Nat.pow 2 11 ≠ 2047) :
    (Float.ofBits b).toBits = b := by
  have hnan : @UnpackedFloat.isNaNBits .binary64 b.toBitVec = false := by
    refine decide_eq_false fun hnan => h ?_
    rw [← toNat_unpackExponent, hnan.1]
    rfl
  have hpack := @UnpackedFloat.pack_unpack .binary64 b.toBitVec (by decide)
  rw [hnan] at hpack
  exact UInt64.toBitVec_inj.1 hpack

/-! ### Putting bits together -/

/-- The number that a sign, an exponent and a fraction make up. -/
def assemble (negative : Bool) (exponent fraction : Nat) : Nat :=
  (if negative then Nat.pow 2 63 else 0) + (exponent * Nat.pow 2 52 + fraction)

section

variable {e f : Nat} (sign : Bool)

theorem assemble_lt (he : e < 2047) (hf : f < Nat.pow 2 52) :
    assemble sign e f < UInt64.size := by
  simp only [assemble, Nat.pow_eq, UInt64.size] at hf ⊢
  split <;> omega

theorem assemble_sign (he : e < 2047) (hf : f < Nat.pow 2 52) :
    decide (Nat.pow 2 63 ≤ assemble sign e f) = sign := by
  simp only [assemble, Nat.pow_eq] at hf ⊢
  cases sign
  · exact decide_eq_false (by simp; omega)
  · exact decide_eq_true (by simp)

theorem assemble_exponent (he : e < 2047) (hf : f < Nat.pow 2 52) :
    assemble sign e f / Nat.pow 2 52 % Nat.pow 2 11 = e := by
  simp only [assemble, Nat.pow_eq] at hf ⊢
  split <;> omega

theorem assemble_fraction (hf : f < Nat.pow 2 52) : assemble sign e f % Nat.pow 2 52 = f := by
  simp only [assemble, Nat.pow_eq] at hf ⊢
  split <;> omega

/-- The double of some fields has these fields. -/
theorem fields_ofBits (he : e < 2047) (hf : f < Nat.pow 2 52) {x : Float}
    (hx : x = Float.ofBits (UInt64.ofNat (assemble sign e f))) :
    negative x = sign ∧ exponent x = e ∧ fraction x = f := by
  have hnat : (UInt64.ofNat (assemble sign e f)).toNat = assemble sign e f :=
    UInt64.toNat_ofNat_of_lt (assemble_lt sign he hf)
  have hbits : x.toBits.toNat = assemble sign e f := by
    rw [hx, toBits_ofBits, hnat]
    rw [hnat, assemble_exponent sign he hf]
    exact Nat.ne_of_lt he
  refine ⟨?_, ?_, ?_⟩
  · rw [negative, hbits, assemble_sign sign he hf]
  · rw [exponent, hbits, assemble_exponent sign he hf]
  · rw [fraction, hbits, assemble_fraction sign hf]

end

/-! ### The sign of a double -/

theorem zero_lt_iff_compare {x : Float} :
    0 < x ↔ UnpackedFloat.compare (.zero .positive) x.toModel.unpack = some .lt := by
  show decide ((0 : Float).toModel < x.toModel) = true ↔ _
  rw [decide_eq_true_iff]
  show (UnpackedFloat.compare (.zero .positive) x.toModel.unpack == some .lt) = true ↔ _
  rw [beq_iff_eq]

/-- The sign of a double as unpacking gives it. -/
def unpackedSign (x : Float) : UnpackedFloat.Sign :=
  .ofBitVec (@UnpackedFloat.unpackSign .binary64 x.toBits.toBitVec)

theorem unpackedSign_eq_positive {x : Float} : unpackedSign x = .positive ↔ negative x = false := by
  have hzero : @UnpackedFloat.unpackSign .binary64 x.toBits.toBitVec = 0#1 ↔
      negative x = false := by
    rw [← BitVec.toNat_inj, toNat_unpackSign, negative, decide_eq_false_iff_not, Nat.not_le]
    exact Nat.div_eq_zero_iff_lt (by decide)
  rw [← hzero]
  unfold unpackedSign UnpackedFloat.Sign.ofBitVec
  split
  · rename_i h
    exact iff_of_true rfl h
  · rename_i h
    exact iff_of_false (fun heq => nomatch heq) h

/-- A finite double is unpacked to a zero or to a mantissa other than zero. -/
theorem unpack_of_isFinite {x : Float} (h : isFinite x = true) :
    (∃ sign, x.toModel.unpack = .zero sign ∧ magnitude x = 0) ∨
      ∃ m e hm, x.toModel.unpack = .finite (unpackedSign x) m e hm ∧ magnitude x ≠ 0 := by
  have hpow : Nat.pow 2 (spacing x) ≠ 0 := Nat.ne_of_gt (Nat.two_pow_pos _)
  have hexponent := toNat_unpackExponent x.toBits
  have hfraction := toNat_unpackMantissa x.toBits
  show (∃ sign, UnpackedFloat.unpack Format.binary64 x.toBits.toBitVec = .zero sign ∧ _) ∨
    ∃ m e hm, UnpackedFloat.unpack Format.binary64 x.toBits.toBitVec = .finite _ m e hm ∧ _
  unfold UnpackedFloat.unpack
  extract_lets mantissaBits exponentBits e signBits sign
  have hall : exponentBits ≠ -1#_ := by
    intro hall
    rw [show UnpackedFloat.unpackExponent _ = -1#_ from hall] at hexponent
    exact bne_iff_ne.1 h hexponent.symm
  rw [if_neg hall]
  by_cases hzero : exponent x = 0
  · have hbits : exponentBits = 0#_ := BitVec.toNat_inj.1 (hexponent.trans hzero)
    rw [if_pos hbits]
    by_cases hnone : fraction x = 0
    · have hbits : mantissaBits = 0#_ := BitVec.toNat_inj.1 (hfraction.trans hnone)
      rw [dif_pos hbits]
      refine .inl ⟨sign, rfl, ?_⟩
      rw [magnitude, significand, if_pos hzero, hnone, Nat.zero_mul]
    · have hbits : mantissaBits ≠ 0#_ := fun heq =>
        hnone (hfraction.symm.trans (BitVec.toNat_inj.2 heq))
      have hpos : 0 < mantissaBits.toNat :=
        Nat.pos_of_ne_zero fun heq => hbits (BitVec.toNat_inj.1 heq)
      rw [dif_neg hbits]
      refine .inr ⟨_, _, hpos, rfl, ?_⟩
      rw [magnitude, significand, if_pos hzero]
      exact Nat.mul_ne_zero hnone hpow
  · have hbits : exponentBits ≠ 0#_ := fun heq =>
      hzero (hexponent.symm.trans (BitVec.toNat_inj.2 heq))
    have hpos : 0 < (1#1 ++ mantissaBits).toNat := by
      rw [BitVec.toNat_append]
      exact Nat.lt_of_lt_of_le (by decide) Nat.left_le_or
    rw [if_neg hbits]
    refine .inr ⟨_, _, hpos, rfl, ?_⟩
    rw [magnitude, significand, if_neg hzero]
    exact Nat.mul_ne_zero (Nat.ne_of_gt (Nat.add_pos_left (by decide) _)) hpow

/-- **A finite double is above zero** iff it has no sign and is not zero. -/
theorem zero_lt_iff {x : Float} (h : isFinite x = true) :
    0 < x ↔ negative x = false ∧ magnitude x ≠ 0 := by
  rw [zero_lt_iff_compare, ← unpackedSign_eq_positive]
  obtain ⟨sign, hunpack, hmagnitude⟩ | ⟨m, e, hm, hunpack, hmagnitude⟩ := unpack_of_isFinite h
  · rw [hunpack]
    exact iff_of_false (fun heq => nomatch heq) fun hpos => hpos.2 hmagnitude
  · rw [hunpack, and_iff_left hmagnitude]
    cases unpackedSign x with
    | positive => exact iff_of_true rfl rfl
    | negative => exact iff_of_false (fun heq => nomatch heq) fun heq => nomatch heq

end ComputeGraph.Binary64
