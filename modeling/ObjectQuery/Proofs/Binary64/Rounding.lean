import ObjectQuery.Binary64.Rounding
import ObjectQuery.Proofs.Text.Digits
/-!
# Rounding exact values

A quotient is rounded by its value alone, so a common factor of numerator and denominator does not
matter, and neither do zeros behind the digits of a decimal. The exact value of a number is rounded
to the number.
-/

namespace ObjectQuery

theorem roundQuotient_mul {factor : Nat} (hfactor : 0 < factor) (num den : Nat) :
    roundQuotient (factor * num) (factor * den) = roundQuotient num den := by
  have htwice : 2 * (factor * (num % den)) = factor * (2 * (num % den)) := by
    rw [Nat.mul_left_comm]
  simp only [roundQuotient, Nat.mul_div_mul_left _ _ hfactor, Nat.mul_mod_mul_left, htwice,
    Nat.mul_lt_mul_left hfactor]

theorem roundQuotient_of_mul {whole den : Nat} (hden : 0 < den) :
    roundQuotient (whole * den) den = whole := by
  simp [roundQuotient, Nat.mul_div_cancel _ hden, hden]

namespace Binary64

theorem ofQuotient_mul {factor : Nat} (hfactor : 0 < factor) (negative : Bool) (num den : Nat) :
    ofQuotient negative (factor * num) (factor * den) = ofQuotient negative num den := by
  simp only [ofQuotient, Nat.mul_div_mul_left _ _ hfactor, Nat.mul_assoc,
    roundQuotient_mul hfactor]

namespace Finite

theorem log2_magnitude {x : Finite} (h : 2 ^ 52 ≤ x.significand) :
    x.magnitude.log2 = 52 + x.exponent := by
  have hpos : 0 < 2 ^ x.exponent := Nat.two_pow_pos _
  have hlower : 2 ^ (52 + x.exponent) ≤ x.magnitude := by
    rw [Nat.pow_add, magnitude]
    exact Nat.mul_le_mul_right _ h
  have hupper : x.magnitude < 2 ^ (52 + x.exponent + 1) := by
    rw [Nat.add_right_comm, Nat.pow_add, magnitude]
    exact Nat.mul_lt_mul_of_pos_right x.significand_lt hpos
  have hne : x.magnitude ≠ 0 := by
    have hpower : 0 < 2 ^ (52 + x.exponent) := Nat.two_pow_pos _
    omega
  exact (Nat.log2_eq_iff hne).2 ⟨hlower, hupper⟩

theorem exponentFor_magnitude (x : Finite) : exponentFor x.magnitude = x.exponent := by
  by_cases hnormal : 2 ^ 52 ≤ x.significand
  · rw [exponentFor, log2_magnitude hnormal]
    omega
  · have hzero : x.exponent = 0 := x.normalized.resolve_right hnormal
    have hmagnitude : x.magnitude = x.significand := by
      rw [magnitude, hzero, Nat.pow_zero, Nat.mul_one]
    have hlog : x.significand.log2 ≤ 52 := by
      by_cases hsignificand : x.significand = 0
      · rw [hsignificand]
        decide
      · exact Nat.le_of_lt_succ ((Nat.log2_lt hsignificand).2 x.significand_lt)
    rw [exponentFor, hmagnitude, hzero]
    omega

/-- The exact value of a number is rounded to the number. -/
theorem ofQuotient_magnitude (x : Finite) : ofQuotient x.negative x.magnitude 1 = .finite x := by
  have hround : roundQuotient x.magnitude (1 * 2 ^ x.exponent) = x.significand := by
    rw [Nat.one_mul, magnitude, roundQuotient_of_mul (Nat.two_pow_pos _)]
  have hne : x.significand ≠ 2 ^ 53 := Nat.ne_of_lt x.significand_lt
  simp only [ofQuotient, Nat.div_one, exponentFor_magnitude, hround, hne, if_false, ofParts]
  rw [dif_pos ⟨x.significand_lt, x.exponent_le, x.normalized⟩]

theorem ofQuotient_mul_pow (x : Finite) (power : Nat) :
    ofQuotient x.negative (x.magnitude * 5 ^ power * 2 ^ power) (10 ^ power) = .finite x := by
  have hpos : 0 < 10 ^ power := Nat.pow_pos (by decide)
  have hnum : x.magnitude * 5 ^ power * 2 ^ power = 10 ^ power * x.magnitude := by
    rw [Nat.mul_assoc, ← Nat.mul_pow, Nat.mul_comm]
  have hscaled := ofQuotient_mul hpos x.negative x.magnitude 1
  rw [Nat.mul_one] at hscaled
  rw [hnum, hscaled, ofQuotient_magnitude]

end Finite

/-! ## Decimals -/

theorem ofDecimal_zero (negative : Bool) {n : Nat} (h : (Nat.toDigits 10 n).length < 310) :
    ofDecimal negative n 0 = ofNat negative n := by
  by_cases hzero : n = 0
  · subst hzero
    cases negative <;> decide +kernel
  · have htop : ¬ 310 ≤ ((Nat.toDigits 10 n).length : Int) + 0 := by omega
    have hbottom : ¬ ((Nat.toDigits 10 n).length : Int) + 0 ≤ -330 := by omega
    rw [ofDecimal, if_neg hzero]
    simp only [if_neg htop, if_neg hbottom, Int.le_refl, if_true, Int.toNat_zero, Nat.pow_zero,
      Nat.mul_one]

theorem length_digitsOf_mul_ten {digits : Nat} (h : digits ≠ 0) :
    (Nat.toDigits 10 (digits * 10)).length = (Nat.toDigits 10 digits).length + 1 := by
  have hsplit := Decimal.digitsOf_of_le (n := digits * 10) (by omega)
  rw [Nat.mul_div_cancel _ (by omega)] at hsplit
  exact (congrArg List.length hsplit).trans (List.length_append ..)

theorem ofQuotient_mul_ten (negative : Bool) (digits scale power : Nat) :
    ofQuotient negative (digits * 10 * scale) (10 ^ (power + 1)) =
      ofQuotient negative (digits * scale) (10 ^ power) := by
  have hnum : digits * 10 * scale = 10 * (digits * scale) := by
    rw [Nat.mul_comm digits 10, Nat.mul_assoc]
  rw [hnum, Nat.pow_succ', ofQuotient_mul (by omega)]

theorem ofDecimal_mul_ten (negative : Bool) (digits : Nat) (exponent : Int) :
    ofDecimal negative (digits * 10) exponent = ofDecimal negative digits (exponent + 1) := by
  by_cases hzero : digits = 0
  · simp [ofDecimal, hzero]
  have hten : digits * 10 ≠ 0 := by omega
  have htop : ((Nat.toDigits 10 (digits * 10)).length : Int) + exponent =
      (Nat.toDigits 10 digits).length + (exponent + 1) := by
    rw [length_digitsOf_mul_ten hzero]
    omega
  simp only [ofDecimal, hzero, hten, if_false, htop]
  congr 2
  by_cases hexponent : 0 ≤ exponent
  · have hpower : (exponent + 1).toNat = exponent.toNat + 1 := by omega
    rw [if_pos hexponent, if_pos (by omega), hpower, Nat.pow_succ]
    congr 1
    rw [Nat.mul_assoc, Nat.mul_comm 10]
  · obtain ⟨power, hpower⟩ : ∃ power, (-exponent).toNat = power + 1 :=
      ⟨(-exponent).toNat - 1, by omega⟩
    rw [if_neg hexponent, hpower, ofQuotient_mul_ten]
    by_cases hnext : 0 ≤ exponent + 1
    · have hlast : (exponent + 1).toNat = 0 := by omega
      have hnone : power = 0 := by omega
      rw [if_pos hnext, hlast, hnone, Nat.pow_zero, Nat.mul_one, ofNat]
    · have hrest : (-(exponent + 1)).toNat = power := by omega
      rw [if_neg hnext, hrest]

theorem ofDecimal_mul_pow (negative : Bool) (digits count : Nat) (exponent : Int) :
    ofDecimal negative (digits * 10 ^ count) exponent =
      ofDecimal negative digits (exponent + count) := by
  induction count generalizing exponent with
  | zero => simp
  | succ count ih =>
      have hexponent : exponent + (count + 1 : Nat) = exponent + 1 + count := by omega
      rw [Nat.pow_succ, ← Nat.mul_assoc, ofDecimal_mul_ten, ih, hexponent]

end Binary64

end ObjectQuery
