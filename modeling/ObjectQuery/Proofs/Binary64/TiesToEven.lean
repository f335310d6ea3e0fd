import ObjectQuery.Proofs.Binary64.Nearest
import ObjectQuery.Proofs.Scalar
/-!
# Ties to even

Of the nearest numbers rounding takes one with an even significand. Between two numbers with even
significands lies another one, so this settles the value of the number (`NearestEven.units_eq`), and
integers are rounded to equal numbers just if one number is such a nearest one to both
(`equal_ofInt_iff`).
-/

namespace ObjectQuery

theorem roundQuotient_even_of_tie {num den whole : Nat} (hden : 0 < den)
    (htie : ((whole * den : Nat) - num : Int).natAbs =
      ((roundQuotient num den * den : Nat) - num : Int).natAbs)
    (hne : whole * den ≠ roundQuotient num den * den) : roundQuotient num den % 2 = 0 := by
  have hnum : num / den * den + num % den = num := Nat.div_add_mod' num den
  have hrest : num % den < den := Nat.mod_lt num hden
  have hwhole := multiple_cases (num / den) whole den
  simp only [roundQuotient] at htie hne ⊢
  split
  · rename_i hbelow
    rw [if_pos hbelow] at htie hne
    omega
  · rename_i hbelow
    split
    · rename_i habove
      rw [if_neg hbelow, if_pos habove, Nat.succ_mul] at htie hne
      omega
    · omega

namespace Binary64

namespace Finite

variable {x y : Finite} {value : Int}

/-- A nearest number, with an even significand if a number of another value is as near. -/
structure NearestEven (x : Finite) (value : Int) : Prop where
  nearest : x.Nearest value
  even_of_tie : ∀ y : Finite, (y.units - value).natAbs = (x.units - value).natAbs →
    y.units ≠ x.units → x.significand % 2 = 0

/-! ## One nearest number -/

theorem units_of_nonneg (h : 0 ≤ x.units) : x.units = x.magnitude := by
  simp only [units] at h ⊢
  split
  · rename_i hnegative
    rw [if_pos hnegative] at h
    omega
  · rfl

theorem units_of_nonpos (h : x.units ≤ 0) : x.units = -x.magnitude := by
  simp only [units] at h ⊢
  split
  · rfl
  · rename_i hnegative
    rw [if_neg hnegative] at h
    omega

theorem exists_next (x : Finite) (h : x.significand % 2 = 0) (negative : Bool) :
    ∃ z : Finite, z.negative = negative ∧ z.significand = x.significand + 1 ∧
      z.magnitude = x.magnitude + 2 ^ x.exponent := by
  have hlt := x.significand_lt
  refine ⟨⟨negative, x.significand + 1, x.exponent, by omega, x.exponent_le,
    x.normalized.imp_right fun hle => Nat.le_succ_of_le hle⟩, rfl, rfl, ?_⟩
  exact Nat.succ_mul x.significand (2 ^ x.exponent)

theorem magnitude_add_le (h : x.magnitude < y.magnitude) :
    x.magnitude + 2 ^ x.exponent ≤ y.magnitude := by
  rcases y.magnitude_cases x.exponent with ⟨whole, hwhole⟩ | ⟨hne, hlt⟩
  · rw [magnitude, hwhole] at h
    have hstep : x.significand < whole := Nat.lt_of_mul_lt_mul_right h
    rw [hwhole, magnitude, ← Nat.succ_mul]
    exact Nat.mul_le_mul_right _ hstep
  · have hnormal := x.normalized.resolve_left hne
    have hle : 2 ^ 52 * 2 ^ x.exponent ≤ x.magnitude := Nat.mul_le_mul_right _ hnormal
    omega

theorem exists_magnitude_between (hx : x.significand % 2 = 0) (hy : y.significand % 2 = 0)
    (hlt : x.magnitude < y.magnitude) (negative : Bool) :
    ∃ z : Finite, z.negative = negative ∧ x.magnitude < z.magnitude ∧
      z.magnitude < y.magnitude := by
  obtain ⟨z, hnegative, -, hmagnitude⟩ := x.exists_next hx negative
  obtain ⟨next, hsign, hsignificand, hnext⟩ := x.exists_next hx y.negative
  have hle := magnitude_add_le hlt
  have hne : next.magnitude ≠ y.magnitude := by
    intro heq
    rw [eq_of_magnitude_eq hsign heq] at hsignificand
    omega
  have hstep := Nat.two_pow_pos x.exponent
  exact ⟨z, hnegative, by omega, by omega⟩

theorem exists_units_between (hx : x.significand % 2 = 0) (hy : y.significand % 2 = 0)
    (hlt : x.units < y.units) : ∃ z : Finite, x.units < z.units ∧ z.units < y.units := by
  by_cases hpositive : 0 ≤ x.units
  · have hxunits := units_of_nonneg hpositive
    have hyunits := units_of_nonneg (Int.le_trans hpositive (Int.le_of_lt hlt))
    obtain ⟨z, hnegative, hlower, hupper⟩ :=
      exists_magnitude_between hx hy (by omega) false
    have hzunits : z.units = z.magnitude := by
      rw [units, hnegative]
      rfl
    exact ⟨z, by omega, by omega⟩
  · by_cases hnonpositive : y.units ≤ 0
    · have hxunits := units_of_nonpos (Int.le_of_not_le hpositive)
      have hyunits := units_of_nonpos hnonpositive
      obtain ⟨z, hnegative, hlower, hupper⟩ :=
        exists_magnitude_between hy hx (by omega) true
      have hzunits : z.units = -z.magnitude := by
        rw [units, hnegative]
        rfl
      exact ⟨z, by omega, by omega⟩
    · have hzero := units_zero false
      exact ⟨zero false, by omega, by omega⟩

theorem NearestEven.units_le (hx : x.NearestEven value) (hy : y.NearestEven value) :
    y.units ≤ x.units := by
  refine Int.not_lt.1 fun hlt => ?_
  have hxnear := hx.nearest y
  have hynear := hy.nearest x
  have hxeven := hx.even_of_tie y (by omega) (Int.ne_of_gt hlt)
  have hyeven := hy.even_of_tie x (by omega) (Int.ne_of_lt hlt)
  obtain ⟨z, hlower, hupper⟩ := exists_units_between hxeven hyeven hlt
  have hznear := hx.nearest z
  omega

/-- The value of a nearest number with an even significand at ties is settled. -/
theorem NearestEven.units_eq (hx : x.NearestEven value) (hy : y.NearestEven value) :
    x.units = y.units :=
  Int.le_antisymm (hy.units_le hx) (hx.units_le hy)

theorem NearestEven.of_units_eq (hy : y.NearestEven value) (h : x.units = y.units) :
    x.NearestEven value := by
  have hnearest : x.Nearest value := by
    intro z
    rw [h]
    exact hy.nearest z
  refine ⟨hnearest, fun z htie hne => ?_⟩
  rcases eq_or_zeros_of_units_eq h with rfl | ⟨negative, rfl, -⟩
  · exact hy.even_of_tie z htie hne
  · rfl

/-! ## Rounding integers -/

theorem even_of_magnitude_tie {num : Nat}
    (hmagnitude : x.magnitude = roundQuotient num (2 ^ exponentFor num) * 2 ^ exponentFor num)
    (heven : roundQuotient num (2 ^ exponentFor num) % 2 = 0 → x.significand % 2 = 0)
    (htie : ((y.magnitude : Int) - num).natAbs = ((x.magnitude : Int) - num).natAbs)
    (hne : y.magnitude ≠ x.magnitude) : x.significand % 2 = 0 := by
  have hpos := Nat.two_pow_pos (exponentFor num)
  rcases y.magnitude_cases (exponentFor num) with ⟨whole, hwhole⟩ | ⟨hexponent, hlt⟩
  · rw [hwhole, hmagnitude] at htie hne
    exact heven (roundQuotient_even_of_tie hpos htie hne)
  · -- The number lies below the least significand at this exponent, which is nearer.
    have hfloor := natAbs_roundQuotient_le num hpos (2 ^ 52)
    rw [← hmagnitude] at hfloor
    have hle := le_of_exponentFor hexponent
    omega

theorem nearestEven_of_magnitude {num : Nat}
    (hnearest : ∀ y : Finite,
      ((x.magnitude : Int) - num).natAbs ≤ ((y.magnitude : Int) - num).natAbs)
    (heven : ∀ y : Finite, ((y.magnitude : Int) - num).natAbs = ((x.magnitude : Int) - num).natAbs →
      y.magnitude ≠ x.magnitude → x.significand % 2 = 0) :
    x.NearestEven (if x.negative then -num else num) := by
  refine ⟨nearest_of_magnitude hnearest, fun y htie hne => ?_⟩
  have hle := hnearest y
  -- for the value zero, where the sign of the other number is free
  have hzero := hnearest (.zero false)
  have hnone : (zero false).magnitude = 0 := rfl
  rw [hnone] at hzero
  simp only [units] at htie hne
  cases hx : x.negative <;> cases hy : y.negative <;>
    simp only [hx, hy, if_true, if_false, Bool.false_eq_true] at htie hne <;>
    exact heven y (by omega) (by omega)

end Finite

theorem exists_ofInt_nearestEven {i : Int} (h : i.natAbs < 2 ^ 64) :
    ∃ x, ofInt i = .finite x ∧ x.NearestEven (unitsOf i) := by
  obtain ⟨x, hround, hnegative, hmagnitude, heven⟩ :=
    exists_ofQuotient_one (i < 0) (exponentFor_units_lt h)
  have hnearest := Finite.nearestEven_of_magnitude (Finite.natAbs_magnitude_le hmagnitude)
    fun y htie hne => Finite.even_of_magnitude_tie hmagnitude heven htie hne
  simp only [hnegative, decide_eq_true_eq] at hnearest
  exact ⟨x, hround, unitsOf_eq i ▸ hnearest⟩

/-- Integers of 64 bits are rounded to equal numbers just if one number is the nearest one to both,
ties to even. -/
theorem equal_ofInt_iff {n m : Int} (hn : n.natAbs < 2 ^ 64) (hm : m.natAbs < 2 ^ 64) :
    (ofInt n).equal (ofInt m) = true ↔
      ∃ x : Finite, x.NearestEven (unitsOf n) ∧ x.NearestEven (unitsOf m) := by
  obtain ⟨x, hxround, hx⟩ := exists_ofInt_nearestEven hn
  obtain ⟨y, hyround, hy⟩ := exists_ofInt_nearestEven hm
  have hequal : (ofInt n).equal (ofInt m) = true ↔ x.units = y.units := by
    rw [hxround, hyround]
    simp [equal, compare?, Finite.compare]
  rw [hequal]
  constructor
  · exact fun hunits => ⟨x, hx, hy.of_units_eq hunits⟩
  · rintro ⟨z, hzn, hzm⟩
    exact (hx.units_eq hzn).trans (hzm.units_eq hy)

end Binary64

end ObjectQuery
