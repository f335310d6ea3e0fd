import ObjectQuery.Proofs.Binary64.Rounding
/-!
# Nearest numbers

Rounding gives a number that is nearest to the exact value (`exists_ofInt_nearest`). The numbers
that a power of two divides lie no closer to each other than that power, and all other numbers lie
below those that are rounded to it, so it is enough to look at the nearest multiple of one power of
two.
-/

namespace ObjectQuery

/-! ## Nearest integers -/

theorem roundQuotient_cases (num den : Nat) :
    (roundQuotient num den = num / den ∧ 2 * (num % den) ≤ den) ∨
      (roundQuotient num den = num / den + 1 ∧ den ≤ 2 * (num % den)) := by
  simp only [roundQuotient]
  split
  · exact Or.inl ⟨rfl, by omega⟩
  · split
    · exact Or.inr ⟨rfl, by omega⟩
    · rcases Nat.mod_two_eq_zero_or_one (num / den) with heven | hodd
      · exact Or.inl ⟨by omega, by omega⟩
      · exact Or.inr ⟨by omega, by omega⟩

theorem roundQuotient_bounds (num den : Nat) :
    num / den ≤ roundQuotient num den ∧ roundQuotient num den ≤ num / den + 1 := by
  rcases roundQuotient_cases num den with ⟨hround, -⟩ | ⟨hround, -⟩ <;> omega

theorem multiple_cases (quotient whole den : Nat) :
    whole * den + den ≤ quotient * den ∨ whole * den = quotient * den ∨
      whole * den = quotient * den + den ∨ quotient * den + 2 * den ≤ whole * den := by
  rcases Nat.lt_trichotomy whole quotient with hlt | rfl | hlt
  · have hle := Nat.mul_le_mul_right den hlt
    rw [Nat.succ_mul] at hle
    exact Or.inl hle
  · exact Or.inr (Or.inl rfl)
  · rcases Nat.eq_or_lt_of_le hlt with rfl | hnext
    · exact Or.inr (Or.inr (Or.inl (Nat.succ_mul quotient den)))
    · have hle := Nat.mul_le_mul_right den hnext
      rw [Nat.succ_mul, Nat.succ_mul] at hle
      exact Or.inr (Or.inr (Or.inr (by omega)))

/-- No multiple of the denominator is nearer to the numerator than that by the rounded quotient. -/
theorem natAbs_roundQuotient_le (num : Nat) {den : Nat} (hden : 0 < den) (whole : Nat) :
    ((roundQuotient num den * den : Nat) - num : Int).natAbs ≤
      ((whole * den : Nat) - num : Int).natAbs := by
  have hnum : num / den * den + num % den = num := Nat.div_add_mod' num den
  have hrest : num % den < den := Nat.mod_lt num hden
  have hwhole := multiple_cases (num / den) whole den
  rcases roundQuotient_cases num den with ⟨hround, hhalf⟩ | ⟨hround, hhalf⟩
  · rw [hround]
    omega
  · rw [hround, Nat.succ_mul]
    omega

theorem roundQuotient_mul_of_dvd {num den : Nat} (hden : 0 < den) (h : den ∣ num) :
    roundQuotient num den * den = num := by
  obtain ⟨whole, rfl⟩ := h
  rw [Nat.mul_comm den, roundQuotient_of_mul hden]

namespace Binary64

theorem lt_of_exponentFor (whole : Nat) : whole < 2 ^ 53 * 2 ^ exponentFor whole := by
  have hlog : whole < 2 ^ (whole.log2 + 1) := Nat.lt_log2_self
  have hexponent : whole.log2 + 1 ≤ 53 + exponentFor whole := by
    simp only [exponentFor]
    omega
  rw [← Nat.pow_add]
  exact Nat.lt_of_lt_of_le hlog (Nat.pow_le_pow_right (by decide) hexponent)

theorem le_of_exponentFor {whole : Nat} (h : exponentFor whole ≠ 0) :
    2 ^ 52 * 2 ^ exponentFor whole ≤ whole := by
  have hne : whole ≠ 0 := by
    rintro rfl
    exact h rfl
  have hexponent : 52 + exponentFor whole = whole.log2 := by
    simp only [exponentFor] at h ⊢
    omega
  rw [← Nat.pow_add, hexponent]
  exact Nat.log2_self_le hne

theorem ofParts_of_valid {significand exponent : Nat} (negative : Bool)
    (hsignificand : significand < 2 ^ 53) (hexponent : exponent ≤ 2045)
    (hnormal : exponent = 0 ∨ 2 ^ 52 ≤ significand) :
    ofParts negative significand exponent =
      .finite ⟨negative, significand, exponent, hsignificand, hexponent, hnormal⟩ := by
  rw [ofParts, dif_pos ⟨hsignificand, hexponent, hnormal⟩]

/-- A whole number of units that does not overflow is rounded to a multiple of a power of two. An
even multiple has an even significand, also where it moves to the next exponent. -/
theorem exists_ofQuotient_one (negative : Bool) {num : Nat} (h : exponentFor num < 2045) :
    ∃ x, ofQuotient negative num 1 = .finite x ∧ x.negative = negative ∧
      x.magnitude = roundQuotient num (2 ^ exponentFor num) * 2 ^ exponentFor num ∧
      (roundQuotient num (2 ^ exponentFor num) % 2 = 0 → x.significand % 2 = 0) := by
  have hpos : 0 < 2 ^ exponentFor num := Nat.two_pow_pos _
  have hupper : num / 2 ^ exponentFor num < 2 ^ 53 :=
    (Nat.div_lt_iff_lt_mul hpos).2 (lt_of_exponentFor num)
  have hlower : exponentFor num = 0 ∨ 2 ^ 52 ≤ num / 2 ^ exponentFor num := by
    by_cases hzero : exponentFor num = 0
    · exact Or.inl hzero
    · exact Or.inr ((Nat.le_div_iff_mul_le hpos).2 (le_of_exponentFor hzero))
  obtain ⟨hfloor, hceiling⟩ := roundQuotient_bounds num (2 ^ exponentFor num)
  simp only [ofQuotient, Nat.div_one, Nat.one_mul]
  split
  · rename_i hcarry
    refine ⟨_, ofParts_of_valid negative (by decide) (by omega) (Or.inr (Nat.le_refl _)), rfl, ?_,
      fun _ => (by decide : 2 ^ 52 % 2 = 0)⟩
    show 2 ^ 52 * 2 ^ (exponentFor num + 1) = _
    rw [hcarry, Nat.pow_succ]
    omega
  · rename_i hne
    have hlt : roundQuotient num (2 ^ exponentFor num) < 2 ^ 53 :=
      Nat.lt_of_le_of_ne (Nat.le_trans hceiling hupper) hne
    refine ⟨_, ofParts_of_valid negative hlt (by omega) ?_, rfl, rfl, id⟩
    exact hlower.imp_right fun hle => Nat.le_trans hle hfloor

namespace Finite

theorem magnitude_cases (x : Finite) (power : Nat) :
    (∃ whole, x.magnitude = whole * 2 ^ power) ∨
      (power ≠ 0 ∧ x.magnitude < 2 ^ 52 * 2 ^ power) := by
  rcases Nat.lt_or_ge x.exponent power with hlt | hle
  · refine Or.inr ⟨by omega, ?_⟩
    calc
      x.magnitude < 2 ^ 53 * 2 ^ x.exponent :=
        Nat.mul_lt_mul_of_pos_right x.significand_lt (Nat.two_pow_pos _)
      _ = 2 ^ 52 * 2 ^ (x.exponent + 1) := by
        rw [Nat.pow_succ]
        omega
      _ ≤ 2 ^ 52 * 2 ^ power := Nat.mul_le_mul_left _ (Nat.pow_le_pow_right (by decide) hlt)
  · refine Or.inl ⟨x.significand * 2 ^ (x.exponent - power), ?_⟩
    rw [Nat.mul_assoc, ← Nat.pow_add, Nat.sub_add_cancel hle, magnitude]

/-- No number is nearer to a value in units. -/
def Nearest (x : Finite) (value : Int) : Prop :=
  ∀ y : Finite, (x.units - value).natAbs ≤ (y.units - value).natAbs

theorem natAbs_magnitude_le {num : Nat} {x : Finite}
    (h : x.magnitude = roundQuotient num (2 ^ exponentFor num) * 2 ^ exponentFor num) (y : Finite) :
    ((x.magnitude : Int) - num).natAbs ≤ ((y.magnitude : Int) - num).natAbs := by
  have hnearest := natAbs_roundQuotient_le num (Nat.two_pow_pos (exponentFor num))
  rw [h]
  rcases y.magnitude_cases (exponentFor num) with ⟨whole, hwhole⟩ | ⟨hne, hlt⟩
  · rw [hwhole]
    exact hnearest whole
  · -- The number lies below the least significand at this exponent, and that below the value.
    have hfloor := hnearest (2 ^ 52)
    have hle := le_of_exponentFor hne
    omega

theorem nearest_of_magnitude {num : Nat} {x : Finite}
    (h : ∀ y : Finite, ((x.magnitude : Int) - num).natAbs ≤ ((y.magnitude : Int) - num).natAbs) :
    x.Nearest (if x.negative then -num else num) := by
  intro y
  have hle := h y
  simp only [units]
  cases x.negative <;> cases y.negative <;> simp only [if_true, if_false, Bool.false_eq_true] <;>
    omega

end Finite

theorem exponentFor_le {num power : Nat} (h : num < 2 ^ power) : exponentFor num ≤ power - 53 := by
  by_cases hzero : num = 0
  · rw [hzero]
    exact Nat.zero_le _
  · have hlog := (Nat.log2_lt hzero).2 h
    simp only [exponentFor]
    omega

/-- An integer in units of `2 ^ (-1074)`. -/
def unitsOf (i : Int) : Int :=
  i * (2 ^ 1074 : Nat)

theorem unitsOf_eq (i : Int) :
    unitsOf i =
      if i < 0 then -((i.natAbs * 2 ^ 1074 : Nat) : Int) else (i.natAbs * 2 ^ 1074 : Nat) := by
  rw [unitsOf, Int.natCast_mul]
  split
  · rw [← Int.neg_mul]
    congr 1
    omega
  · congr 1
    omega

theorem exponentFor_mul_pow_le {n power : Nat} (scale : Nat) (h : n < 2 ^ power) :
    exponentFor (n * 2 ^ scale) ≤ power + scale - 53 := by
  have hlt : n * 2 ^ scale < 2 ^ (power + scale) := by
    rw [Nat.pow_add]
    exact Nat.mul_lt_mul_of_pos_right h (Nat.two_pow_pos scale)
  exact exponentFor_le hlt

theorem pow_exponentFor_dvd {n : Nat} (h : n ≤ 2 ^ 53) (scale : Nat) :
    2 ^ exponentFor (n * 2 ^ scale) ∣ n * 2 ^ scale := by
  rcases Nat.lt_or_eq_of_le h with hlt | rfl
  · have hexponent := exponentFor_mul_pow_le scale hlt
    exact Nat.dvd_mul_left_of_dvd (Nat.pow_dvd_pow 2 (by omega)) n
  · have hexponent : exponentFor (2 ^ (53 + scale)) ≤ 53 + scale := by
      rw [exponentFor, Nat.log2_two_pow]
      omega
    rw [← Nat.pow_add]
    exact Nat.pow_dvd_pow 2 hexponent

theorem exponentFor_units_lt {i : Int} (h : i.natAbs < 2 ^ 64) :
    exponentFor (i.natAbs * 2 ^ 1074) < 2045 :=
  Nat.lt_of_le_of_lt (exponentFor_mul_pow_le 1074 h) (by decide)

/-- An integer of 64 bits is rounded to a number that is nearest to it. -/
theorem exists_ofInt_nearest {i : Int} (h : i.natAbs < 2 ^ 64) :
    ∃ x, ofInt i = .finite x ∧ x.Nearest (unitsOf i) := by
  obtain ⟨x, hround, hnegative, hmagnitude, -⟩ :=
    exists_ofQuotient_one (i < 0) (exponentFor_units_lt h)
  have hnearest := Finite.nearest_of_magnitude (Finite.natAbs_magnitude_le hmagnitude)
  simp only [hnegative, decide_eq_true_eq] at hnearest
  exact ⟨x, hround, unitsOf_eq i ▸ hnearest⟩

theorem exists_ofInt_units {i : Int} (h : i.natAbs ≤ 2 ^ 53) :
    ∃ x, ofInt i = .finite x ∧ x.units = unitsOf i := by
  obtain ⟨x, hround, hnegative, hmagnitude, -⟩ :=
    exists_ofQuotient_one (i < 0) (exponentFor_units_lt (Nat.lt_of_le_of_lt h (by decide)))
  refine ⟨x, hround, ?_⟩
  rw [roundQuotient_mul_of_dvd (Nat.two_pow_pos _) (pow_exponentFor_dvd h 1074)] at hmagnitude
  simp only [unitsOf_eq, Finite.units, hnegative, hmagnitude, decide_eq_true_eq]

namespace Finite

variable {x y : Finite} {value other : Int}

/-! ## Order -/

theorem Nearest.le_units (h : x.Nearest value) (hle : y.units ≤ value) : y.units ≤ x.units := by
  have hnear := h y
  omega

theorem Nearest.units_le (h : x.Nearest value) (hle : value ≤ y.units) : x.units ≤ y.units := by
  have hnear := h y
  omega

theorem Nearest.units_le_units (hx : x.Nearest value) (hy : y.Nearest other)
    (hlt : value < other) : x.units ≤ y.units := by
  have hfirst := hx y
  have hsecond := hy x
  omega

end Finite

end Binary64

end ObjectQuery
