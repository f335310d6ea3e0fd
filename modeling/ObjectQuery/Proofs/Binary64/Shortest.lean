import ObjectQuery.Binary64.Shortest
import ObjectQuery.Proofs.Binary64.Rounding
/-!
# The shortest decimal reads back

Every candidate for the shortest decimal of a number is tried by reading it. If none of them would
do there is the exact value, which is rounded to the number. Dropping zeros changes nothing.
-/

namespace ObjectQuery.Binary64.Finite

variable {x : Finite} {d : Decimal}

theorem reads_iff : x.reads d = true ↔ ofDecimal x.negative d.digits d.exponent = .finite x := by
  simp [reads]

theorem reads_trimZeros (fuel : Nat) : x.reads (d.trimZeros fuel) = x.reads d := by
  induction fuel generalizing d with
  | zero => rfl
  | succ fuel ih =>
      rw [Decimal.trimZeros]
      split
      · rename_i hzero
        have hdigits : d.digits = d.digits / 10 * 10 := by omega
        rw [ih, reads, reads, ← ofDecimal_mul_ten, ← hdigits]
      · rfl

theorem reads_of_nearest? {tie : Tie} {exponent : Int} (h : x.nearest? tie exponent = some d) :
    x.reads d = true := by
  unfold nearest? at h
  dsimp only at h
  split at h
  · rename_i hlower hupper
    rw [← Option.some.inj h]
    split
    · exact hupper
    · exact hlower
  · rename_i hlower _
    exact Option.some.inj h ▸ hlower
  · rename_i _ hupper
    exact Option.some.inj h ▸ hupper
  · cases h

theorem magnitude_lt (x : Finite) : x.magnitude < 2 ^ 53 * 2 ^ 2045 := by
  have hpower := Nat.pow_le_pow_right Nat.two_pos x.exponent_le
  calc
    x.magnitude < 2 ^ 53 * 2 ^ x.exponent :=
      Nat.mul_lt_mul_of_pos_right x.significand_lt (Nat.two_pow_pos _)
    _ ≤ 2 ^ 53 * 2 ^ 2045 := Nat.mul_le_mul_left _ hpower

theorem magnitude_pos (h : x.significand ≠ 0) : 0 < x.magnitude :=
  Nat.mul_pos (Nat.pos_of_ne_zero h) (Nat.two_pow_pos _)

theorem length_digitsOf_exactDecimal (h : x.significand ≠ 0) :
    744 < (Nat.toDigits 10 x.exactDecimal.digits).length ∧
      (Nat.toDigits 10 x.exactDecimal.digits).length ≤ 1383 := by
  constructor
  · rw [← Nat.not_le, show (Nat.toDigits 10 x.exactDecimal.digits).length ≤ 744 ↔ _ from
      Decimal.length_digitsOf_le_iff (by omega), Nat.not_lt]
    calc
      10 ^ 744 ≤ 1 * 5 ^ 1074 := by decide +kernel
      _ ≤ x.magnitude * 5 ^ 1074 := Nat.mul_le_mul_right _ (magnitude_pos h)
  · rw [show (Nat.toDigits 10 x.exactDecimal.digits).length ≤ 1383 ↔ _ from
      Decimal.length_digitsOf_le_iff (by omega)]
    calc
      x.magnitude * 5 ^ 1074 ≤ 2 ^ 53 * 2 ^ 2045 * 5 ^ 1074 :=
        Nat.mul_le_mul_right _ (Nat.le_of_lt x.magnitude_lt)
      _ < 10 ^ 1383 := by decide +kernel

theorem reads_exactDecimal (h : x.significand ≠ 0) : x.reads x.exactDecimal = true := by
  obtain ⟨hlower, hupper⟩ := length_digitsOf_exactDecimal h
  have hdigits : x.exactDecimal.digits ≠ 0 := by
    intro hzero
    rw [hzero, Nat.toDigits_zero] at hlower
    exact absurd hlower (by decide)
  have htop : ¬ 310 ≤ ((Nat.toDigits 10 x.exactDecimal.digits).length : Int) + -1074 := by omega
  have hbottom : ¬ ((Nat.toDigits 10 x.exactDecimal.digits).length : Int) + -1074 ≤ -330 := by
    omega
  have hexponent : x.exactDecimal.exponent = -1074 := rfl
  have hnegative : ¬ 0 ≤ (-1074 : Int) := by decide
  have hpower : (-(-1074 : Int)).toNat = 1074 := rfl
  rw [reads_iff, ofDecimal, if_neg hdigits, hexponent]
  dsimp only
  rw [if_neg htop, if_neg hbottom, if_neg hnegative, hpower]
  exact ofQuotient_mul_pow x 1074

/-- The shortest decimal is read as the number. -/
theorem reads_shortest (tie : Tie) (h : x.significand ≠ 0) : x.reads (x.shortest tie) = true := by
  rw [shortest, reads_trimZeros]
  cases hfound : (List.range 17).findSome? fun i => x.candidate? tie (i + 1) with
  | none => exact reads_exactDecimal h
  | some d =>
      obtain ⟨i, -, hcandidate⟩ := List.exists_of_findSome?_eq_some hfound
      exact reads_of_nearest? hcandidate

theorem digits_ne_zero_of_reads (h : x.significand ≠ 0) (hreads : x.reads d = true) :
    d.digits ≠ 0 := by
  intro hzero
  rw [reads_iff, hzero, ofDecimal, if_pos rfl, Binary64.finite.injEq] at hreads
  exact h (congrArg significand hreads).symm

end ObjectQuery.Binary64.Finite
