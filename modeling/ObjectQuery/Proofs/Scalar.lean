import ObjectQuery.Scalar
import ObjectQuery.Selector.Matching
import ObjectQuery.Proofs.Binary64.Text
/-!
# Equal scalars

Equal scalars are the same, with one exception: the zeros of both signs are equal numbers. Order and
equality do not see the difference, but texts do, for they are `0` and `-0`.
-/

namespace ObjectQuery

namespace Binary64

namespace Finite

variable {x y : Finite}

theorem eq_of_magnitude_eq (hnegative : x.negative = y.negative)
    (hmagnitude : x.magnitude = y.magnitude) : x = y := by
  have hround : ofQuotient x.negative x.magnitude 1 = ofQuotient y.negative y.magnitude 1 := by
    rw [hnegative, hmagnitude]
  rw [ofQuotient_magnitude, ofQuotient_magnitude] at hround
  exact Binary64.finite.inj hround

theorem significand_eq_zero_of_magnitude (h : x.magnitude = 0) : x.significand = 0 :=
  (Nat.mul_eq_zero.1 h).resolve_right (Nat.ne_of_gt (Nat.two_pow_pos _))

theorem eq_or_zeros_of_units_eq (h : x.units = y.units) :
    x = y ∨ ∃ negative, x = .zero negative ∧ y = .zero !negative := by
  have hmagnitude : x.magnitude = y.magnitude := by
    simp only [units] at h
    split at h <;> split at h <;> omega
  by_cases hnegative : x.negative = y.negative
  · exact Or.inl (eq_of_magnitude_eq hnegative hmagnitude)
  · have hother : (!x.negative) = y.negative := by
      cases hx : x.negative <;> cases hy : y.negative <;> simp_all
    have hzero : x.magnitude = 0 := by
      rw [units, units, ← hother, ← hmagnitude] at h
      cases hx : x.negative <;> simp only [hx, Bool.not_true, Bool.not_false, if_true,
        Bool.false_eq_true, if_false] at h <;> omega
    refine Or.inr ⟨x.negative, eq_zero_of_significand (significand_eq_zero_of_magnitude hzero), ?_⟩
    rw [hother]
    exact eq_zero_of_significand (significand_eq_zero_of_magnitude (hmagnitude ▸ hzero))

theorem units_zero (negative : Bool) : (zero negative).units = 0 := by
  cases negative <;> rfl

end Finite

theorem eq_or_zeros_of_equal {x y : Binary64} (h : x.equal y = true) :
    x = y ∨ ∃ negative, x = .finite (.zero negative) ∧ y = .finite (.zero !negative) := by
  cases x with
  | nan => cases h
  | finite x =>
      cases y with
      | nan => cases h
      | finite y =>
          have hunits : x.units = y.units := by
            simpa [equal, compare?, Finite.compare, Int.compare_eq_eq] using h
          rcases Finite.eq_or_zeros_of_units_eq hunits with rfl | ⟨negative, rfl, rfl⟩
          · exact Or.inl rfl
          · exact Or.inr ⟨negative, rfl, rfl⟩
      | infinite negative => cases negative <;> cases h
  | infinite left =>
      cases y with
      | nan => cases h
      | finite y => cases left <;> cases h
      | infinite right =>
          cases left <;> cases right
          · exact Or.inl rfl
          · cases h
          · cases h
          · exact Or.inl rfl

theorem compare?_zero (negative other : Bool) (x : Binary64) :
    compare? (.finite (.zero negative)) x = compare? (.finite (.zero other)) x := by
  cases x with
  | finite x => simp only [compare?, Finite.compare, Finite.units_zero]
  | _ => rfl

end Binary64

namespace Scalar

variable {a b : Scalar}

def zero (negative : Bool) : Scalar :=
  .float (.finite (.zero negative))

def OppositeZeros (a b : Scalar) : Prop :=
  ∃ negative, a = zero negative ∧ b = zero !negative

instance (a b : Scalar) : Decidable (OppositeZeros a b) :=
  inferInstanceAs (Decidable (∃ negative, a = zero negative ∧ b = zero !negative))

/-- The same scalars, or zeros of different signs. -/
def Alike (a b : Scalar) : Prop :=
  a = b ∨ a.OppositeZeros b

theorem alike_of_equal (h : a.equal b = true) : a.Alike b := by
  cases a with
  | null =>
      cases b with
      | null => exact Or.inl rfl
      | _ => cases h
  | bool x =>
      cases b with
      | bool y => exact Or.inl (congrArg bool (beq_iff_eq.1 h))
      | _ => cases h
  | integer i =>
      cases b with
      | integer j => exact Or.inl (congrArg integer (beq_iff_eq.1 h))
      | _ => cases h
  | float x =>
      cases b with
      | float y =>
          rcases Binary64.eq_or_zeros_of_equal h with rfl | ⟨negative, rfl, rfl⟩
          · exact Or.inl rfl
          · exact Or.inr ⟨negative, rfl, rfl⟩
      | _ => cases h
  | string s =>
      cases b with
      | string t => exact Or.inl (congrArg string (beq_iff_eq.1 h))
      | _ => cases h

theorem Alike.compare?_eq (h : a.Alike b) (c : Scalar) : a.compare? c = b.compare? c := by
  rcases h with rfl | ⟨negative, rfl, rfl⟩
  · rfl
  · cases c with
    | integer i => exact Binary64.compare?_zero _ _ _
    | float x => exact Binary64.compare?_zero _ _ x
    | _ => rfl

theorem Alike.equal_eq (h : a.Alike b) (c : Scalar) : a.equal c = b.equal c := by
  rcases h with rfl | ⟨negative, rfl, rfl⟩
  · rfl
  · cases c with
    | float x =>
        have hcompare := Binary64.compare?_zero negative (!negative) x
        simp only [zero, equal, Binary64.equal, hcompare]
    | _ => rfl

theorem text?_scalar (operand : Operand) : operand.scalar.text? = some operand.toText := by
  cases operand <;> rfl

end Scalar

end ObjectQuery
