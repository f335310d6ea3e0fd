import ObjectQuery.Proofs.Binary64.Shortest
import ObjectQuery.Proofs.Text.Digits
/-!
# Decimal notation

What the positional notation of a decimal consists of: an integer part without superfluous zeros and
a fraction, which together denote the decimal.
-/

namespace ObjectQuery

namespace Decimal

/-- The digits of an integer part: at least one, and no zero in front of others. -/
structure IsWhole (digits : List Char) : Prop where
  ne_nil : digits ≠ []
  isDigit : ∀ c ∈ digits, c.isDigit = true
  eq_zero : digits.head? = some '0' → digits = ['0']

theorem isWhole_digitsOf (n : Nat) : IsWhole (digitsOf n) where
  ne_nil := digitsOf_ne_nil n
  isDigit := fun _ => isDigit_of_mem_digitsOf
  eq_zero := by
    intro hhead
    by_cases h : n = 0
    · rw [h]
      rfl
    · exact absurd hhead (head?_digitsOf_ne_zero h)

theorem isWhole_zero : IsWhole ['0'] :=
  isWhole_digitsOf 0

theorem IsWhole.of_head? {digits : List Char} {first : Char} (hhead : digits.head? = some first)
    (hfirst : first ≠ '0') (hdigits : ∀ c ∈ digits, c.isDigit = true) : IsWhole digits where
  ne_nil := by
    rintro rfl
    cases hhead
  isDigit := hdigits
  eq_zero := fun hzero => absurd (Option.some.inj (hhead.symm.trans hzero)) hfirst

variable {d : Decimal} {fraction : List Char}

def padded (d : Decimal) : List Char :=
  digitsOf d.digits ++
    List.replicate (d.pointPosition.toNat - (digitsOf d.digits).length) '0'

theorem positional_of_le (h : d.pointPosition ≤ 0) :
    d.positional =
      (['0'], List.replicate (-d.pointPosition).toNat '0' ++ digitsOf d.digits) := by
  simp only [positional, if_pos h]

theorem positional_of_lt (h : 0 < d.pointPosition) :
    d.positional =
      (d.padded.take d.pointPosition.toNat, d.padded.drop d.pointPosition.toNat) := by
  simp only [positional, if_neg (Int.not_le.2 h), padded]

theorem isDigit_of_mem_zeros {count : Nat} {c : Char} (h : c ∈ List.replicate count '0') :
    c.isDigit = true := by
  rw [List.eq_of_mem_replicate h]
  decide

theorem isDigit_of_mem_padded {c : Char} (h : c ∈ d.padded) : c.isDigit = true :=
  (List.mem_append.1 h).elim isDigit_of_mem_digitsOf isDigit_of_mem_zeros

theorem isWhole_positional (h : d.digits ≠ 0) : IsWhole d.positional.1 := by
  by_cases hpoint : d.pointPosition ≤ 0
  · rw [positional_of_le hpoint]
    exact isWhole_zero
  · have hcount : 0 < d.pointPosition.toNat := by omega
    obtain ⟨first, others, hdigits⟩ := List.exists_cons_of_ne_nil (digitsOf_ne_nil d.digits)
    have hhead : (d.padded.take d.pointPosition.toNat).head? = some first := by
      rw [List.head?_take, if_neg (by omega), padded, hdigits]
      rfl
    have hfirst : first ≠ '0' := by
      have hne := head?_digitsOf_ne_zero h
      rw [hdigits] at hne
      exact fun heq => hne (congrArg some heq)
    rw [positional_of_lt (by omega)]
    exact .of_head? hhead hfirst fun _ hc => isDigit_of_mem_padded (List.mem_of_mem_take hc)

theorem isDigit_of_mem_fraction {c : Char} (h : c ∈ d.positional.2) : c.isDigit = true := by
  by_cases hpoint : d.pointPosition ≤ 0
  · rw [positional_of_le hpoint] at h
    exact (List.mem_append.1 h).elim isDigit_of_mem_zeros isDigit_of_mem_digitsOf
  · rw [positional_of_lt (by omega)] at h
    exact isDigit_of_mem_padded (List.mem_of_mem_drop h)

/-- The digits of both parts are read, with the exponent that their point calls for, as the
decimal. -/
theorem ofDecimal_positional (negative : Bool) (d : Decimal) :
    Binary64.ofDecimal negative (Text.digitsValue (d.positional.1 ++ d.positional.2))
        (-(d.positional.2.length : Int)) =
      Binary64.ofDecimal negative d.digits d.exponent := by
  have hpoint : d.pointPosition = (digitsOf d.digits).length + d.exponent := rfl
  by_cases hle : d.pointPosition ≤ 0
  · have hvalue : Text.digitsValue
        ('0' :: (List.replicate (-d.pointPosition).toNat '0' ++ digitsOf d.digits)) = d.digits := by
      rw [← List.cons_append, ← List.replicate_succ, Text.digitsValue_append,
        Text.digitsValue_replicate_zero, digitsValue_digitsOf, Nat.mul_zero, Nat.zero_add]
    rw [positional_of_le hle]
    dsimp only
    rw [List.singleton_append, hvalue, List.length_append, List.length_replicate]
    congr 1
    omega
  · have hvalue : Text.digitsValue d.padded = d.digits *
        10 ^ (d.pointPosition.toNat - (digitsOf d.digits).length) := by
      rw [padded, Text.digitsValue_append, Text.digitsValue_replicate_zero, List.length_replicate,
        digitsValue_digitsOf, Nat.add_zero, Nat.mul_comm]
    rw [positional_of_lt (by omega)]
    dsimp only
    rw [List.take_append_drop, hvalue, Binary64.ofDecimal_mul_pow, List.length_drop, padded,
      List.length_append, List.length_replicate]
    congr 1
    omega

/-! ## The fraction in compact text -/

def writtenFraction (fraction : List Char) : List Char :=
  if fraction.isEmpty then ['0'] else fraction

theorem writtenFraction_ne_nil (fraction : List Char) : writtenFraction fraction ≠ [] := by
  cases fraction <;> simp [writtenFraction]

theorem isDigit_of_mem_writtenFraction (h : ∀ c ∈ fraction, c.isDigit = true) :
    ∀ c ∈ writtenFraction fraction, c.isDigit = true := by
  cases fraction with
  | nil =>
      intro c hc
      rw [List.mem_singleton.1 hc]
      decide
  | cons first others => exact h

theorem ofDecimal_writtenFraction (negative : Bool) (whole fraction : List Char) :
    Binary64.ofDecimal negative (Text.digitsValue (whole ++ writtenFraction fraction))
        (-((writtenFraction fraction).length : Int)) =
      Binary64.ofDecimal negative (Text.digitsValue (whole ++ fraction))
        (-(fraction.length : Int)) := by
  cases fraction with
  | nil =>
      have hvalue : Text.digitsValue (whole ++ ['0']) = Text.digitsValue whole * 10 := by
        rw [Text.digitsValue_append, Nat.mul_comm]
        rfl
      show Binary64.ofDecimal negative (Text.digitsValue (whole ++ ['0'])) (-1) = _
      rw [hvalue, Binary64.ofDecimal_mul_ten, List.append_nil]
      rfl
  | cons first others => rfl

end Decimal

namespace Binary64.Finite

variable {x : Finite} {d : Decimal}

theorem eq_zero_of_significand (h : x.significand = 0) : x = .zero x.negative := by
  have hexponent : x.exponent = 0 := x.normalized.resolve_right (by omega)
  obtain ⟨negative, significand, exponent, _, _, _⟩ := x
  dsimp only at h hexponent
  subst h hexponent
  rfl

/-! The three forms of compact text. The shortest decimal has a name in them, for it is not to be
unfolded. -/

theorem compactText_of_zero (h : x.significand = 0) :
    x.compactText = signText x.negative ++ ['0', '.', '0'] := by
  rw [compactText, if_pos h]

theorem compactText_of_positional (h : x.significand ≠ 0) (hd : x.shortest .even = d)
    (hpoint : -5 < d.pointPosition ∧ d.pointPosition ≤ 16) :
    x.compactText =
      signText x.negative ++ d.positional.1 ++ '.' :: Decimal.writtenFraction d.positional.2 := by
  rw [compactText, if_neg h, hd]
  dsimp only
  rw [if_pos hpoint, Decimal.writtenFraction]

theorem compactText_of_scientific (h : x.significand ≠ 0) (hd : x.shortest .even = d)
    (hpoint : ¬ (-5 < d.pointPosition ∧ d.pointPosition ≤ 16)) :
    x.compactText = signText x.negative ++ scientific d := by
  rw [compactText, if_neg h, hd]
  dsimp only
  rw [if_neg hpoint]

end Binary64.Finite

end ObjectQuery
