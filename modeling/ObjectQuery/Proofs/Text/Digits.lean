import ObjectQuery.Binary64.Text
import ObjectQuery.Text.Characters
import ObjectQuery.Text.Reader
/-!
# Digits as they are written

The digits of a natural number denote it, and only those of zero start with a zero. A run of digits
is read up to the first other character.
-/

namespace ObjectQuery

namespace Text

theorem digitsValue_eq (digits : List Char) : digitsValue digits = Nat.ofDigitChars 10 digits 0 :=
  Nat.ofDigitChars_eq_foldl.symm

theorem digitsValue_append (first second : List Char) :
    digitsValue (first ++ second) =
      10 ^ second.length * digitsValue first + digitsValue second := by
  rw [digitsValue_eq, Nat.ofDigitChars_append, Nat.ofDigitChars_eq_ofDigitChars_zero,
    digitsValue_eq, digitsValue_eq]

theorem digitsValue_replicate_zero (count : Nat) : digitsValue (List.replicate count '0') = 0 := by
  rw [digitsValue_eq, Nat.ofDigitChars_replicate_zero, Nat.mul_zero]

theorem baseValue?_of_digits {high low : Char} {code : Nat}
    (hhigh : digitValue? 16 high = some (code / 16))
    (hlow : digitValue? 16 low = some (code % 16)) :
    baseValue? 16 ['0', '0', high, low] = some code := by
  have hzero : digitValue? 16 '0' = some 0 := by decide
  have hcode : 16 * (code / 16) + code % 16 = code := Nat.div_add_mod _ _
  simp [baseValue?, hzero, hhigh, hlow, hcode]

end Text

namespace Reader

theorem takeWhile1_append {test : Char → Bool} {run rest : List Char} (hne : run ≠ [])
    (hrun : ∀ c ∈ run, test c = true) (hrest : ∀ c ∈ rest.head?, test c = false) :
    takeWhile1 test (run ++ rest) = some (run, rest) := by
  have hstop : rest.takeWhile test = [] ∧ rest.dropWhile test = rest := by
    cases rest with
    | nil => exact ⟨rfl, rfl⟩
    | cons c rest => simp [hrest c rfl]
  obtain ⟨first, others, rfl⟩ := List.exists_cons_of_ne_nil hne
  simp only [takeWhile1, List.takeWhile_append_of_pos hrun, List.dropWhile_append_of_pos hrun,
    hstop, List.append_nil]

end Reader

namespace Decimal

theorem digitsValue_digitsOf (n : Nat) : Text.digitsValue (digitsOf n) = n :=
  Nat.ofDigitChars_ten_toDigits

theorem digitsOf_ne_nil (n : Nat) : digitsOf n ≠ [] :=
  Nat.toDigits_ne_nil

theorem isDigit_of_mem_digitsOf {n : Nat} {c : Char} (h : c ∈ digitsOf n) : c.isDigit = true :=
  Nat.isDigit_of_mem_toDigits (by omega) (by omega) h

theorem digitsOf_of_lt {n : Nat} (h : n < 10) : digitsOf n = [n.digitChar] :=
  Nat.toDigits_of_lt_base h

theorem digitsOf_of_le {n : Nat} (h : 10 ≤ n) :
    digitsOf n = digitsOf (n / 10) ++ [(n % 10).digitChar] :=
  Nat.toDigits_of_base_le (by omega) h

theorem length_digitsOf_le_iff {n count : Nat} (h : 0 < count) :
    (digitsOf n).length ≤ count ↔ n < 10 ^ count :=
  Nat.length_toDigits_le_iff (by omega) h

theorem head?_digitsOf_ne_zero {n : Nat} (h : n ≠ 0) : (digitsOf n).head? ≠ some '0' := by
  induction n using Nat.strongRecOn with
  | _ n ih =>
      by_cases hsmall : n < 10
      · have hall : ∀ n < 10, n ≠ 0 → n.digitChar ≠ '0' := by decide
        rw [digitsOf_of_lt hsmall, List.head?_cons]
        exact fun hzero => hall n hsmall h (Option.some.inj hzero)
      · have hfront := ih (n / 10) (by omega) (by omega)
        obtain ⟨first, others, hdigits⟩ := List.exists_cons_of_ne_nil (digitsOf_ne_nil (n / 10))
        rw [hdigits] at hfront
        rw [digitsOf_of_le (by omega), hdigits]
        exact hfront

end Decimal

end ObjectQuery
