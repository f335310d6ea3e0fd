import ObjectQuery.Selector.Grammar
/-!
# Characters of selectors

The character classes of the grammar by their code points, which settles how they overlap.
-/

namespace ObjectQuery.Selector

def inClass (ranges : List (Char × Char)) (c : Char) : Bool :=
  ranges.any fun (first, last) => first ≤ c && c ≤ last

theorem inClass_nil (c : Char) : inClass [] c = false := rfl

theorem inClass_cons_iff {first last : Char} {ranges : List (Char × Char)} {c : Char} :
    inClass ((first, last) :: ranges) c = true ↔
      first.toNat ≤ c.toNat ∧ c.toNat ≤ last.toNat ∨ inClass ranges c = true := by
  simp only [inClass, List.any_cons, Bool.or_eq_true, Bool.and_eq_true, decide_eq_true_eq]
  rfl

theorem isDigit_iff {c : Char} : c.isDigit = true ↔ 48 ≤ c.toNat ∧ c.toNat ≤ 57 := by
  simp only [Char.isDigit, Bool.and_eq_true, decide_eq_true_eq, ge_iff_le, UInt32.le_iff_toNat_le]
  rfl

theorem isUpper_iff {c : Char} : c.isUpper = true ↔ 65 ≤ c.toNat ∧ c.toNat ≤ 90 := by
  show decide (65 ≤ c.val ∧ c.val ≤ 90) = true ↔ _
  rw [decide_eq_true_eq, UInt32.le_iff_toNat_le, UInt32.le_iff_toNat_le]
  rfl

theorem isLower_iff {c : Char} : c.isLower = true ↔ 97 ≤ c.toNat ∧ c.toNat ≤ 122 := by
  show (decide (97 ≤ c.val) && decide (c.val ≤ 122)) = true ↔ _
  rw [Bool.and_eq_true, decide_eq_true_eq, decide_eq_true_eq, UInt32.le_iff_toNat_le,
    UInt32.le_iff_toNat_le]
  rfl

theorem isAlpha_iff {c : Char} :
    c.isAlpha = true ↔
      65 ≤ c.toNat ∧ c.toNat ≤ 90 ∨ 97 ≤ c.toNat ∧ c.toNat ≤ 122 := by
  show (c.isUpper || c.isLower) = true ↔ _
  rw [Bool.or_eq_true, isUpper_iff, isLower_iff]

theorem isNameStart_iff {c : Char} :
    isNameStart c = true ↔
      65 ≤ c.toNat ∧ c.toNat ≤ 90 ∨ 97 ≤ c.toNat ∧ c.toNat ≤ 122 ∨ c.toNat = 95 := by
  unfold isNameStart
  rw [Bool.or_eq_true, isAlpha_iff, beq_iff_eq, ← Char.toNat_inj, or_assoc]
  rfl

theorem isNameChar_iff {c : Char} :
    isNameChar c = true ↔
      isNameStart c = true ∨ 48 ≤ c.toNat ∧ c.toNat ≤ 57 ∨ c.toNat = 45 := by
  have hunderscore : c = '_' ↔ c.toNat = 95 := Char.toNat_inj.symm
  have hhyphen : c = '-' ↔ c.toNat = 45 := Char.toNat_inj.symm
  simp only [isNameChar, Char.isAlphanum, Bool.or_eq_true, isAlpha_iff, isDigit_iff, beq_iff_eq,
    isNameStart_iff, hunderscore, hhyphen]
  omega

theorem inRanges_nil (code : Nat) : Text.inRanges [] code = false := rfl

theorem inRanges_cons_iff {first last code : Nat} {ranges : List (Nat × Nat)} :
    Text.inRanges ((first, last) :: ranges) code = true ↔
      first ≤ code ∧ (code ≤ last ∨ Text.inRanges ranges code = true) := by
  rw [Text.inRanges]
  by_cases hfirst : code < first
  · simp [hfirst, Nat.not_le_of_lt hfirst]
  · by_cases hlast : code ≤ last
    · simp [hfirst, hlast, Nat.le_of_not_lt hfirst]
    · simp [hfirst, hlast, Nat.le_of_not_lt hfirst]

theorem isBlank_iff {c : Char} :
    Text.isBlank c = true ↔
      9 ≤ c.toNat ∧ c.toNat ≤ 13 ∨ c.toNat = 32 ∨ c.toNat = 133 ∨ c.toNat = 160 ∨
        c.toNat = 5760 ∨ 8192 ≤ c.toNat ∧ c.toNat ≤ 8202 ∨
        8232 ≤ c.toNat ∧ c.toNat ≤ 8233 ∨ c.toNat = 8239 ∨ c.toNat = 8287 ∨ c.toNat = 12288 := by
  simp only [Text.isBlank, Text.blankRanges, inRanges_cons_iff, inRanges_nil, Bool.false_eq_true,
    or_false]
  omega

theorem isBareChar_iff {c : Char} :
    isBareChar c = true ↔
      c.toNat ≠ 34 ∧ c.toNat ≠ 39 ∧ c.toNat ≠ 91 ∧ c.toNat ≠ 93 ∧ ¬ Text.isBlank c = true := by
  have hcode : ∀ d : Char, c = d ↔ c.toNat = d.toNat := fun _ => Char.toNat_inj.symm
  simp only [isBareChar, Bool.and_eq_true, Bool.not_eq_true', Bool.or_eq_false_iff,
    beq_eq_false_iff_ne, Ne, hcode, Char.reduceToNat, Bool.not_eq_true, and_assoc]

theorem isBareChar_of_isNameChar {c : Char} (h : isNameChar c = true) : isBareChar c = true := by
  rw [isNameChar_iff, isNameStart_iff] at h
  rw [isBareChar_iff, isBlank_iff]
  omega

theorem isNameChar_of_isDigit {c : Char} (h : c.isDigit = true) : isNameChar c = true := by
  rw [isDigit_iff] at h
  exact isNameChar_iff.2 (Or.inr (Or.inl h))

theorem isNameChar_of_isNameStart {c : Char} (h : isNameStart c = true) : isNameChar c = true :=
  isNameChar_iff.2 (Or.inl h)

/-! ## The classes as ranges -/

theorem inClass_digits : inClass [('0', '9')] = Char.isDigit := by
  funext c
  rw [Bool.eq_iff_iff, inClass_cons_iff, isDigit_iff, inClass_nil]
  simp

theorem inClass_nameStart : inClass [('a', 'z'), ('A', 'Z'), ('_', '_')] = isNameStart := by
  funext c
  rw [Bool.eq_iff_iff, isNameStart_iff]
  simp only [inClass_cons_iff, inClass_nil, Char.reduceToNat, Bool.false_eq_true,
    or_false]
  omega

theorem inClass_nameChar :
    inClass [('a', 'z'), ('A', 'Z'), ('0', '9'), ('_', '_'), ('-', '-')] = isNameChar := by
  funext c
  rw [Bool.eq_iff_iff, isNameChar_iff, isNameStart_iff]
  simp only [inClass_cons_iff, inClass_nil, Char.reduceToNat, Bool.false_eq_true,
    or_false]
  omega

theorem inClass_identifierChar :
    inClass [('0', '9'), ('a', 'z'), ('A', 'Z'), ('_', '_'), ('-', '-')] = isNameChar := by
  funext c
  rw [Bool.eq_iff_iff, isNameChar_iff, isNameStart_iff]
  simp only [inClass_cons_iff, inClass_nil, Char.reduceToNat, Bool.false_eq_true,
    or_false]
  omega

theorem inClass_delimiter (c : Char) :
    inClass [('"', '"'), ('\'', '\''), ('[', '['), (']', ']')] c =
      (c == '"' || c == '\'' || c == '[' || c == ']') := by
  have hquote : ∀ d : Char, c = d ↔ c.toNat = d.toNat := fun _ => Char.toNat_inj.symm
  rw [Bool.eq_iff_iff]
  simp only [inClass_cons_iff, inClass_nil, Bool.or_eq_true, beq_iff_eq, hquote, Char.reduceToNat,
    Bool.false_eq_true, or_false]
  omega

end ObjectQuery.Selector
