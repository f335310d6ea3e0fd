import ObjectQuery.Proofs.Text.Digits
import ObjectQuery.Toml.Document
/-!
# TOML scalars as written

A quoted string is read back as the string, whatever its characters, and the digits of a natural
number as an integer.
-/

namespace ObjectQuery.Toml

/-! ## Strings -/

theorem digitValue?_hexDigit {n : Nat} (h : n < 16) :
    Text.digitValue? 16 (hexDigit n) = some n := by
  have hall : ∀ n < 16, Text.digitValue? 16 (hexDigit n) = some n := by decide
  exact hall n h

theorem coded?_hexDigit {c : Char} (h : c.toNat < 256) :
    coded? ['0', '0', hexDigit (c.toNat / 16), hexDigit (c.toNat % 16)] = some c := by
  have hvalue : Text.baseValue? 16
      ['0', '0', hexDigit (c.toNat / 16), hexDigit (c.toNat % 16)] = some c.toNat :=
    Text.baseValue?_of_digits (digitValue?_hexDigit (by omega)) (digitValue?_hexDigit (by omega))
  have hplain : c.toNat < 0xD800 := by omega
  simp [coded?, hvalue, hplain, Char.ofNat_toNat]

theorem lt_of_not_isPlain {c : Char} (h : isPlain c = false) : c.toNat < 256 := by
  simp only [isPlain, Bool.or_eq_false_iff, Bool.and_eq_false_iff, decide_eq_false_iff_not,
    bne_eq_false_iff_eq] at h
  omega

theorem readBasic_cons {c : Char} (hquote : c ≠ '"') (hslash : c ≠ '\\')
    (hplain : isPlain c = true) (rest : List Char) :
    readBasic (c :: rest) = prepend (some c) (readBasic rest) := by
  simp [readBasic, hslash, hplain]

/-- A character is read back from inside a string. -/
theorem readBasic_escapeChar (c : Char) (rest : List Char) :
    readBasic (escapeChar c ++ rest) = prepend (some c) (readBasic rest) := by
  by_cases hshort : c ∈ ['"', '\\', '\x08', '\t', '\n', '\x0c', '\r']
  · simp only [List.mem_cons, List.not_mem_nil, or_false] at hshort
    rcases hshort with rfl | rfl | rfl | rfl | rfl | rfl | rfl <;> rfl
  · simp only [List.mem_cons, List.not_mem_nil, or_false, not_or] at hshort
    obtain ⟨hquote, hslash, hback, htab, hline, hfeed, hreturn⟩ := hshort
    simp only [escapeChar, hquote, hslash, hback, htab, hline, hfeed, hreturn, if_false]
    by_cases hplain : isPlain c = true
    · rw [if_pos hplain]
      exact readBasic_cons hquote hslash hplain rest
    · have hcode := lt_of_not_isPlain (Bool.eq_false_iff.2 hplain)
      rw [if_neg hplain]
      show prepend (coded? _) (readBasic rest) = _
      rw [coded?_hexDigit hcode]

theorem readBasic_flatMap_escapeChar (text rest : List Char) :
    readBasic (text.flatMap escapeChar ++ '"' :: rest) = some (text, rest) := by
  induction text with
  | nil => rfl
  | cons c text ih => rw [List.flatMap_cons, List.append_assoc, readBasic_escapeChar, ih, prepend]

theorem escapeChar_ne_quote (c : Char) (rest tail : List Char) :
    escapeChar c ++ rest ≠ '"' :: tail := by
  intro h
  have hread := readBasic_escapeChar c rest
  rw [h] at hread
  cases hrest : readBasic rest <;> simp [hrest, readBasic, prepend] at hread

theorem readString_quote {s : String} {rest : List Char} (h : ∀ tail, rest ≠ '"' :: tail) :
    readString (quote s ++ rest) = some (s.toList, rest) := by
  have hbasic := readBasic_flatMap_escapeChar s.toList rest
  have hopen : ∀ tail, s.toList.flatMap escapeChar ++ '"' :: rest ≠ '"' :: '"' :: tail := by
    intro tail htail
    cases hs : s.toList with
    | nil =>
        rw [hs] at htail
        exact h tail (List.cons.inj htail).2
    | cons c text =>
        rw [hs, List.flatMap_cons, List.append_assoc] at htail
        exact escapeChar_ne_quote c _ _ htail
  have hquote : quote s ++ rest = '"' :: (s.toList.flatMap escapeChar ++ '"' :: rest) := by
    simp [quote]
  rw [hquote, readString]
  · exact hbasic
  · exact fun tail htail => hopen tail (List.cons.inj htail).2
  · simp

/-! ## Integers -/

theorem ungroup?_of_isDigit {digits : List Char} (hne : digits ≠ [])
    (h : ∀ c ∈ digits, c.isDigit = true) : ungroup? Char.isDigit digits = some digits := by
  induction digits with
  | nil => exact absurd rfl hne
  | cons c rest ih =>
      obtain ⟨hc, hrest⟩ := List.forall_mem_cons.1 h
      cases rest with
      | nil => simp [ungroup?, hc]
      | cons d rest =>
          have hd : d ≠ '_' := by
            rintro rfl
            cases hrest '_' List.mem_cons_self
          have htail := ih (List.cons_ne_nil d rest) hrest
          rw [ungroup?, if_pos hc, htail]
          · rfl
          · simp
          · exact fun _ heq => hd (List.cons.inj heq).1

theorem decimal?_digitsOf (n : Nat) :
    decimal? (Decimal.digitsOf n) = some (Decimal.digitsOf n) := by
  rw [decimal?, ungroup?_of_isDigit (Decimal.digitsOf_ne_nil n)
    fun _ hc => Decimal.isDigit_of_mem_digitsOf hc, Option.filter_some]
  by_cases hzero : n = 0
  · subst hzero
    rfl
  · have hhead := Decimal.head?_digitsOf_ne_zero hzero
    rw [if_pos]
    simp [hhead]

theorem not_mem_digitsOf {n : Nat} {c : Char} (h : c.isDigit = false) :
    c ∉ Decimal.digitsOf n := by
  intro hmem
  rw [Decimal.isDigit_of_mem_digitsOf hmem] at h
  cases h

theorem splitSign_digitsOf (n : Nat) :
    splitSign (Decimal.digitsOf n) = (false, Decimal.digitsOf n) := by
  have hminus : '-' ∉ Decimal.digitsOf n := not_mem_digitsOf (by decide)
  have hplus : '+' ∉ Decimal.digitsOf n := not_mem_digitsOf (by decide)
  unfold splitSign
  split
  · rename_i heq
    simp [heq] at hminus
  · rename_i heq
    simp [heq] at hplus
  · rfl

theorem integer?_digitsOf {n : Nat} (h : n < 2 ^ 63) :
    integer? (Decimal.digitsOf n) = some (n : Int) := by
  have hmark {mark : Char} {rest : List Char} (hmark : mark.isDigit = false) :
      Decimal.digitsOf n ≠ '0' :: mark :: rest := by
    intro heq
    exact not_mem_digitsOf (n := n) hmark (by simp [heq])
  unfold integer?
  split
  · rename_i heq
    exact absurd heq (hmark (by decide))
  · rename_i heq
    exact absurd heq (hmark (by decide))
  · rename_i heq
    exact absurd heq (hmark (by decide))
  · simp only [splitSign_digitsOf, decimal?_digitsOf, Option.map_some,
      Decimal.digitsValue_digitsOf, Bool.false_eq_true, if_false]
    rw [Option.filter_some, if_pos]
    rw [Bool.and_eq_true, decide_eq_true_eq, decide_eq_true_eq]
    omega

/-! ## Values in a line -/

theorem isTokenChar_of_isDigit {c : Char} (h : c.isDigit = true) : isTokenChar c = true := by
  show (c.isAlpha || c.isDigit || c == '_' || c == '+' || c == '-' || c == '.' || c == ':') = true
  simp [h]

theorem readToken_digitsOf (n : Nat) (rest : List Char) :
    readToken (Decimal.digitsOf n ++ '\n' :: rest) = (Decimal.digitsOf n, '\n' :: rest) := by
  have htoken : ∀ c ∈ Decimal.digitsOf n, isTokenChar c = true :=
    fun _ hc => isTokenChar_of_isDigit (Decimal.isDigit_of_mem_digitsOf hc)
  have hbreak : isTokenChar '\n' = false := by decide
  simp [readToken, List.takeWhile_append_of_pos htoken, List.dropWhile_append_of_pos htoken, hbreak]

theorem readScalar_digitsOf {n : Nat} (h : n < 2 ^ 63) (rest : List Char) :
    readScalar (Decimal.digitsOf n ++ '\n' :: rest) = some (.integer n, '\n' :: rest) := by
  simp [readScalar, readToken_digitsOf, scalar?, integer?_digitsOf h]

theorem readValue_digitsOf {n : Nat} (h : n < 2 ^ 63) (rest : List Char) :
    readValue (Decimal.digitsOf n ++ '\n' :: rest) = some (.integer n, '\n' :: rest) := by
  obtain ⟨first, others, hdigits⟩ := List.exists_cons_of_ne_nil (Decimal.digitsOf_ne_nil n)
  have hmark {mark : Char} (hmark : mark.isDigit = false) : first ≠ mark := by
    rintro rfl
    exact not_mem_digitsOf (n := n) hmark (by simp [hdigits])
  have hscalar := readScalar_digitsOf h rest
  rw [hdigits, List.cons_append] at hscalar ⊢
  rw [readValue, readNested]
  · exact hscalar
  · exact fun _ heq => hmark (by decide) (List.cons.inj heq).1
  · exact fun _ heq => hmark (by decide) (List.cons.inj heq).1
  · exact fun _ heq => hmark (by decide) (List.cons.inj heq).1
  · exact fun _ heq => hmark (by decide) (List.cons.inj heq).1

theorem readValue_quote (s : String) (rest : List Char) :
    readValue (quote s ++ '\n' :: rest) = some (.string s, '\n' :: rest) := by
  have hstring : readString (quote s ++ '\n' :: rest) = some (s.toList, '\n' :: rest) :=
    readString_quote (by simp)
  have hquote : quote s ++ '\n' :: rest =
      '"' :: (s.toList.flatMap escapeChar ++ '"' :: '\n' :: rest) := by
    simp [quote]
  rw [hquote] at hstring ⊢
  simp [readValue, readNested, Reader.map, hstring]

end ObjectQuery.Toml
