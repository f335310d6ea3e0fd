import ObjectQuery.Proofs.Selector.Operands
/-!
# Strings between quotes

A string ends at the first quote that no backslash precedes. Its value can be read off character by
character, or found in two passes: first the end, then a replacement of every escaped quote between
the quotes. A value is read back from between quotes unless it ends in a backslash, and then it is
the value of no string.
-/

namespace ObjectQuery.Selector

open Grammar

/-! ## Two passes -/

/-- The text between two of a quote as it stands, up to the first quote that is not escaped. -/
def scanned (quote : Char) : Grammar (List Char) :=
  .dropLeft (.char quote) <|
    .dropRight (.map Prod.fst (.consumed (.many (quotedItem quote)))) (.char quote)

/-- A text with the quote in place of each backslash and quote, replaced from left to right. -/
def unescaped (quote : Char) : List Char → List Char
  | [] => []
  | [c] => [c]
  | c :: d :: rest =>
      if c = '\\' ∧ d = quote then quote :: unescaped quote rest
      else c :: unescaped quote (d :: rest)

theorem unescaped_cons {quote c : Char} {text : List Char}
    (h : ∀ rest, c :: text ≠ '\\' :: quote :: rest) :
    unescaped quote (c :: text) = c :: unescaped quote text := by
  cases text with
  | nil => rfl
  | cons d rest =>
      rw [unescaped, if_neg]
      rintro ⟨rfl, rfl⟩
      exact h rest rfl

/-- Replacing undoes escaping: the backslash of an escaped quote is the only one replaced. -/
theorem unescaped_escaped {quote : Char} (hquote : quote ≠ '\\') (value : List Char) :
    unescaped quote (escaped quote value) = value := by
  induction value with
  | nil => rfl
  | cons c value ih =>
      by_cases hc : c = quote
      · subst hc
        rw [escaped_cons_quote, unescaped, if_pos ⟨rfl, rfl⟩, ih]
      · rw [escaped_cons_of_ne hc, unescaped_cons, ih]
        intro rest heq
        have hhead := (List.cons.inj heq).2
        cases value with
        | nil => cases hhead
        | cons d value =>
            rw [← List.append_nil (escaped quote (d :: value))] at hhead
            exact escaped_append_ne hquote (by simp) _ _ hhead

theorem read_scanned_iff {quote : Char} {text body rest : List Char} :
    (scanned quote).read text = some (body, rest) ↔
      ∃ value, (quoted quote).read text = some (value, rest) ∧ body = escaped quote value := by
  constructor
  · intro h
    obtain ⟨c, middle, hopen, hlater⟩ := Peg.read_dropLeft_iff.1 h
    obtain ⟨d, tail, hbody, hclose⟩ := Peg.read_dropRight_iff.1 hlater
    obtain ⟨⟨taken, value⟩, hconsumed, rfl⟩ := Peg.read_map_iff.1 hbody
    obtain ⟨hitems, rfl⟩ := Peg.read_consumed_iff.1 hconsumed
    obtain ⟨rfl, -⟩ := eq_escaped_of_rounds (Peg.read_many_iff.1 hitems)
    exact ⟨value, Peg.read_dropLeft hopen (Peg.read_dropRight hitems hclose),
      Reader.consumed_append _ _⟩
  · rintro ⟨value, h, rfl⟩
    obtain ⟨c, middle, hopen, hlater⟩ := Peg.read_dropLeft_iff.1 h
    obtain ⟨d, tail, hitems, hclose⟩ := Peg.read_dropRight_iff.1 hlater
    obtain ⟨rfl, -⟩ := eq_escaped_of_rounds (Peg.read_many_iff.1 hitems)
    exact Peg.read_dropLeft hopen
      (Peg.read_dropRight (Peg.read_map _ (Peg.read_consumed hitems)) hclose)

/-- Reading character by character is scanning and then replacing. -/
theorem read_quoted_eq_scanned {quote : Char} (hquote : quote ≠ '\\') (text : List Char) :
    (quoted quote).read text = (Peg.map (unescaped quote) (scanned quote)).read text := by
  cases hread : (quoted quote).read text with
  | some result =>
      obtain ⟨value, rest⟩ := result
      have hscanned := read_scanned_iff.2 ⟨value, hread, rfl⟩
      exact (Peg.read_map_iff.2 ⟨_, hscanned, (unescaped_escaped hquote value).symm⟩).symm
  | none =>
      refine (Peg.read_map_eq_none_iff.2 ?_).symm
      cases hscanned : (scanned quote).read text with
      | none => rfl
      | some result =>
          obtain ⟨value, hvalue, -⟩ := read_scanned_iff.1 hscanned
          rw [hread] at hvalue
          cases hvalue

/-! ## Strings as operands -/

theorem IsQuote.ne_backslash {quote : Char} (h : IsQuote quote) : quote ≠ '\\' := by
  rcases h with rfl | rfl <;> decide

theorem IsQuote.ne_of_isBareChar {quote c : Char} (h : IsQuote quote) (hc : isBareChar c = true) :
    quote ≠ c := by
  rintro rfl
  exact not_isQuote_of_isBareChar hc h

theorem IsQuote.read_number_eq_none {quote : Char} (h : IsQuote quote) (text : List Char) :
    number.read (quote :: text) = none := by
  rw [read_number_eq_none_iff]
  rintro ⟨sign, c, rest, rfl | rfl, htext, hc⟩
  · have hbare := isBareChar_of_isNameChar (isNameChar_of_isDigit hc)
    exact h.ne_of_isBareChar hbare (List.cons.inj htext).1
  · exact h.ne_of_isBareChar (by decide) (List.cons.inj htext).1

theorem IsQuote.read_boolean_eq_none {quote : Char} (h : IsQuote quote) (text : List Char) :
    boolean.read (quote :: text) = none := by
  rw [read_boolean_eq_none_iff]
  rintro ⟨value, taken, rest, htext, htaken⟩
  obtain ⟨c, tail, rfl, hbare⟩ := (isBare_of_truth htaken).exists_cons
  exact h.ne_of_isBareChar hbare (List.cons.inj htext).1

theorem IsQuote.read_unquoted_eq_none {quote : Char} (h : IsQuote quote) (text : List Char) :
    unquoted.read (quote :: text) = none := by
  cases hread : unquoted.read (quote :: text) with
  | none => rfl
  | some result =>
      obtain ⟨value, -, htext, hbare, -⟩ := read_unquoted_iff.1 hread
      obtain ⟨c, tail, rfl, hc⟩ := hbare.exists_cons
      exact absurd (List.cons.inj htext).1 (h.ne_of_isBareChar hc)

theorem IsQuote.read_operand_eq {quote : Char} (h : IsQuote quote) (text : List Char) :
    operand.read (quote :: text) = string.read (quote :: text) := by
  cases hstring : string.read (quote :: text) with
  | some result => exact Peg.read_choice_left _ hstring
  | none =>
      refine Peg.read_choice_eq_none_iff.2 ⟨hstring, Peg.read_choice_eq_none_iff.2 ⟨?_, ?_⟩⟩
      · exact h.read_number_eq_none text
      · exact Peg.read_choice_eq_none_iff.2
          ⟨h.read_boolean_eq_none text, h.read_unquoted_eq_none text⟩

theorem IsQuote.read_typeOperand_eq {quote : Char} (h : IsQuote quote) (text : List Char) :
    typeOperand.read (quote :: text) = string.read (quote :: text) := by
  cases hstring : string.read (quote :: text) with
  | some result => exact Peg.read_choice_left _ hstring
  | none => exact Peg.read_choice_eq_none_iff.2 ⟨hstring, h.read_unquoted_eq_none text⟩

/-- A value is read back from between quotes, in front of any rest, unless it ends in a backslash.
Every string that is read is such a value: it is what replacing leaves of the scanned text, which it
gives back with its quotes escaped. An operand that starts with a quote is read as a string. -/
theorem quoted_string_iff :
    (∀ quote value rest, IsQuote quote →
      (string.read (quote :: (escaped quote value ++ quote :: rest)) =
          some (.string (String.ofList value), rest) ↔
        value.getLast? ≠ some '\\')) ∧
    (∀ text found rest, string.read text = some (found, rest) →
      ∃ quote body, IsQuote quote ∧ (scanned quote).read text = some (body, rest) ∧
        text = quote :: (body ++ quote :: rest) ∧
        found = .string (String.ofList (unescaped quote body)) ∧
        (unescaped quote body).getLast? ≠ some '\\' ∧
        body = escaped quote (unescaped quote body)) ∧
    ∀ quote text, IsQuote quote →
      (quoted quote).read text = (Peg.map (unescaped quote) (scanned quote)).read text ∧
      operand.read (quote :: text) = string.read (quote :: text) ∧
      typeOperand.read (quote :: text) = string.read (quote :: text) := by
  have htext (quote : Char) (value rest : List Char) :
      quote :: (escaped quote value ++ quote :: rest) = quotedText quote value ++ rest := by
    simp [quotedText]
  refine ⟨?_, ?_, fun quote text hquote => ⟨read_quoted_eq_scanned hquote.ne_backslash text,
    hquote.read_operand_eq text, hquote.read_typeOperand_eq text⟩⟩
  · intro quote value rest hquote
    rw [htext, read_string_iff]
    constructor
    · rintro ⟨other, found, heq, -, -, hlast⟩
      obtain rfl := String.ofList_injective (Operand.string.inj heq)
      exact hlast
    · intro hlast
      exact ⟨quote, value, rfl, hquote, rfl, hlast⟩
  · intro text found rest h
    obtain ⟨quote, value, rfl, hquote, rfl, hlast⟩ := read_string_iff.1 h
    have hread : (quoted quote).read (quotedText quote value ++ rest) = some (value, rest) :=
      (read_quoted_iff hquote.ne_backslash).2 ⟨rfl, hlast⟩
    have hvalue := unescaped_escaped hquote.ne_backslash value
    refine ⟨quote, escaped quote value, hquote, read_scanned_iff.2 ⟨value, hread, rfl⟩,
      (htext quote value rest).symm, ?_⟩
    rw [hvalue]
    exact ⟨rfl, hlast, rfl⟩

/-- A backslash in front of an escaped quote, and one in front of the other quote. -/
theorem quoted_string_iff_backslashes :
    IsQuote '\'' ∧ ['\\', '\'', '\\', '"'].getLast? ≠ some '\\' ∧
    string.read ['\'', '\\', '\\', '\'', '\\', '"', '\'', ' ', ']'] =
      some (.string (String.ofList ['\\', '\'', '\\', '"']), [' ', ']']) ∧
    ∃ quote body, IsQuote quote ∧
      (scanned quote).read ['\'', '\\', '\\', '\'', '\\', '"', '\'', ' ', ']'] =
        some (body, [' ', ']']) ∧
      body = escaped quote (unescaped quote body) := by
  obtain ⟨hvalues, htexts, -⟩ := quoted_string_iff
  have hquote : IsQuote '\'' := Or.inr rfl
  have hlast : ['\\', '\'', '\\', '"'].getLast? ≠ some '\\' := by decide
  have hread : string.read ['\'', '\\', '\\', '\'', '\\', '"', '\'', ' ', ']'] =
      some (.string (String.ofList ['\\', '\'', '\\', '"']), [' ', ']']) :=
    (hvalues '\'' ['\\', '\'', '\\', '"'] [' ', ']'] hquote).2 hlast
  obtain ⟨quote, body, hquoted, hscanned, -, -, -, hbody⟩ := htexts _ _ _ hread
  exact ⟨hquote, hlast, hread, quote, body, hquoted, hscanned, hbody⟩

end ObjectQuery.Selector
