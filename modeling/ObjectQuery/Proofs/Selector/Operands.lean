import ObjectQuery.Proofs.Selector.Literals
/-!
# Operands as they are written

The texts of an operand behind an operator, and of one in a type test. Strings are tried first, then
numbers, truth values and operands without quotes. A text is read back in front of a character that
cannot continue an operand without quotes.
-/

namespace ObjectQuery.Selector

open Grammar

/-- The texts of an operand behind an operator. -/
inductive OperandText : List Char → Operand → Prop
  | string {quote : Char} {value : List Char} (hquote : IsQuote quote)
      (hlast : value.getLast? ≠ some '\\') :
      OperandText (quotedText quote value) (.string (String.ofList value))
  | number {negative : Bool} {whole : List Char} {fraction : Option (List Char)}
      (hwhole : IsDigits whole) (hfraction : ∀ digits ∈ fraction, IsDigits digits) :
      OperandText (numberText negative whole fraction) (numberOperand negative whole fraction)
  | boolean {value : Bool} {text : List Char} (htext : text.map Char.toLower = truthText value) :
      OperandText text (.boolean value)
  | unquoted {value : List Char} (hbare : IsBare value) (hnumber : ¬ StartsNumber value)
      (htruth : ¬ StartsTruth value) : OperandText value (.unquoted (String.ofList value))

inductive TypeText : List Char → Operand → Prop
  | string {quote : Char} {value : List Char} (hquote : IsQuote quote)
      (hlast : value.getLast? ≠ some '\\') :
      TypeText (quotedText quote value) (.string (String.ofList value))
  | unquoted {value : List Char} (hbare : IsBare value) :
      TypeText value (.unquoted (String.ofList value))

theorem operandText_of_read {text rest : List Char} {found : Operand}
    (h : operand.read text = some (found, rest)) :
    ∃ taken, text = taken ++ rest ∧ OperandText taken found := by
  rcases Peg.read_choice_iff.1 h with hstring | ⟨-, hother⟩
  · obtain ⟨quote, value, rfl, hquote, rfl, hlast⟩ := read_string_iff.1 hstring
    exact ⟨_, rfl, .string hquote hlast⟩
  · rcases Peg.read_choice_iff.1 hother with hnumber | ⟨hnumber, hother⟩
    · obtain ⟨negative, whole, fraction, hwhole, hfraction, rfl, rfl⟩ := numberText_of_read hnumber
      exact ⟨_, rfl, .number hwhole hfraction⟩
    · rcases Peg.read_choice_iff.1 hother with htruth | ⟨htruth, hunquoted⟩
      · obtain ⟨value, taken, rfl, rfl, htaken⟩ := read_boolean_iff.1 htruth
        exact ⟨taken, rfl, .boolean htaken⟩
      · obtain ⟨value, rfl, rfl, hbare, hrest⟩ := read_unquoted_iff.1 hunquoted
        rw [read_number_eq_none_iff, startsNumber_append hbare.1 hrest] at hnumber
        rw [read_boolean_eq_none_iff, startsTruth_append hrest] at htruth
        exact ⟨value, rfl, .unquoted hbare hnumber htruth⟩

theorem read_operand_of_number {text rest : List Char} {found : Operand}
    (hstring : string.read text = none) (h : number.read text = some (found, rest)) :
    operand.read text = some (found, rest) := by
  apply Peg.read_choice_right hstring
  exact Peg.read_choice_left _ h

theorem read_operand_of_boolean {text rest : List Char} {found : Operand}
    (hstring : string.read text = none) (hnumber : number.read text = none)
    (h : boolean.read text = some (found, rest)) : operand.read text = some (found, rest) := by
  apply Peg.read_choice_right hstring
  apply Peg.read_choice_right hnumber
  exact Peg.read_choice_left _ h

theorem read_operand_of_unquoted {text rest : List Char} {found : Operand}
    (hstring : string.read text = none) (hnumber : number.read text = none)
    (hboolean : boolean.read text = none) (h : unquoted.read text = some (found, rest)) :
    operand.read text = some (found, rest) := by
  apply Peg.read_choice_right hstring
  apply Peg.read_choice_right hnumber
  exact Peg.read_choice_right hboolean h

theorem read_operand {text rest : List Char} {found : Operand} (h : OperandText text found)
    (hrest : Stops isBareChar rest) : operand.read (text ++ rest) = some (found, rest) := by
  cases h with
  | string hquote hlast =>
      apply Peg.read_choice_left
      exact read_string_iff.2 ⟨_, _, rfl, hquote, rfl, hlast⟩
  | @number negative whole fraction hwhole hfraction =>
      obtain ⟨c, tail, htext, hc⟩ := exists_cons_numberText negative hwhole fraction
      have hstring := read_string_eq_none_of_bare hc (tail ++ rest)
      rw [← List.cons_append, ← htext] at hstring
      exact read_operand_of_number hstring (read_number hwhole hfraction hrest)
  | @boolean value text htext =>
      have hstring := (isBare_of_truth htext).read_string_eq_none rest
      have hnumber := read_number_eq_none_iff.2 (not_startsNumber_of_truth htext rest)
      exact read_operand_of_boolean hstring hnumber
        (read_boolean_iff.2 ⟨value, text, rfl, rfl, htext⟩)
  | @unquoted value hbare hnumber htruth =>
      have hstring := hbare.read_string_eq_none rest
      rw [← startsNumber_append hbare.1 hrest, ← read_number_eq_none_iff] at hnumber
      rw [← startsTruth_append hrest, ← read_boolean_eq_none_iff] at htruth
      exact read_operand_of_unquoted hstring hnumber htruth
        (read_unquoted_iff.2 ⟨text, rfl, rfl, hbare, hrest⟩)

abbrev typeOperand : Grammar Operand :=
  .choice string unquoted

theorem typeText_of_read {text rest : List Char} {found : Operand}
    (h : typeOperand.read text = some (found, rest)) :
    ∃ taken, text = taken ++ rest ∧ TypeText taken found := by
  rcases Peg.read_choice_iff.1 h with hstring | ⟨-, hunquoted⟩
  · obtain ⟨quote, value, rfl, hquote, rfl, hlast⟩ := read_string_iff.1 hstring
    exact ⟨_, rfl, .string hquote hlast⟩
  · obtain ⟨value, rfl, rfl, hbare, -⟩ := read_unquoted_iff.1 hunquoted
    exact ⟨value, rfl, .unquoted hbare⟩

theorem read_typeOperand {text rest : List Char} {found : Operand} (h : TypeText text found)
    (hrest : Stops isBareChar rest) : typeOperand.read (text ++ rest) = some (found, rest) := by
  cases h with
  | string hquote hlast =>
      apply Peg.read_choice_left
      exact read_string_iff.2 ⟨_, _, rfl, hquote, rfl, hlast⟩
  | unquoted hbare =>
      have hunquoted := read_unquoted_iff.2 ⟨text, rfl, rfl, hbare, hrest⟩
      exact Peg.read_choice_right (hbare.read_string_eq_none rest) hunquoted

theorem exists_read_typeOperand {c : Char} (hc : isBareChar c = true) (text : List Char) :
    ∃ found rest, typeOperand.read (c :: text) = some (found, rest) := by
  have hunquoted : unquoted.read (c :: text) =
      some (.unquoted (String.ofList (c :: text.takeWhile isBareChar)),
        text.dropWhile isBareChar) := by
    refine read_unquoted_iff.2 ⟨_, rfl, ?_, ⟨by simp, ?_⟩, Stops.dropWhile _ _⟩
    · rw [List.cons_append, List.takeWhile_append_dropWhile]
    · exact List.forall_mem_cons.2 ⟨hc, fun d hd => List.mem_takeWhile_imp hd⟩
  exact ⟨_, _, Peg.read_choice_right (read_string_eq_none_of_bare hc text) hunquoted⟩

end ObjectQuery.Selector
