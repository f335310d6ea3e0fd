import ObjectQuery.Proofs.Peg.Packrat
import ObjectQuery.Proofs.Peg.Progress
import ObjectQuery.Selector.Parse
/-!
# Reading a selector

Reading a selector never fails as a whole, and no repetition in it ever comes to a round that takes
nothing. `parse` therefore either takes all of the text or stops in front of a character, and the
table it keeps plays no part in which.
-/

namespace ObjectQuery.Selector

namespace Grammar

def body : (rule : Rule) → Grammar rule.Value
  | .filter => .map (fun (primary, attributes) => ⟨primary, attributes⟩) <|
      .seq (.optional primary) (.many attributeFilter)
  | .path => .choice absolutePath relativePath
  | .identifierFilter => .dropLeft (.char '#') (.map String.ofList (.run1 isNameChar))
  | .propertyName => identifier
  | .attributeFilter => .map (fun (text, path, test) => ⟨path, test, String.ofList text⟩) <|
      .consumed <|
      .dropLeft (.seq (.char '[') blank) (.dropRight condition (.seq blank (.char ']')))
  | .identifier => .map (fun (c, rest) => String.ofList (c :: rest)) <|
      .seq (.satisfy isNameStart) (.run isNameChar)
  | .propertyPath => .map (fun (text, _) => String.ofList text) <|
      .consumed (.seq identifier (.many (.dropLeft (.char '.') identifier)))
  | .operand => .oneOf string [number, boolean, unquoted]

theorem selector_follows : selector.Follows body := by
  repeat' constructor

/-! ## Repetitions take something in every round -/

theorem attributeFilter_consumes : attributeFilter.Consumes :=
  .map <| .consumed <| .map <| .seq_left (.seq_left (.satisfy _) _) _

theorem comma_consumes : comma.Consumes :=
  .map <| .seq_right _ (.seq_left (.satisfy _) _)

theorem dropLeft_comma_filter_consumes : (Peg.dropLeft comma filter).Consumes :=
  .map (.seq_left comma_consumes _)

theorem dropLeft_char_identifier_consumes (c : Char) :
    (Peg.dropLeft (.char c) identifier).Consumes :=
  .map (.seq_left (.satisfy _) _)

theorem quoted_item_consumes (quote : Char) :
    (Peg.choice (.dropLeft (.char '\\') (.char quote)) (.satisfy (· != quote)) :
      Grammar Char).Consumes :=
  .choice (.map (.seq_left (.satisfy _) _)) (.satisfy _)

theorem selector_neverStalls : selector.NeverStalls := by
  repeat' first
    | constructor
    | exact attributeFilter_consumes
    | exact dropLeft_comma_filter_consumes
    | exact dropLeft_char_identifier_consumes _
    | exact quoted_item_consumes _

end Grammar

/-! ## Parsing is reading -/

open Grammar in
theorem exists_read_filter (text : List Char) :
    ∃ read rest, filter.read text = some (read, rest) := by
  obtain ⟨primary, middle, hprimary⟩ := Peg.exists_read_optional primary text
  obtain ⟨attributes, rest, hattributes⟩ := Peg.exists_read_many attributeFilter_consumes middle
  exact ⟨⟨primary, attributes⟩, rest, Peg.read_map _ (Peg.read_seq hprimary hattributes)⟩

open Grammar in
theorem exists_read_selector (text : List Char) :
    ∃ read rest, selector.read text = some (read, rest) := by
  obtain ⟨first, middle, hfirst⟩ := exists_read_filter text
  obtain ⟨others, rest, hothers⟩ := Peg.exists_read_many dropLeft_comma_filter_consumes middle
  exact ⟨⟨first :: others⟩, rest, Peg.read_map _ (Peg.read_seq hfirst hothers)⟩

theorem parse_eq (text : String) :
    parse text =
      match Grammar.selector.read text.toList with
      | some (selector, []) => .ok selector
      | some (_, c :: rest) => .error (.stoppedAt text (c :: rest))
      | none => .error (.stoppedAt text text.toList) := by
  have hread := (Peg.agrees_readWith Grammar.selector_follows text.toList ∅
    (List.suffix_refl _) Peg.Table.records_empty).1
  unfold parse
  cases hfound : Grammar.selector.read text.toList with
  | none => simp only [hread, hfound]
  | some found =>
      obtain ⟨selector, rest⟩ := found
      cases rest with
      | nil => simp only [hread, hfound]
      | cons c rest => simp only [hread, hfound]

theorem parse_eq_ok_iff {text : String} {selector : Selector} :
    parse text = .ok selector ↔ Grammar.selector.read text.toList = some (selector, []) := by
  obtain ⟨found, rest, hread⟩ := exists_read_selector text.toList
  rw [parse_eq, hread]
  cases rest with
  | nil => simp
  | cons c rest => simp

theorem parse_eq_error_iff {text : String} {error : SyntaxError} :
    parse text = .error error ↔
      ∃ selector rest, Grammar.selector.read text.toList = some (selector, rest) ∧
        rest ≠ [] ∧ error = .stoppedAt text rest := by
  obtain ⟨found, rest, hread⟩ := exists_read_selector text.toList
  rw [parse_eq, hread]
  cases rest with
  | nil => simp
  | cons c rest =>
      constructor
      · intro h
        cases h
        exact ⟨found, c :: rest, rfl, by simp, rfl⟩
      · rintro ⟨selector, last, heq, -, rfl⟩
        cases heq
        rfl

end ObjectQuery.Selector
