import ObjectQuery.Proofs.Json.Reading
/-!
# Objects with one field a line

An object may be written with each field on a line of its own. It is read back from such a text if
the text of each value is.
-/

namespace ObjectQuery.Json

open Json.Tree

/-- Whether a text is read as a value in front of whatever cannot go on a number. -/
def ReadsAs (text : List Char) (tree : Tree) : Prop :=
  ∀ fuel rest, EndsNumber rest → readValue (fuel + 1) (text ++ rest) = some (tree, rest)

theorem readsAs_quote (s : String) : ReadsAs (quote s) (.string (s.toList.map writtenPiece)) :=
  fun fuel rest _ => readValue_quote fuel s rest

theorem readsAs_integerText (i : Int) :
    ReadsAs (integerText i) (.number ⟨i < 0, Decimal.digitsOf i.natAbs, [], none⟩) :=
  fun fuel _ hrest => readValue_of_readNumeral fuel (readNumeral_integerText i hrest)

theorem readsAs_null : ReadsAs ['n', 'u', 'l', 'l'] .null :=
  fun _ _ _ => rfl

/-- A field with the text of its value, which is read as a tree. -/
structure WrittenField where
  name : String
  text : List Char
  tree : Tree
  reads : ReadsAs text tree

namespace WrittenField

def line (field : WrittenField) : List Char :=
  ['\n', ' ', ' '] ++ (quote field.name ++ ':' :: ' ' :: field.text)

def parts (field : WrittenField) : List Piece × Tree :=
  (field.name.toList.map writtenPiece, field.tree)

/-- Fields with commas between them and a closing brace on a line of its own. -/
def lines : List WrittenField → List Char
  | [] => ['\n', '\x7d']
  | [field] => field.line ++ ['\n', '\x7d']
  | field :: next :: rest => field.line ++ ',' :: lines (next :: rest)

theorem skipSpace_line (field : WrittenField) (rest : List Char) :
    skipSpace (field.line ++ rest) = quote field.name ++ ':' :: ' ' :: (field.text ++ rest) := by
  have hline : field.line ++ rest =
      '\n' :: ' ' :: ' ' :: (quote field.name ++ ':' :: ' ' :: (field.text ++ rest)) := by
    simp only [line, List.cons_append, List.nil_append, List.append_assoc]
  rw [hline, quote_append]
  rfl

theorem readValue_text (field : WrittenField) (fuel : Nat) {rest : List Char}
    (hrest : EndsNumber rest) :
    readValue (fuel + 1) (' ' :: (field.text ++ rest)) = some (field.tree, rest) := by
  have hspace : skipSpace (' ' :: (field.text ++ rest)) = skipSpace (field.text ++ rest) := rfl
  rw [← readValue_skipSpace, hspace, readValue_skipSpace, field.reads fuel rest hrest]

theorem readFields_line_last (field : WrittenField) (fuel : Nat) (rest : List Char) :
    readFields (fuel + 2) (field.line ++ '\n' :: '\x7d' :: rest) = some ([field.parts], rest) := by
  have hvalue := field.readValue_text fuel (.line ('\x7d' :: rest))
  rw [← readFields_skipSpace, skipSpace_line]
  exact readFields_last hvalue rfl

theorem readFields_line_comma (field : WrittenField) {fuel : Nat} {next rest : List Char}
    {fields : List (List Piece × Tree)} (hnext : readFields (fuel + 1) next = some (fields, rest)) :
    readFields (fuel + 2) (field.line ++ ',' :: next) = some (field.parts :: fields, rest) := by
  rw [← readFields_skipSpace, skipSpace_line]
  exact readFields_comma (field.readValue_text fuel (.comma next)) hnext

/-- Fields on lines are read back up to the closing brace. -/
theorem readFields_lines {fields : List WrittenField} (hne : fields ≠ []) {fuel : Nat}
    (hfuel : fields.length < fuel) (rest : List Char) :
    readFields fuel (lines fields ++ rest) = some (fields.map parts, rest) := by
  induction fields generalizing fuel with
  | nil => exact absurd rfl hne
  | cons field fields ih =>
      obtain ⟨fuel, rfl⟩ : ∃ smaller, fuel = smaller + 2 :=
        ⟨fuel - 2, by rw [List.length_cons] at hfuel; omega⟩
      cases fields with
      | nil =>
          rw [lines, List.append_assoc]
          exact field.readFields_line_last fuel rest
      | cons next fields =>
          have hnext := ih (List.cons_ne_nil next fields) (Nat.lt_of_succ_lt_succ hfuel)
          rw [lines, List.append_assoc, List.cons_append]
          exact field.readFields_line_comma hnext

theorem length_le_length_lines (fields : List WrittenField) :
    fields.length ≤ (lines fields).length := by
  induction fields with
  | nil => exact Nat.zero_le _
  | cons field fields ih =>
      cases fields with
      | nil => simp [lines]
      | cons next fields =>
          rw [lines, List.length_append, List.length_cons, List.length_cons (a := ',')]
          omega

theorem exists_lines_eq (field : WrittenField) (fields : List WrittenField) :
    ∃ rest, lines (field :: fields) = field.line ++ rest := by
  cases fields <;> exact ⟨_, rfl⟩

theorem head?_skipSpace_lines {fields : List WrittenField} (hne : fields ≠ []) :
    (skipSpace (lines fields)).head? = some '"' := by
  obtain ⟨field, fields, rfl⟩ := List.exists_cons_of_ne_nil hne
  obtain ⟨rest, hrest⟩ := exists_lines_eq field fields
  rw [hrest, skipSpace_line]
  rfl

theorem ofText?_lines {fields : List WrittenField} (hne : fields ≠ []) :
    Tree.ofText? ('\x7b' :: lines fields) = some (.object (fields.map parts)) := by
  have hlength := length_le_length_lines fields
  have hread : readFields (2 * (lines fields).length + 3) (lines fields ++ []) =
      some (fields.map parts, []) := readFields_lines hne (by omega) []
  rw [List.append_nil] at hread
  have hvalue : readValue (2 * ('\x7b' :: lines fields).length + 2) ('\x7b' :: lines fields) =
      some (.object (fields.map parts), []) :=
    readValue_object (head?_skipSpace_lines hne) hread
  rw [Tree.ofText?, hvalue]
  rfl

end WrittenField

end ObjectQuery.Json
