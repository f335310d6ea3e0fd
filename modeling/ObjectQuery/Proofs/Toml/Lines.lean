import ObjectQuery.Proofs.Toml.Scalars
/-!
# TOML lines as written

A line with a plain key, an equals sign and a value puts the value into the root table.
-/

namespace ObjectQuery.Toml

def isPlainKey (key : String) : Bool :=
  !key.toList.isEmpty && key.toList.all isKeyChar

/-- A text stands for a value up to the end of a line. -/
structure ValueText (value : List Char) (item : Item) : Prop where
  skip : ∀ rest, skipSpace (value ++ '\n' :: rest) = value ++ '\n' :: rest
  read : ∀ rest, readValue (value ++ '\n' :: rest) = some (item, '\n' :: rest)

def line (key : String) (value : List Char) : List Char :=
  key.toList ++ ' ' :: '=' :: ' ' :: (value ++ ['\n'])

theorem four_le_length_line (key : String) (value : List Char) :
    4 ≤ (line key value).length := by
  simp only [line, List.length_append, List.length_cons]
  omega

theorem skipSpace_of_ne {c : Char} (hspace : c ≠ ' ') (htab : c ≠ '\t') (rest : List Char) :
    skipSpace (c :: rest) = c :: rest := by
  simp [skipSpace, isSpace, hspace, htab]

theorem valueText_quote (s : String) : ValueText (quote s) (.string s) where
  skip rest := by
    rw [quote, List.cons_append, List.cons_append]
    exact skipSpace_of_ne (by decide) (by decide) _
  read := readValue_quote s

theorem valueText_digitsOf {n : Nat} (h : n < 2 ^ 63) :
    ValueText (Decimal.digitsOf n) (.integer n) where
  skip rest := by
    obtain ⟨first, others, hdigits⟩ := List.exists_cons_of_ne_nil (Decimal.digitsOf_ne_nil n)
    have hfirst : first ∈ Decimal.digitsOf n := by simp [hdigits]
    rw [hdigits, List.cons_append]
    refine skipSpace_of_ne ?_ ?_ _
    · exact fun heq => not_mem_digitsOf (by decide) (heq ▸ hfirst)
    · exact fun heq => not_mem_digitsOf (by decide) (heq ▸ hfirst)
  read := readValue_digitsOf h

/-! ## Keys -/

section

variable {key : String}

theorem exists_cons_of_isPlainKey (hkey : isPlainKey key = true) :
    ∃ first others, key.toList = first :: others ∧ ∀ c, isKeyChar c = false → first ≠ c := by
  obtain ⟨hne, hall⟩ := Bool.and_eq_true_iff.1 hkey
  obtain ⟨first, others, htext⟩ := List.exists_cons_of_ne_nil
    (show key.toList ≠ [] by simpa using hne)
  refine ⟨first, others, htext, ?_⟩
  rintro c hc rfl
  rw [htext, List.all_cons, hc] at hall
  cases hall

theorem readKeyPart_of_isPlainKey (hkey : isPlainKey key = true) (rest : List Char) :
    readKeyPart (key.toList ++ ' ' :: rest) = some (key, ' ' :: rest) := by
  obtain ⟨hne, hall⟩ := Bool.and_eq_true_iff.1 hkey
  have hrun : Reader.takeWhile1 isKeyChar (key.toList ++ ' ' :: rest) =
      some (key.toList, ' ' :: rest) := by
    refine Reader.takeWhile1_append (by simpa using hne) (List.all_eq_true.1 hall) ?_
    rintro c ⟨⟩
    decide
  have hmap : Reader.map String.ofList (Reader.takeWhile1 isKeyChar)
      (key.toList ++ ' ' :: rest) = some (key, ' ' :: rest) := by
    simp [Reader.map, hrun]
  obtain ⟨first, others, htext, hfirst⟩ := exists_cons_of_isPlainKey hkey
  rw [htext, List.cons_append] at hmap ⊢
  rw [readKeyPart]
  · exact hmap
  · exact fun _ heq => hfirst '"' (by decide) (List.cons.inj heq).1
  · exact fun _ heq => hfirst '\'' (by decide) (List.cons.inj heq).1

theorem readKey_of_isPlainKey (hkey : isPlainKey key = true) (rest : List Char) :
    readKey (key.toList ++ ' ' :: '=' :: rest) = some ([key], '=' :: rest) := by
  have hpart := readKeyPart_of_isPlainKey hkey ('=' :: rest)
  obtain ⟨first, others, htext, hfirst⟩ := exists_cons_of_isPlainKey hkey
  have hskip := skipSpace_of_ne (hfirst ' ' (by decide)) (hfirst '\t' (by decide))
    (others ++ ' ' :: '=' :: rest)
  have hequals : skipSpace (' ' :: '=' :: rest) = '=' :: rest := rfl
  rw [htext, List.cons_append] at hpart ⊢
  rw [readKey, maxDepth, readParts]
  simp only [hskip, hpart, hequals]
  simp

end

/-! ## Entries -/

section

variable {key : String} {value : List Char} {item : Item}

theorem skipTrivia_line (hkey : isPlainKey key = true) (value rest : List Char) :
    skipTrivia false (line key value ++ rest) = some (line key value ++ rest) := by
  obtain ⟨first, others, htext, hfirst⟩ := exists_cons_of_isPlainKey hkey
  simp [line, htext, skipTrivia, isSpace, hfirst '\n' (by decide), hfirst '\r' (by decide),
    hfirst ' ' (by decide), hfirst '\t' (by decide), hfirst '#' (by decide)]

theorem readLineOf_line (hkey : isPlainKey key = true) (hvalue : ValueText value item)
    (rest : List Char) :
    readLineOf (line key value ++ rest) = some (.entry [key] item, '\n' :: rest) := by
  have hline : line key value ++ rest =
      key.toList ++ ' ' :: '=' :: ' ' :: (value ++ '\n' :: rest) := by
    simp [line]
  have hspace : skipSpace (' ' :: (value ++ '\n' :: rest)) = value ++ '\n' :: rest :=
    hvalue.skip rest
  have hread := readKey_of_isPlainKey hkey (' ' :: (value ++ '\n' :: rest))
  obtain ⟨first, others, htext, hfirst⟩ := exists_cons_of_isPlainKey hkey
  rw [hline]
  rw [htext, List.cons_append] at hread ⊢
  rw [readLineOf, hread]
  · simp only [hspace, Reader.map, hvalue.read rest, Option.map_some]
  · exact fun _ heq => hfirst '[' (by decide) (List.cons.inj heq).1
  · exact fun _ heq => hfirst '[' (by decide) (List.cons.inj heq).1

theorem set_of_lookup_eq_none {entries : Entries} (hnew : entries.lookup key = none) :
    Entries.set key item entries = entries ++ [(key, item)] := by
  induction entries with
  | nil => rfl
  | cons entry others ih =>
      obtain ⟨other, kept⟩ := entry
      by_cases heq : key = other
      · subst heq
        rw [List.lookup_cons_self] at hnew
        cases hnew
      · have hothers : others.lookup key = none := by
          rwa [List.lookup_cons, beq_false_of_ne heq] at hnew
        rw [Entries.set, if_neg heq, ih hothers, List.cons_append]

theorem addLine_entry {origin : Origin} {entries : Entries} (hnew : entries.lookup key = none) :
    addLine [] (.table origin entries) (.entry [key] item) =
      some ([], .table origin (entries ++ [(key, item)])) := by
  simp [addLine, Entries.descend, Entries.addDotted, Entries.addValue, hnew,
    set_of_lookup_eq_none hnew]

/-- A line with a plain key and a value puts the value into the root table. -/
theorem readLines_line (hkey : isPlainKey key = true) (hvalue : ValueText value item)
    {entries : Entries} (hnew : entries.lookup key = none) (origin : Origin) (fuel : Nat)
    (rest : List Char) :
    readLines (fuel + 1) [] (.table origin entries) (line key value ++ rest) =
      readLines fuel [] (.table origin (entries ++ [(key, item)])) rest := by
  have hend : endLine false ('\n' :: rest) = some rest := rfl
  obtain ⟨first, others, htext, -⟩ := exists_cons_of_isPlainKey hkey
  have hne : line key value ++ rest ≠ [] := by simp [line]
  obtain ⟨c, behind, hcons⟩ := List.exists_cons_of_ne_nil hne
  have htrivia := skipTrivia_line hkey value rest
  have hline := readLineOf_line hkey hvalue rest
  rw [hcons] at htrivia hline ⊢
  simp only [readLines, htrivia, hline, hend, addLine_entry hnew]

theorem document?_line {text : String} {rest : List Char} (hkey : isPlainKey key = true)
    (htext : text.toList = line key value ++ rest) {entries : Entries}
    (hlines : readLines (text.toList.length + 1) [] (.table .header []) text.toList =
      some (.table .header entries)) : document? text = some entries := by
  obtain ⟨first, others, hfirst, hmark⟩ := exists_cons_of_isPlainKey hkey
  obtain ⟨behind, hcons⟩ : ∃ behind, text.toList = first :: behind := by
    rw [htext, line, hfirst]
    exact ⟨_, rfl⟩
  have hfirst : first ≠ '\uFEFF' := hmark _ (by decide)
  rw [hcons] at hlines
  unfold document?
  rw [hcons]
  split
  · rename_i heq
    exact absurd (List.cons.inj heq).1 hfirst
  · dsimp only
    rw [hlines]

end

end ObjectQuery.Toml
