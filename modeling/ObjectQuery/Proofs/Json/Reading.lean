import ObjectQuery.Proofs.Json.Numerals
import ObjectQuery.Proofs.Json.Strings
/-!
# Compact text is read back

A value whose integers have at most 64 bits and whose objects are in order is what its compact text
denotes.
-/

namespace ObjectQuery.Json

/-! ## Canonical values -/

mutual

/-- Whether a value is one that text keeps: its integers have at most 64 bits and its objects list
their fields in ascending order. -/
def IsCanonical : Json → Prop
  | .integer i => isExactInteger i = true
  | .array items => AreCanonical items
  | .object fields => (fields.map Prod.fst).Pairwise (· < ·) ∧ HaveCanonical fields
  | _ => True

def AreCanonical : List Json → Prop
  | [] => True
  | item :: rest => IsCanonical item ∧ AreCanonical rest

def HaveCanonical : List (String × Json) → Prop
  | [] => True
  | (_, value) :: rest => IsCanonical value ∧ HaveCanonical rest

end

theorem insertField_of_lt {name : String} {value : Json} {sorted : List (String × Json)}
    (h : ∀ field ∈ sorted, field.1 < name) :
    insertField name value sorted = sorted ++ [(name, value)] := by
  induction sorted with
  | nil => rfl
  | cons field sorted ih =>
      obtain ⟨other, kept⟩ := field
      obtain ⟨hother, hsorted⟩ := List.forall_mem_cons.1 h
      have hne : name ≠ other := fun heq => String.lt_irrefl name (heq ▸ hother)
      have hlt : ¬ name < other := String.lt_asymm hother
      rw [insertField, if_neg hne, if_neg hlt, ih hsorted, List.cons_append]

theorem foldl_insertField {sorted fields : List (String × Json)}
    (h : ((sorted ++ fields).map Prod.fst).Pairwise (· < ·)) :
    fields.foldl (fun sorted (name, value) => insertField name value sorted) sorted =
      sorted ++ fields := by
  induction fields generalizing sorted with
  | nil => rw [List.foldl_nil, List.append_nil]
  | cons field fields ih =>
      obtain ⟨name, value⟩ := field
      have hlast : ∀ field ∈ sorted, field.1 < name := fun field hfield =>
        (List.pairwise_append.1 (List.pairwise_map.1 h)).2.2 field hfield (name, value)
          List.mem_cons_self
      rw [List.append_cons] at h ⊢
      rw [List.foldl_cons, ← ih h, ← insertField_of_lt hlast]

theorem ofFields_of_pairwise {fields : List (String × Json)}
    (h : (fields.map Prod.fst).Pairwise (· < ·)) : ofFields fields = .object fields := by
  rw [ofFields, foldl_insertField (by rwa [List.nil_append]), List.nil_append]

/-! ## Single values -/

namespace Tree

theorem skipSpace_cons {c : Char} (h : isSpace c = false) (rest : List Char) :
    skipSpace (c :: rest) = c :: rest := by
  simp [skipSpace, h]

theorem skipSpace_skipSpace (text : List Char) : skipSpace (skipSpace text) = skipSpace text := by
  induction text with
  | nil => rfl
  | cons c text ih =>
      by_cases hc : isSpace c = true
      · simpa [skipSpace, hc] using ih
      · simp [skipSpace, hc]

theorem readValue_skipSpace (fuel : Nat) (text : List Char) :
    readValue fuel (skipSpace text) = readValue fuel text := by
  cases fuel with
  | zero => rfl
  | succ fuel => rw [readValue, readValue, skipSpace_skipSpace]

theorem readFields_skipSpace (fuel : Nat) (text : List Char) :
    readFields fuel (skipSpace text) = readFields fuel text := by
  cases fuel with
  | zero => rfl
  | succ fuel => rw [readFields, readFields, skipSpace_skipSpace]

theorem readNumeral_eq_none {c : Char} (hminus : c ≠ '-') (hdigit : c.isDigit = false)
    (rest : List Char) : readNumeral (c :: rest) = none := by
  have hzero : c ≠ '0' := by
    rintro rfl
    cases hdigit
  simp [readNumeral, hminus, readWhole, hzero, Reader.takeWhile1, hdigit]

theorem exists_cons_of_readNumeral {text rest : List Char} {numeral : Numeral}
    (h : readNumeral text = some (numeral, rest)) :
    ∃ c tail, text = c :: tail ∧ ∀ mark, mark ≠ '-' → mark.isDigit = false → c ≠ mark := by
  obtain ⟨c, tail, rfl⟩ : ∃ c tail, text = c :: tail := by
    refine List.exists_cons_of_ne_nil ?_
    rintro rfl
    cases h
  refine ⟨c, tail, rfl, ?_⟩
  rintro mark hminus hdigit rfl
  rw [readNumeral_eq_none hminus hdigit] at h
  cases h

theorem readValue_of_readNumeral {text rest : List Char} {numeral : Numeral} (fuel : Nat)
    (h : readNumeral text = some (numeral, rest)) :
    readValue (fuel + 1) text = some (.number numeral, rest) := by
  obtain ⟨c, tail, rfl, hne⟩ := exists_cons_of_readNumeral h
  have hskip : skipSpace (c :: tail) = c :: tail := by
    refine skipSpace_cons ?_ tail
    simp [isSpace, hne]
  rw [readValue, hskip]
  split
  case h_7 => rw [Reader.map, h, Option.map_some]
  all_goals
    rename_i heq
    exact absurd (List.cons.inj heq).1 (hne _ (by decide) (by decide))

theorem readValue_quote (fuel : Nat) (s : String) (rest : List Char) :
    readValue (fuel + 1) (quote s ++ rest) =
      some (.string (s.toList.map writtenPiece), rest) := by
  simp (disch := decide) only [quote_append, readValue, skipSpace_cons, Reader.map,
    readString_flatMap_escapeChar, Option.map_some]

/-! ## Items and fields -/

theorem readValue_array {fuel : Nat} {c : Char} {text rest : List Char} {items : List Tree}
    (hspace : isSpace c = false) (hclose : c ≠ ']')
    (h : readItems fuel (c :: text) = some (items, rest)) :
    readValue (fuel + 1) ('[' :: c :: text) = some (.array items, rest) := by
  simp (disch := decide) only [readValue, skipSpace_cons]
  rw [skipSpace_cons hspace]
  split
  · rename_i heq
    exact absurd (List.cons.inj heq).1 hclose
  · rw [h]

theorem readValue_object {fuel : Nat} {text rest : List Char} {fields : List (List Piece × Tree)}
    (hquote : (skipSpace text).head? = some '"')
    (h : readFields fuel text = some (fields, rest)) :
    readValue (fuel + 1) ('\x7b' :: text) = some (.object fields, rest) := by
  obtain ⟨tail, htail⟩ := List.head?_eq_some_iff.1 hquote
  rw [← readFields_skipSpace, htail] at h
  simp (disch := decide) only [readValue, skipSpace_cons, htail]
  split
  · rename_i heq
    exact absurd (List.cons.inj heq).1 (by decide)
  · rw [h]

theorem readItems_last {fuel : Nat} {text rest : List Char} {item : Tree}
    (h : readValue fuel text = some (item, ']' :: rest)) :
    readItems (fuel + 1) text = some ([item], rest) := by
  simp (disch := decide) only [readItems, h, skipSpace_cons]

theorem readItems_comma {fuel : Nat} {text next rest : List Char} {item : Tree} {items : List Tree}
    (h : readValue fuel text = some (item, ',' :: next))
    (hnext : readItems fuel next = some (items, rest)) :
    readItems (fuel + 1) text = some (item :: items, rest) := by
  simp (disch := decide) only [readItems, h, skipSpace_cons, hnext]

theorem readFields_last {fuel : Nat} {name : String} {text after rest : List Char} {value : Tree}
    (h : readValue fuel text = some (value, after)) (hafter : skipSpace after = '\x7d' :: rest) :
    readFields (fuel + 1) (quote name ++ ':' :: text) =
      some ([(name.toList.map writtenPiece, value)], rest) := by
  simp (disch := decide) only [quote_append, readFields, skipSpace_cons,
    readString_flatMap_escapeChar, h, hafter]

theorem readFields_comma {fuel : Nat} {name : String} {text next rest : List Char} {value : Tree}
    {fields : List (List Piece × Tree)} (h : readValue fuel text = some (value, ',' :: next))
    (hnext : readFields fuel next = some (fields, rest)) :
    readFields (fuel + 1) (quote name ++ ':' :: text) =
      some ((name.toList.map writtenPiece, value) :: fields, rest) := by
  simp (disch := decide) only [quote_append, readFields, skipSpace_cons,
    readString_flatMap_escapeChar, h, hnext]

end Tree

/-! ## All values -/

open Json.Tree

variable {rest : List Char}

theorem exists_cons_compactChars (value : Json) :
    ∃ c tail, value.compactChars = c :: tail ∧ isSpace c = false ∧ c ≠ ']' := by
  cases value with
  | null => exact ⟨_, _, rfl, by decide, by decide⟩
  | bool value => cases value <;> exact ⟨_, _, rfl, by decide, by decide⟩
  | integer i =>
      have hread := readNumeral_integerText i .nil
      rw [List.append_nil] at hread
      obtain ⟨c, tail, htext, hne⟩ := exists_cons_of_readNumeral hread
      exact ⟨c, tail, htext, by simp [isSpace, hne], hne _ (by decide) (by decide)⟩
  | float x =>
      obtain ⟨numeral, hread, -⟩ := readNumeral_compactText x .nil
      rw [List.append_nil] at hread
      obtain ⟨c, tail, htext, hne⟩ := exists_cons_of_readNumeral hread
      exact ⟨c, tail, htext, by simp [isSpace, hne], hne _ (by decide) (by decide)⟩
  | string s => exact ⟨_, _, rfl, by decide, by decide⟩
  | array items => exact ⟨_, _, rfl, by decide, by decide⟩
  | object fields => exact ⟨_, _, rfl, by decide, by decide⟩

theorem exists_cons_compactItems {items : List Json} (h : items ≠ []) :
    ∃ c tail, compactItems items = c :: tail ∧ isSpace c = false ∧ c ≠ ']' := by
  obtain ⟨item, items, rfl⟩ := List.exists_cons_of_ne_nil h
  obtain ⟨c, tail, htext, hstart⟩ := exists_cons_compactChars item
  cases items with
  | nil => exact ⟨c, tail, htext, hstart⟩
  | cons next items =>
      exact ⟨c, _, by rw [compactItems, htext, List.cons_append], hstart⟩

theorem exists_cons_compactFields {fields : List (String × Json)} (h : fields ≠ []) :
    ∃ tail, compactFields fields = '"' :: tail := by
  obtain ⟨⟨name, value⟩, fields, rfl⟩ := List.exists_cons_of_ne_nil h
  cases fields <;> exact ⟨_, rfl⟩

-- A part of a value is shorter than the value by at least the character in front of it, so the fuel
-- that one step leaves is enough for the part.
mutual

/-- A value is read back from the front of a text, with as much fuel as it has characters. -/
theorem readValue_compactChars (value : Json) (h : value.IsCanonical) (fuel : Nat)
    (hfuel : value.compactChars.length ≤ fuel) {rest : List Char} (hrest : EndsNumber rest) :
    ∃ tree, readValue fuel (value.compactChars ++ rest) = some (tree, rest) ∧
      tree.toJson? = some value := by
  -- no value has an empty text, so there is fuel for one step
  obtain ⟨fuel, rfl⟩ : ∃ smaller, fuel = smaller + 1 := by
    obtain ⟨c, tail, htext, -⟩ := exists_cons_compactChars value
    rw [htext, List.length_cons] at hfuel
    exact ⟨fuel - 1, by omega⟩
  cases value with
  | null => exact ⟨.null, rfl, rfl⟩
  | bool value => cases value <;> exact ⟨.bool _, rfl, rfl⟩
  | integer i =>
      exact ⟨_, readValue_of_readNumeral fuel (readNumeral_integerText i hrest),
        toJson?_integerText h⟩
  | float x =>
      obtain ⟨numeral, hread, hvalue⟩ := readNumeral_compactText x hrest
      exact ⟨_, readValue_of_readNumeral fuel hread, hvalue⟩
  | string s =>
      refine ⟨_, readValue_quote fuel s rest, ?_⟩
      rw [Tree.toJson?, Piece.toString?_map_writtenPiece, Option.map_some]
  | array items =>
      by_cases hitems : items = []
      · subst hitems
        exact ⟨.array [], rfl, rfl⟩
      · have hlength : (compactItems items).length + 1 ≤ fuel := by
          simpa [compactChars] using hfuel
        obtain ⟨trees, hread, hvalues⟩ := readItems_compactItems items h hitems fuel hlength rest
        obtain ⟨c, tail, htext, hspace, hclose⟩ := exists_cons_compactItems hitems
        rw [htext, List.cons_append] at hread
        refine ⟨.array trees, ?_, ?_⟩
        · rw [compactChars, htext, List.append_assoc]
          exact readValue_array hspace hclose hread
        · rw [Tree.toJson?, hvalues, Option.map_some]
  | object fields =>
      by_cases hfields : fields = []
      · subst hfields
        exact ⟨.object [], rfl, rfl⟩
      · have hlength : (compactFields fields).length + 1 ≤ fuel := by
          simpa [compactChars] using hfuel
        obtain ⟨trees, hread, hvalues⟩ :=
          readFields_compactFields fields h.2 hfields fuel hlength rest
        obtain ⟨tail, htext⟩ := exists_cons_compactFields hfields
        rw [htext, List.cons_append] at hread
        refine ⟨.object trees, ?_, ?_⟩
        · rw [compactChars, htext, List.append_assoc]
          exact readValue_object rfl hread
        · rw [Tree.toJson?, hvalues, Option.map_some, ofFields_of_pairwise h.1]

theorem readItems_compactItems (items : List Json) (h : AreCanonical items) (hne : items ≠ [])
    (fuel : Nat) (hfuel : (compactItems items).length + 1 ≤ fuel) (rest : List Char) :
    ∃ trees, readItems fuel (compactItems items ++ ']' :: rest) = some (trees, rest) ∧
      toItems? trees = some items := by
  obtain ⟨fuel, rfl⟩ : ∃ smaller, fuel = smaller + 1 := ⟨fuel - 1, by omega⟩
  match items with
  | [] => exact absurd rfl hne
  | [item] =>
      rw [compactItems] at hfuel ⊢
      obtain ⟨tree, hread, hvalue⟩ :=
        readValue_compactChars item h.1 fuel (by omega) (.bracket rest)
      exact ⟨[tree], readItems_last hread, by rw [toItems?, toItems?, hvalue]⟩
  | item :: next :: items =>
      rw [compactItems, List.length_append, List.length_cons] at hfuel
      obtain ⟨tree, hread, hvalue⟩ := readValue_compactChars item h.1 fuel
        (by omega) (.comma (compactItems (next :: items) ++ ']' :: rest))
      obtain ⟨trees, hreads, hvalues⟩ := readItems_compactItems (next :: items) h.2
        (List.cons_ne_nil _ _) fuel (by omega) rest
      refine ⟨tree :: trees, ?_, by rw [toItems?, hvalue, hvalues]⟩
      rw [compactItems, List.append_assoc, List.cons_append]
      exact readItems_comma hread hreads

theorem readFields_compactFields (fields : List (String × Json)) (h : HaveCanonical fields)
    (hne : fields ≠ []) (fuel : Nat) (hfuel : (compactFields fields).length + 1 ≤ fuel)
    (rest : List Char) :
    ∃ trees, readFields fuel (compactFields fields ++ '\x7d' :: rest) = some (trees, rest) ∧
      toFields? trees = some fields := by
  obtain ⟨fuel, rfl⟩ : ∃ smaller, fuel = smaller + 1 := ⟨fuel - 1, by omega⟩
  match fields with
  | [] => exact absurd rfl hne
  | [(name, value)] =>
      rw [compactFields, List.length_append, List.length_cons] at hfuel
      obtain ⟨tree, hread, hvalue⟩ :=
        readValue_compactChars value h.1 fuel (by omega) (.brace rest)
      refine ⟨[(name.toList.map writtenPiece, tree)], ?_, ?_⟩
      · rw [compactFields, List.append_assoc, List.cons_append]
        exact readFields_last hread (skipSpace_cons (by decide) rest)
      · rw [toFields?, toFields?, Piece.toString?_map_writtenPiece, hvalue]
  | (name, value) :: next :: fields =>
      rw [compactFields, List.length_append, List.length_append, List.length_cons,
        List.length_cons] at hfuel
      obtain ⟨tree, hread, hvalue⟩ := readValue_compactChars value h.1 fuel
        (by omega) (.comma (compactFields (next :: fields) ++ '\x7d' :: rest))
      obtain ⟨trees, hreads, hvalues⟩ := readFields_compactFields (next :: fields) h.2
        (List.cons_ne_nil _ _) fuel (by omega) rest
      refine ⟨(name.toList.map writtenPiece, tree) :: trees, ?_, ?_⟩
      · rw [compactFields, List.append_assoc, List.append_assoc, List.cons_append]
        exact readFields_comma hread hreads
      · rw [toFields?, Piece.toString?_map_writtenPiece, hvalue, hvalues]

end

/-- A canonical value is what its compact text denotes. -/
theorem ofText?_compact {value : Json} (h : value.IsCanonical) :
    ofText? value.compact = some value := by
  obtain ⟨tree, hread, hvalue⟩ := readValue_compactChars value h
    (2 * value.compactChars.length + 2) (by omega) .nil
  rw [List.append_nil] at hread
  have htree : Tree.ofText? value.compactChars = some tree := by
    rw [Tree.ofText?, hread]
    rfl
  rw [ofText?, compact, String.toList_ofList, htree]
  exact hvalue

end ObjectQuery.Json
