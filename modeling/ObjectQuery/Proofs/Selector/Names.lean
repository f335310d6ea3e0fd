import ObjectQuery.Proofs.Selector.Characters
import ObjectQuery.Proofs.Selector.Rules
/-!
# Names as they are written

The text of a name, of a series of names and of a property path. Such a text is read back where it
ends, and reading it in front of any other text takes at least all of it.
-/

namespace ObjectQuery.Selector

open Grammar

def IsBlank (text : List Char) : Prop :=
  ∀ c ∈ text, Text.isBlank c = true

/-- A name, which starts like one and goes on with name characters. -/
def IsName (text : List Char) : Prop :=
  ∃ c rest, text = c :: rest ∧ isNameStart c = true ∧ ∀ d ∈ rest, isNameChar d = true

def behind (separator : Char) (names : List String) : List Char :=
  names.flatMap fun name => separator :: name.toList

/-- A text with which a series of names does not go on. -/
def EndsNames (separator : Char) (text : List Char) : Prop :=
  Stops isNameChar text ∧ ∀ rest, text = separator :: rest → Stops isNameStart rest

def IsPropertyPath (text : List Char) : Prop :=
  ∃ (first : String) (others : List String),
    text = first.toList ++ behind '.' others ∧ ∀ name ∈ first :: others, IsName name.toList

/-! ## Names -/

theorem IsBlank.nil : IsBlank [] := by
  simp [IsBlank]

theorem IsBlank.append {first second : List Char} (hfirst : IsBlank first)
    (hsecond : IsBlank second) : IsBlank (first ++ second) :=
  fun c hc => (List.mem_append.1 hc).elim (hfirst c) (hsecond c)

theorem IsName.isNameChar {text : List Char} (h : IsName text) :
    ∀ c ∈ text, isNameChar c = true := by
  obtain ⟨c, rest, rfl, hc, hrest⟩ := h
  exact List.forall_mem_cons.2 ⟨isNameChar_of_isNameStart hc, hrest⟩

theorem IsName.exists_cons {text : List Char} (h : IsName text) :
    ∃ c rest, text = c :: rest ∧ isNameStart c = true := by
  obtain ⟨c, rest, rfl, hc, -⟩ := h
  exact ⟨c, rest, rfl, hc⟩

theorem read_blank_iff {text taken rest : List Char} :
    blank.read text = some (taken, rest) ↔
      text = taken ++ rest ∧ IsBlank taken ∧ Stops Text.isBlank rest :=
  Peg.read_run_iff

theorem read_blank {taken rest : List Char} (htaken : IsBlank taken)
    (hrest : Stops Text.isBlank rest) : blank.read (taken ++ rest) = some (taken, rest) := by
  apply read_blank_iff.2
  exact ⟨rfl, htaken, hrest⟩

theorem read_identifier_iff {text rest : List Char} {name : String} :
    identifier.read text = some (name, rest) ↔
      text = name.toList ++ rest ∧ IsName name.toList ∧ Stops isNameChar rest := by
  unfold identifier
  rw [Peg.read_named, Peg.read_map_iff]
  constructor
  · rintro ⟨⟨c, tail⟩, hseq, rfl⟩
    obtain ⟨middle, hfirst, hsecond⟩ := Peg.read_seq_iff.1 hseq
    obtain ⟨rfl, hc⟩ := Peg.read_satisfy_iff.1 hfirst
    obtain ⟨rfl, htail, hrest⟩ := Peg.read_run_iff.1 hsecond
    rw [String.toList_ofList]
    exact ⟨rfl, ⟨c, tail, rfl, hc, htail⟩, hrest⟩
  · rintro ⟨rfl, ⟨c, tail, hname, hc, htail⟩, hrest⟩
    refine ⟨(c, tail), ?_, ?_⟩
    · rw [hname]
      exact Peg.read_seq (Peg.read_satisfy hc _) (Peg.read_run_iff.2 ⟨rfl, htail, hrest⟩)
    · show name = String.ofList (c :: tail)
      rw [← hname, String.ofList_toList]

theorem read_identifier {name : String} {rest : List Char} (hname : IsName name.toList)
    (hrest : Stops isNameChar rest) :
    identifier.read (name.toList ++ rest) = some (name, rest) := by
  apply read_identifier_iff.2
  exact ⟨rfl, hname, hrest⟩

theorem read_identifier_eq_none_iff {text : List Char} :
    identifier.read text = none ↔ Stops isNameStart text := by
  rw [identifier, Peg.read_named, Peg.read_map_eq_none_iff, Peg.read_seq_eq_none_iff,
    ← Peg.read_satisfy_eq_none_iff (V := Rule.Value)]
  constructor
  · intro h
    cases hread : (Peg.satisfy isNameStart : Grammar Char).read text with
    | none => rfl
    | some result =>
        have hrun := h result.1 result.2 hread
        cases hrun
  · intro h c middle hread
    rw [h] at hread
    cases hread

/-! ## Names behind separators -/

abbrev namesBehind (separator : Char) : Grammar (List String) :=
  .many (.dropLeft (.char separator) identifier)

theorem behind_cons (separator : Char) (name : String) (names : List String) :
    behind separator (name :: names) = separator :: (name.toList ++ behind separator names) := by
  simp [behind]

theorem read_behind_iff {separator : Char} {text rest : List Char} {name : String} :
    (Peg.dropLeft (.char separator) identifier).read text = some (name, rest) ↔
      text = separator :: (name.toList ++ rest) ∧ IsName name.toList ∧ Stops isNameChar rest := by
  rw [Peg.read_dropLeft_iff]
  constructor
  · rintro ⟨c, middle, hchar, hname⟩
    obtain ⟨rfl, -⟩ := Peg.read_char_iff.1 hchar
    obtain ⟨rfl, hparts⟩ := read_identifier_iff.1 hname
    exact ⟨rfl, hparts⟩
  · rintro ⟨rfl, hname, hrest⟩
    exact ⟨separator, _, Peg.read_char separator _, read_identifier hname hrest⟩

theorem read_behind_eq_none_iff {separator : Char} {text : List Char} :
    (Peg.dropLeft (.char separator) identifier).read text = none ↔
      ∀ rest, text = separator :: rest → Stops isNameStart rest := by
  rw [Peg.read_dropLeft_eq_none_iff]
  constructor
  · rintro h rest rfl
    exact read_identifier_eq_none_iff.1 (h separator rest (Peg.read_char separator rest))
  · intro h c rest hchar
    obtain ⟨rfl, -⟩ := Peg.read_char_iff.1 hchar
    exact read_identifier_eq_none_iff.2 (h rest rfl)

theorem stops_behind {separator : Char} (hseparator : isNameChar separator = false)
    (names : List String) {rest : List Char} (hrest : Stops isNameChar rest) :
    Stops isNameChar (behind separator names ++ rest) := by
  cases names with
  | nil => exact hrest
  | cons name names =>
      rw [behind_cons]
      exact Stops.cons_iff.2 hseparator

theorem read_namesBehind {separator : Char} (hseparator : isNameChar separator = false)
    {names : List String} {rest : List Char} (hnames : ∀ name ∈ names, IsName name.toList)
    (hrest : EndsNames separator rest) :
    (namesBehind separator).read (behind separator names ++ rest) = some (names, rest) := by
  induction names with
  | nil => exact Peg.read_many_of_none (read_behind_eq_none_iff.2 hrest.2)
  | cons name names ih =>
      obtain ⟨hname, hothers⟩ := List.forall_mem_cons.1 hnames
      have hstops := stops_behind hseparator names hrest.1
      rw [behind_cons, List.cons_append, List.append_assoc]
      exact Peg.read_many_of_some (dropLeft_char_identifier_consumes separator)
        (read_behind_iff.2 ⟨rfl, hname, hstops⟩) (ih hothers)

theorem eq_behind_of_read {separator : Char} {text rest : List Char} {names : List String}
    (htext : Stops isNameChar text)
    (hread : (namesBehind separator).read text = some (names, rest)) :
    text = behind separator names ++ rest ∧ (∀ name ∈ names, IsName name.toList) ∧
      EndsNames separator rest := by
  have hrounds := Peg.read_many_iff.1 hread
  clear hread
  induction hrounds with
  | stop hnone => exact ⟨rfl, by simp, htext, read_behind_eq_none_iff.1 hnone⟩
  | next hsome _ _ ih =>
      obtain ⟨rfl, hname, hmiddle⟩ := read_behind_iff.1 hsome
      obtain ⟨rfl, hnames, hends⟩ := ih hmiddle
      rw [behind_cons]
      exact ⟨by simp, List.forall_mem_cons.2 ⟨hname, hnames⟩, hends⟩

/-- A series of names is read up to where it does not go on. -/
theorem read_names_iff {separator : Char} (hseparator : isNameChar separator = false)
    {text rest : List Char} {first : String} {others : List String} :
    (Peg.seq identifier (namesBehind separator)).read text = some ((first, others), rest) ↔
      text = first.toList ++ (behind separator others ++ rest) ∧
        (∀ name ∈ first :: others, IsName name.toList) ∧ EndsNames separator rest := by
  rw [Peg.read_seq_iff]
  constructor
  · rintro ⟨middle, hfirst, hothers⟩
    obtain ⟨rfl, hname, hstops⟩ := read_identifier_iff.1 hfirst
    obtain ⟨rfl, hnames, hends⟩ := eq_behind_of_read hstops hothers
    exact ⟨rfl, List.forall_mem_cons.2 ⟨hname, hnames⟩, hends⟩
  · rintro ⟨rfl, hnames, hends⟩
    obtain ⟨hname, hothers⟩ := List.forall_mem_cons.1 hnames
    have hstops := stops_behind hseparator others hends.1
    exact ⟨_, read_identifier hname hstops, read_namesBehind hseparator hothers hends⟩

theorem read_names_eq_none_iff {separator : Char} {text : List Char} :
    (Peg.seq identifier (namesBehind separator)).read text = none ↔ Stops isNameStart text := by
  rw [Peg.read_seq_eq_none_iff, ← read_identifier_eq_none_iff]
  constructor
  · intro h
    cases hread : identifier.read text with
    | none => rfl
    | some result =>
        obtain ⟨names, rest, hnames⟩ :=
          Peg.exists_read_many (dropLeft_char_identifier_consumes separator) result.2
        have hnone := h result.1 result.2 hread
        rw [hnames] at hnone
        cases hnone
  · intro h name middle hread
    rw [h] at hread
    cases hread

theorem identifier_covers {name : List Char} (hname : IsName name) : identifier.Covers name := by
  obtain ⟨c, tail, rfl, hc, htail⟩ := hname
  intro text
  refine ⟨String.ofList (c :: tail ++ text.takeWhile isNameChar), text.dropWhile isNameChar, ?_,
    List.dropWhile_suffix _⟩
  rw [read_identifier_iff, String.toList_ofList, List.append_assoc,
    List.takeWhile_append_dropWhile]
  refine ⟨rfl, ⟨c, _, rfl, hc, ?_⟩, Stops.dropWhile isNameChar text⟩
  intro d hd
  rcases List.mem_append.1 hd with h | h
  · exact htail d h
  · exact List.mem_takeWhile_imp h

theorem names_covers {separator : Char} (hseparator : isNameChar separator = false)
    {first : String} {others : List String}
    (hnames : ∀ name ∈ first :: others, IsName name.toList) :
    (Peg.seq identifier (namesBehind separator)).Covers
      (first.toList ++ behind separator others) := by
  have hconsumes := dropLeft_char_identifier_consumes separator
  induction others generalizing first with
  | nil =>
      unfold behind
      rw [List.flatMap_nil, List.append_nil]
      exact .seq_left (identifier_covers (hnames first (by simp))) (Peg.exists_read_many hconsumes)
  | cons name names ih =>
      intro text
      obtain ⟨hfirst, hothers⟩ := List.forall_mem_cons.1 hnames
      obtain ⟨⟨longer, later⟩, rest, hread, hrest⟩ := ih hothers text
      obtain ⟨middle, hname, hlater⟩ := Peg.read_seq_iff.1 hread
      have hbehind : (Peg.dropLeft (.char separator) identifier).read
          (separator :: (name.toList ++ behind separator names ++ text)) =
            some (longer, middle) :=
        Peg.read_dropLeft (Peg.read_char separator _) hname
      have hmany := Peg.read_many_of_some hconsumes hbehind hlater
      rw [behind_cons, List.append_assoc, List.cons_append]
      refine ⟨(first, longer :: later), rest, ?_, hrest⟩
      exact Peg.read_seq (read_identifier hfirst (Stops.cons_iff.2 hseparator)) hmany

theorem read_propertyPath_iff {text rest : List Char} {path : String} :
    propertyPath.read text = some (path, rest) ↔
      text = path.toList ++ rest ∧ IsPropertyPath path.toList ∧ EndsNames '.' rest := by
  have hseparator : isNameChar '.' = false := by decide
  unfold propertyPath
  rw [Peg.read_named, Peg.read_map_iff]
  constructor
  · rintro ⟨⟨taken, first, others⟩, hconsumed, rfl⟩
    obtain ⟨hread, rfl⟩ := Peg.read_consumed_iff.1 hconsumed
    obtain ⟨rfl, hnames, hends⟩ := (read_names_iff hseparator).1 hread
    rw [← List.append_assoc, Reader.consumed_append, String.toList_ofList]
    exact ⟨rfl, ⟨first, others, rfl, hnames⟩, hends⟩
  · rintro ⟨rfl, ⟨first, others, hpath, hnames⟩, hends⟩
    refine ⟨(path.toList, (first, others)), ?_, (String.ofList_toList).symm⟩
    apply Peg.read_consumed
    rw [hpath, List.append_assoc]
    exact (read_names_iff hseparator).2 ⟨rfl, hnames, hends⟩

theorem read_propertyPath_eq_none_iff {text : List Char} :
    propertyPath.read text = none ↔ Stops isNameStart text := by
  rw [propertyPath, Peg.read_named, Peg.read_map_eq_none_iff, Peg.read_consumed_eq_none_iff,
    read_names_eq_none_iff]

end ObjectQuery.Selector
