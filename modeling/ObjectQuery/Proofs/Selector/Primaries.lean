import ObjectQuery.Proofs.Selector.Names
/-!
# Leading parts of filters as they are written

A path, an identifier or a property name is read back from its text in front of a character that
cannot continue it. In front of any other text a property name may turn into a path, which still
takes all of the name.
-/

namespace ObjectQuery

namespace Primary

def written : Primary → List Char
  | .path found => found.toText.toList
  | .identifier name => '#' :: name.toList
  | .propertyName name => name.toList

/-- Whether the leading part can be written: its names are names, and a path that does not start
with a slash has two of them. -/
def WellFormed : Primary → Prop
  | .path found =>
      (∀ segment ∈ found.segments, Selector.IsName segment.toList) ∧
        (found.absolute = false → 2 ≤ found.segments.length)
  | .identifier name => name.toList ≠ [] ∧ ∀ c ∈ name.toList, Selector.isNameChar c = true
  | .propertyName name => Selector.IsName name.toList

end Primary

namespace Selector

open Grammar

/-! ## Leading parts of filters -/

theorem toList_intercalate_slash (first : String) (others : List String) :
    ("/".intercalate (first :: others)).toList = first.toList ++ behind '/' others := by
  induction others generalizing first with
  | nil => simp [behind]
  | cons name names ih =>
      rw [String.intercalate_cons_cons, String.toList_append, String.toList_append, ih, behind_cons]
      simp

theorem written_root : (Primary.path ⟨[], true⟩).written = ['/'] := by
  simp [Primary.written, Path.toText]

theorem written_absolute (first : String) (others : List String) :
    (Primary.path ⟨first :: others, true⟩).written =
      '/' :: (first.toList ++ behind '/' others) := by
  simp only [Primary.written, Path.toText, if_true, String.toList_append, toList_intercalate_slash]
  rfl

theorem written_relative (first : String) (others : List String) :
    (Primary.path ⟨first :: others, false⟩).written = first.toList ++ behind '/' others := by
  unfold Primary.written Path.toText
  exact toList_intercalate_slash first others

theorem path_cases {path : Path} (h : (Primary.path path).WellFormed) :
    path = ⟨[], true⟩ ∨
    (∃ first others, path = ⟨first :: others, true⟩ ∧
      ∀ name ∈ first :: others, IsName name.toList) ∨
    ∃ first second others, path = ⟨first :: second :: others, false⟩ ∧
      ∀ name ∈ first :: second :: others, IsName name.toList := by
  obtain ⟨segments, absolute⟩ := path
  obtain ⟨hnames, hlength⟩ := h
  cases absolute with
  | true =>
      cases segments with
      | nil => exact Or.inl rfl
      | cons first others => exact Or.inr (Or.inl ⟨first, others, rfl, hnames⟩)
  | false =>
      have htwo := hlength rfl
      match segments with
      | [] => simp at htwo
      | [_] => simp at htwo
      | first :: second :: others => exact Or.inr (Or.inr ⟨first, second, others, rfl, hnames⟩)

theorem read_absolutePath_iff {text rest : List Char} {path : Path} :
    absolutePath.read text = some (path, rest) ↔
      (∃ first others, path = ⟨first :: others, true⟩ ∧
        text = '/' :: (first.toList ++ (behind '/' others ++ rest)) ∧
        (∀ name ∈ first :: others, IsName name.toList) ∧ EndsNames '/' rest) ∨
      path = ⟨[], true⟩ ∧ text = '/' :: rest ∧ Stops isNameStart rest := by
  have hseparator : isNameChar '/' = false := by decide
  unfold absolutePath
  rw [Peg.read_map_iff]
  constructor
  · rintro ⟨segments, hread, rfl⟩
    obtain ⟨c, middle, hchar, hsegments⟩ := Peg.read_dropLeft_iff.1 hread
    obtain ⟨rfl, -⟩ := Peg.read_char_iff.1 hchar
    rcases Peg.read_optional_iff.1 hsegments with ⟨names, rfl, hmap⟩ | ⟨rfl, rfl, hnone⟩
    · obtain ⟨⟨first, others⟩, hnames, rfl⟩ := Peg.read_map_iff.1 hmap
      obtain ⟨rfl, hparts⟩ := (read_names_iff hseparator).1 hnames
      exact Or.inl ⟨first, others, rfl, rfl, hparts⟩
    · exact Or.inr ⟨rfl, rfl, read_names_eq_none_iff.1 (Peg.read_map_eq_none_iff.1 hnone)⟩
  · rintro (⟨first, others, rfl, rfl, hparts⟩ | ⟨rfl, rfl, hstops⟩)
    · have hnames := (read_names_iff hseparator).2 ⟨rfl, hparts⟩
      refine ⟨some (first :: others), ?_, rfl⟩
      apply Peg.read_dropLeft (Peg.read_char '/' _)
      exact Peg.read_optional_present (Peg.read_map _ hnames)
    · refine ⟨none, ?_, rfl⟩
      apply Peg.read_dropLeft (Peg.read_char '/' _)
      apply Peg.read_optional_absent
      exact Peg.read_map_eq_none_iff.2 (read_names_eq_none_iff.2 hstops)

theorem read_relativePath_iff {text rest : List Char} {path : Path} :
    relativePath.read text = some (path, rest) ↔
      ∃ first second others, path = ⟨first :: second :: others, false⟩ ∧
        text = first.toList ++ (behind '/' (second :: others) ++ rest) ∧
        (∀ name ∈ first :: second :: others, IsName name.toList) ∧ EndsNames '/' rest := by
  have hseparator : isNameChar '/' = false := by decide
  unfold relativePath
  rw [Peg.read_map_iff]
  constructor
  · rintro ⟨⟨first, second, others⟩, hread, rfl⟩
    obtain ⟨middle, hfirst, hlater⟩ := Peg.read_seq_iff.1 hread
    obtain ⟨rfl, hname, -⟩ := read_identifier_iff.1 hfirst
    obtain ⟨c, tail, hchar, hnames⟩ := Peg.read_dropLeft_iff.1 hlater
    obtain ⟨rfl, -⟩ := Peg.read_char_iff.1 hchar
    obtain ⟨rfl, hothers, hends⟩ := (read_names_iff hseparator).1 hnames
    have htext : first.toList ++ '/' :: (second.toList ++ (behind '/' others ++ rest)) =
        first.toList ++ (behind '/' (second :: others) ++ rest) := by
      rw [behind_cons, List.cons_append, List.append_assoc]
    exact ⟨first, second, others, rfl, htext, List.forall_mem_cons.2 ⟨hname, hothers⟩, hends⟩
  · rintro ⟨first, second, others, rfl, rfl, hnames, hends⟩
    obtain ⟨hname, hothers⟩ := List.forall_mem_cons.1 hnames
    have hlater := (read_names_iff hseparator).2 ⟨rfl, hothers, hends⟩
    rw [behind_cons, List.cons_append, List.append_assoc]
    refine ⟨(first, second, others), ?_, rfl⟩
    apply Peg.read_seq (read_identifier hname (Stops.cons_iff.2 hseparator))
    exact Peg.read_dropLeft (Peg.read_char '/' _) hlater

/-- A text in front of which the leading part of a filter ends, and which starts with none. -/
def EndsPrimary (text : List Char) : Prop :=
  Stops (fun c => isNameChar c || c == '/' || c == '#') text

theorem EndsPrimary.stops {text : List Char} (h : EndsPrimary text) : Stops isNameChar text :=
  h.mono fun c hc => by simp [hc]

theorem EndsPrimary.stops_nameStart {text : List Char} (h : EndsPrimary text) :
    Stops isNameStart text :=
  h.stops.mono fun _ => isNameChar_of_isNameStart

theorem EndsPrimary.endsNames {text : List Char} (h : EndsPrimary text) : EndsNames '/' text := by
  refine ⟨h.stops, ?_⟩
  rintro rest rfl
  have hslash := h '/' (by simp)
  simp at hslash

/-- What is read as the leading part of a filter is that part as written. -/
theorem written_of_read_primary {text rest : List Char} {found : Primary}
    (h : primary.read text = some (found, rest)) :
    text = found.written ++ rest ∧ found.WellFormed := by
  rcases Peg.read_choice_iff.1 h with hpath | ⟨-, hother⟩
  · obtain ⟨path, hread, rfl⟩ := Peg.read_map_iff.1 hpath
    rcases Peg.read_choice_iff.1 hread with habsolute | ⟨-, hrelative⟩
    · rcases read_absolutePath_iff.1 habsolute with
        ⟨first, others, rfl, rfl, hnames, -⟩ | ⟨rfl, rfl, -⟩
      · rw [written_absolute, List.cons_append, List.append_assoc]
        exact ⟨rfl, hnames, by simp⟩
      · rw [written_root]
        exact ⟨rfl, by simp, by simp⟩
    · obtain ⟨first, second, others, rfl, rfl, hnames, -⟩ := read_relativePath_iff.1 hrelative
      rw [written_relative, List.append_assoc]
      exact ⟨rfl, hnames, by simp⟩
  · rcases Peg.read_choice_iff.1 hother with hidentifier | ⟨-, hproperty⟩
    · obtain ⟨name, hread, rfl⟩ := Peg.read_map_iff.1 hidentifier
      obtain ⟨c, middle, hchar, hmap⟩ := Peg.read_dropLeft_iff.1 hread
      obtain ⟨rfl, -⟩ := Peg.read_char_iff.1 hchar
      obtain ⟨taken, hrun, rfl⟩ := Peg.read_map_iff.1 hmap
      obtain ⟨rfl, hne, htaken, -⟩ := Peg.read_run1_iff.1 hrun
      rw [Primary.written, Primary.WellFormed, String.toList_ofList]
      exact ⟨rfl, hne, htaken⟩
    · obtain ⟨name, hread, rfl⟩ := Peg.read_map_iff.1 hproperty
      obtain ⟨rfl, hname, -⟩ := read_identifier_iff.1 hread
      exact ⟨rfl, hname⟩

theorem read_primary_of_path {text rest : List Char} {found : Path}
    (h : path.read text = some (found, rest)) :
    primary.read text = some (.path found, rest) :=
  Peg.read_choice_left _ (Peg.read_map _ h)

theorem read_primary_of_identifierFilter {text rest : List Char} {name : String}
    (hpath : path.read text = none) (h : identifierFilter.read text = some (name, rest)) :
    primary.read text = some (.identifier name, rest) := by
  apply Peg.read_choice_right (Peg.read_map_eq_none_iff.2 hpath)
  exact Peg.read_choice_left _ (Peg.read_map _ h)

theorem read_primary_of_propertyName {text rest : List Char} {name : String}
    (hpath : path.read text = none) (hidentifier : identifierFilter.read text = none)
    (h : propertyName.read text = some (name, rest)) :
    primary.read text = some (.propertyName name, rest) := by
  apply Peg.read_choice_right (Peg.read_map_eq_none_iff.2 hpath)
  apply Peg.read_choice_right (Peg.read_map_eq_none_iff.2 hidentifier)
  exact Peg.read_map _ h

theorem char_dropLeft_eq_none {α : Type} {expected c : Char} {rest : List Char}
    (item : Grammar α) (hc : c ≠ expected) :
    (Peg.dropLeft (.char expected) item).read (c :: rest) = none := by
  rw [Peg.read_dropLeft_eq_none_iff]
  intro d middle hread
  obtain ⟨heq, -⟩ := Peg.read_char_iff.1 hread
  exact absurd (List.cons.inj heq).1 hc

theorem IsName.absolutePath_eq_none {name : List Char} (h : IsName name) (text : List Char) :
    absolutePath.read (name ++ text) = none := by
  obtain ⟨c, rest, rfl, hc⟩ := h.exists_cons
  have hslash : c ≠ '/' := by
    rintro rfl
    simp [isNameStart] at hc
  exact Peg.read_map_eq_none_iff.2 (char_dropLeft_eq_none _ hslash)

theorem IsName.identifierFilter_eq_none {name : List Char} (h : IsName name) (text : List Char) :
    identifierFilter.read (name ++ text) = none := by
  obtain ⟨c, rest, rfl, hc⟩ := h.exists_cons
  have hhash : c ≠ '#' := by
    rintro rfl
    simp [isNameStart] at hc
  exact char_dropLeft_eq_none _ hhash

theorem path_eq_none_of_hash (text : List Char) : path.read ('#' :: text) = none := by
  apply Peg.read_choice_eq_none_iff.2
  constructor
  · exact Peg.read_map_eq_none_iff.2 (char_dropLeft_eq_none _ (by decide))
  · unfold relativePath
    rw [Peg.read_map_eq_none_iff, Peg.read_seq_eq_none_iff]
    intro name middle hread
    rw [read_identifier_eq_none_iff.2 (Stops.cons_iff.2 (by decide))] at hread
    cases hread

/-- The leading part of a filter is read back in front of a text that does not continue it. -/
theorem read_primary {found : Primary} {rest : List Char} (h : found.WellFormed)
    (hrest : EndsPrimary rest) :
    primary.read (found.written ++ rest) = some (found, rest) := by
  cases found with
  | path found =>
      apply read_primary_of_path
      rcases path_cases h with rfl | ⟨first, others, rfl, hnames⟩ |
        ⟨first, second, others, rfl, hnames⟩
      · rw [written_root]
        apply Peg.read_choice_left
        exact read_absolutePath_iff.2 (Or.inr ⟨rfl, rfl, hrest.stops_nameStart⟩)
      · rw [written_absolute, List.cons_append, List.append_assoc]
        apply Peg.read_choice_left
        exact read_absolutePath_iff.2 (Or.inl ⟨first, others, rfl, rfl, hnames, hrest.endsNames⟩)
      · rw [written_relative, List.append_assoc]
        apply Peg.read_choice_right ((hnames first (by simp)).absolutePath_eq_none _)
        exact read_relativePath_iff.2 ⟨first, second, others, rfl, rfl, hnames, hrest.endsNames⟩
  | identifier name =>
      obtain ⟨hne, hname⟩ := h
      have hrun : (Peg.map String.ofList (.run1 isNameChar) : Grammar String).read
          (name.toList ++ rest) = some (name, rest) := by
        apply Peg.read_map_iff.2
        exact ⟨name.toList, Peg.read_run1 hne hname hrest.stops, String.ofList_toList.symm⟩
      have hread : identifierFilter.read ('#' :: (name.toList ++ rest)) = some (name, rest) :=
        Peg.read_dropLeft (Peg.read_char '#' _) hrun
      exact read_primary_of_identifierFilter (path_eq_none_of_hash _) hread
  | propertyName name =>
      have hread : identifier.read (name.toList ++ rest) = some (name, rest) :=
        read_identifier h hrest.stops
      have hrelative : relativePath.read (name.toList ++ rest) = none := by
        unfold relativePath
        rw [Peg.read_map_eq_none_iff, Peg.read_seq_eq_none_iff]
        intro other middle hother
        rw [hread] at hother
        cases hother
        rw [Peg.read_dropLeft_eq_none_iff]
        intro c tail hchar
        obtain ⟨rfl, -⟩ := Peg.read_char_iff.1 hchar
        have hslash := hrest '/' (by simp)
        simp at hslash
      have hpath : path.read (name.toList ++ rest) = none :=
        Peg.read_choice_eq_none_iff.2 ⟨IsName.absolutePath_eq_none h _, hrelative⟩
      exact read_primary_of_propertyName hpath (IsName.identifierFilter_eq_none h _) hread

theorem exists_cons_written {found : Primary} (h : found.WellFormed) :
    ∃ c rest, found.written = c :: rest ∧ (c = '/' ∨ c = '#' ∨ isNameStart c = true) := by
  have hname : ∀ {name : List Char}, IsName name → ∀ tail, ∃ c rest, name ++ tail = c :: rest ∧
      (c = '/' ∨ c = '#' ∨ isNameStart c = true) := by
    intro name hname tail
    obtain ⟨c, rest, rfl, hc⟩ := hname.exists_cons
    exact ⟨c, rest ++ tail, rfl, Or.inr (Or.inr hc)⟩
  cases found with
  | path found =>
      rcases path_cases h with rfl | ⟨first, others, rfl, -⟩ | ⟨first, second, others, rfl, hnames⟩
      · rw [written_root]
        exact ⟨'/', [], rfl, Or.inl rfl⟩
      · rw [written_absolute]
        exact ⟨'/', _, rfl, Or.inl rfl⟩
      · rw [written_relative]
        exact hname (hnames first (by simp)) _
  | identifier name => exact ⟨'#', _, rfl, Or.inr (Or.inl rfl)⟩
  | propertyName name =>
      rw [← List.append_nil (Primary.propertyName name).written]
      exact hname h []

theorem read_primary_eq_none {text : List Char} (h : EndsPrimary text) :
    primary.read text = none := by
  cases hread : primary.read text with
  | none => rfl
  | some result =>
      obtain ⟨found, rest⟩ := result
      obtain ⟨rfl, hfound⟩ := written_of_read_primary hread
      obtain ⟨c, tail, hwritten, hc⟩ := exists_cons_written hfound
      rw [hwritten] at h
      rcases hc with rfl | rfl | hc
      · exact absurd (h '/' rfl) (by decide)
      · exact absurd (h '#' rfl) (by decide)
      · rw [h.stops_nameStart c rfl] at hc
        cases hc

theorem path_covers {found : Path} (h : (Primary.path found).WellFormed) :
    path.Covers (Primary.path found).written := by
  have hslash : isNameChar '/' = false := by decide
  rcases path_cases h with rfl | ⟨first, others, rfl, hnames⟩ |
    ⟨first, second, others, rfl, hnames⟩
  · rw [written_root]
    exact .choice_left _ <| .map <| .map <| .seq_left (.char '/') (Peg.exists_read_optional _)
  · rw [written_absolute]
    have hsegments : (Peg.seq identifier segments).Covers (first.toList ++ behind '/' others) :=
      names_covers hslash hnames
    exact .choice_left _ <| .map <| .dropLeft_char '/' <| .optional <| .map hsegments
  · rw [written_relative, behind_cons]
    obtain ⟨hfirst, hothers⟩ := List.forall_mem_cons.1 hnames
    have hsegments : (Peg.seq identifier segments).Covers (second.toList ++ behind '/' others) :=
      names_covers hslash hothers
    have hread : ∀ text, identifier.read
        (first.toList ++ ('/' :: (second.toList ++ behind '/' others) ++ text)) =
          some (first, '/' :: (second.toList ++ behind '/' others) ++ text) :=
      fun text => read_identifier hfirst (Stops.cons_iff.2 hslash)
    have hrelative : relativePath.Covers
        (first.toList ++ '/' :: (second.toList ++ behind '/' others)) :=
      .map <| .seq_right hread <| .dropLeft_char '/' hsegments
    refine .choice_right (fun text => ?_) hrelative
    rw [List.append_assoc]
    exact hfirst.absolutePath_eq_none _

theorem primary_covers_name {name : List Char} (h : IsName name) : primary.Covers name := by
  intro text
  obtain ⟨longer, middle, hidentifier, hmiddle⟩ := identifier_covers h text
  cases hpath : path.read (name ++ text) with
  | none =>
      exact ⟨_, middle, read_primary_of_propertyName hpath (h.identifierFilter_eq_none text)
        hidentifier, hmiddle⟩
  | some result =>
      obtain ⟨found, rest⟩ := result
      refine ⟨_, rest, read_primary_of_path hpath, ?_⟩
      rcases Peg.read_choice_iff.1 hpath with habsolute | ⟨-, hrelative⟩
      · rw [h.absolutePath_eq_none] at habsolute
        cases habsolute
      · obtain ⟨⟨first, parts⟩, hseq, -⟩ := Peg.read_map_iff.1 hrelative
        obtain ⟨between, hfirst, hparts⟩ := Peg.read_seq_iff.1 hseq
        rw [hidentifier] at hfirst
        cases hfirst
        exact (Peg.read_suffix _ hparts).trans hmiddle

theorem primary_covers {found : Primary} (h : found.WellFormed) :
    primary.Covers found.written := by
  cases found with
  | path found => exact .choice_left _ (.map (path_covers h))
  | identifier name =>
      obtain ⟨hne, hname⟩ := h
      have hidentifier : identifierFilter.Covers ('#' :: name.toList) :=
        .dropLeft_char '#' <| .map <| .run1 hne hname
      refine .choice_right (fun text => ?_) (.choice_left _ (.map hidentifier))
      exact Peg.read_map_eq_none_iff.2 (path_eq_none_of_hash _)
  | propertyName name => exact primary_covers_name h

end Selector

end ObjectQuery
