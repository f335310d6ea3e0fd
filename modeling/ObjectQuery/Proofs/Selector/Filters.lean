import ObjectQuery.Proofs.Selector.Brackets
import ObjectQuery.Proofs.Selector.Primaries
/-!
# Selectors as they are written

The text of a filter is its leading part and the texts of its attribute filters. The text of a
selector is that of its filters with commas and white space between them. `parse` takes these texts
and no others.
-/

namespace ObjectQuery

namespace Filter

def written (filter : Filter) : List Char :=
  filter.primary.elim [] Primary.written ++ filter.attributes.flatMap fun found => found.text.toList

def WellFormed (filter : Filter) : Prop :=
  (∀ found ∈ filter.primary, found.WellFormed) ∧ ∀ found ∈ filter.attributes, found.WellFormed

end Filter

namespace Selector

open Grammar

/-- The texts of filters that each follow a comma. -/
inductive CommaText : List Char → List Filter → Prop
  | none : CommaText [] []
  | next {before after rest : List Char} {filter : Filter} {filters : List Filter}
      (hbefore : IsBlank before) (hafter : IsBlank after) (hfilter : filter.WellFormed)
      (hrest : CommaText rest filters) :
      CommaText (before ++ ',' :: (after ++ (filter.written ++ rest))) (filter :: filters)

inductive SelectorText : List Char → Selector → Prop
  | intro {rest : List Char} {filter : Filter} {filters : List Filter}
      (hfilter : filter.WellFormed) (hrest : CommaText rest filters) :
      SelectorText (filter.written ++ rest) ⟨filter :: filters⟩

/-- A text in front of which a filter ends. -/
def EndsFilter (text : List Char) : Prop :=
  ∀ c ∈ text.head?, c = ',' ∨ Text.isBlank c = true

/-! ## Attribute filters in a row -/

theorem exists_cons_of_wellFormed {found : AttributeFilter} (h : found.WellFormed) :
    ∃ rest, found.text.toList = '[' :: rest := by
  obtain ⟨lead, condition, htext, -⟩ := h
  exact ⟨_, htext⟩

theorem read_attributeFilter_eq_none {text : List Char} (h : ∀ rest, text ≠ '[' :: rest) :
    attributeFilter.read text = none := by
  cases hread : attributeFilter.read text with
  | none => rfl
  | some result =>
      obtain ⟨found, rest⟩ := result
      obtain ⟨rfl, hfound⟩ := read_attributeFilter_iff.1 hread
      obtain ⟨tail, htail⟩ := exists_cons_of_wellFormed hfound
      rw [htail] at h
      exact absurd rfl (h (tail ++ rest))

theorem wellFormed_of_read_attributes {text rest : List Char} {found : List AttributeFilter}
    (h : (Peg.many attributeFilter).read text = some (found, rest)) :
    text = (found.flatMap fun filter => filter.text.toList) ++ rest ∧
      ∀ filter ∈ found, filter.WellFormed := by
  have hrounds := Peg.read_many_iff.1 h
  clear h
  induction hrounds with
  | stop _ => exact ⟨rfl, by simp⟩
  | next hread _ _ ih =>
      obtain ⟨rfl, hfilter⟩ := read_attributeFilter_iff.1 hread
      obtain ⟨rfl, hfilters⟩ := ih
      exact ⟨by simp, List.forall_mem_cons.2 ⟨hfilter, hfilters⟩⟩

theorem read_attributes {found : List AttributeFilter} {rest : List Char}
    (h : ∀ filter ∈ found, filter.WellFormed) (hrest : ∀ tail, rest ≠ '[' :: tail) :
    (Peg.many attributeFilter).read ((found.flatMap fun filter => filter.text.toList) ++ rest) =
      some (found, rest) := by
  induction found with
  | nil => exact Peg.read_many_of_none (read_attributeFilter_eq_none hrest)
  | cons filter found ih =>
      obtain ⟨hfilter, hfound⟩ := List.forall_mem_cons.1 h
      rw [List.flatMap_cons, List.append_assoc]
      exact Peg.read_many_of_some attributeFilter_consumes (read_attributeFilter hfilter _)
        (ih hfound)

theorem attributes_covers {found : List AttributeFilter}
    (h : ∀ filter ∈ found, filter.WellFormed) :
    (Peg.many attributeFilter).Covers (found.flatMap fun filter => filter.text.toList) := by
  induction found with
  | nil => exact .many_nil attributeFilter_consumes
  | cons filter found ih =>
      obtain ⟨hfilter, hfound⟩ := List.forall_mem_cons.1 h
      rw [List.flatMap_cons]
      exact .many_next attributeFilter_consumes (fun text => read_attributeFilter hfilter _)
        (ih hfound)

/-! ## Filters -/

theorem endsPrimary_of_endsFilter {text : List Char} (h : EndsFilter text) : EndsPrimary text := by
  intro c hc
  rcases h c hc with rfl | hblank
  · decide
  · have hmarks : ∀ d : Char, d = '/' ∨ d = '#' → c ≠ d := by
      rintro d (rfl | rfl) rfl
      · exact absurd hblank (by decide)
      · exact absurd hblank (by decide)
    simp [isNameChar_of_isBlank hblank, hmarks]

theorem ne_bracket_of_endsFilter {text : List Char} (h : EndsFilter text) :
    ∀ rest, text ≠ '[' :: rest := by
  rintro rest rfl
  rcases h '[' rfl with heq | hblank
  · exact absurd heq (by decide)
  · exact absurd hblank (by decide)

theorem endsPrimary_attributes {found : List AttributeFilter} {rest : List Char}
    (h : ∀ filter ∈ found, filter.WellFormed) (hrest : EndsPrimary rest) :
    EndsPrimary ((found.flatMap fun filter => filter.text.toList) ++ rest) := by
  cases found with
  | nil => exact hrest
  | cons filter found =>
      obtain ⟨tail, htail⟩ := exists_cons_of_wellFormed (h filter (by simp))
      rw [List.flatMap_cons, htail]
      exact Stops.cons_iff.2 (by decide)

theorem read_optional_primary {leading : Option Primary} {rest : List Char}
    (h : ∀ found ∈ leading, found.WellFormed) (hrest : EndsPrimary rest) :
    (Peg.optional primary).read (leading.elim [] Primary.written ++ rest) =
      some (leading, rest) := by
  cases leading with
  | none => exact Peg.read_optional_absent (read_primary_eq_none hrest)
  | some found => exact Peg.read_optional_present (read_primary (h found rfl) hrest)

theorem written_of_read_filter {text rest : List Char} {found : Filter}
    (h : filter.read text = some (found, rest)) :
    text = found.written ++ rest ∧ found.WellFormed := by
  obtain ⟨⟨leading, attributes⟩, hseq, rfl⟩ := Peg.read_map_iff.1 h
  obtain ⟨middle, hprimary, hattributes⟩ := Peg.read_seq_iff.1 hseq
  obtain ⟨rfl, hfound⟩ := wellFormed_of_read_attributes hattributes
  rcases Peg.read_optional_iff.1 hprimary with ⟨found, rfl, hread⟩ | ⟨rfl, rfl, -⟩
  · obtain ⟨rfl, hleading⟩ := written_of_read_primary hread
    refine ⟨by simp [Filter.written], ?_, hfound⟩
    rintro _ ⟨⟩
    exact hleading
  · exact ⟨by simp [Filter.written], by simp, hfound⟩

theorem read_filter {found : Filter} {rest : List Char} (h : found.WellFormed)
    (hrest : EndsFilter rest) : filter.read (found.written ++ rest) = some (found, rest) := by
  obtain ⟨leading, attributes⟩ := found
  obtain ⟨hleading, hattributes⟩ := h
  have hends := endsPrimary_attributes hattributes (endsPrimary_of_endsFilter hrest)
  unfold Filter.written
  rw [List.append_assoc]
  have hread := read_attributes hattributes (ne_bracket_of_endsFilter hrest)
  exact Peg.read_map _ (Peg.read_seq (read_optional_primary hleading hends) hread)

theorem filter_covers {found : Filter} (h : found.WellFormed) : filter.Covers found.written := by
  obtain ⟨leading, attributes⟩ := found
  obtain ⟨hleading, hattributes⟩ := h
  apply Peg.Covers.map
  unfold Filter.written
  cases attributes with
  | nil =>
      have htotal := Peg.exists_read_many attributeFilter_consumes
      rw [List.flatMap_nil, List.append_nil]
      cases leading with
      | none => exact .seq_left (.nil (Peg.exists_read_optional primary)) htotal
      | some found => exact .seq_left (.optional (primary_covers (hleading found rfl))) htotal
  | cons first attributes =>
      obtain ⟨tail, htail⟩ := exists_cons_of_wellFormed (hattributes first (by simp))
      have hread : ∀ text, (Peg.optional primary).read (leading.elim [] Primary.written ++
          (((first :: attributes).flatMap fun filter => filter.text.toList) ++ text)) =
            some (leading, ((first :: attributes).flatMap fun filter => filter.text.toList) ++
              text) := by
        intro text
        apply read_optional_primary hleading
        rw [List.flatMap_cons, htail]
        exact Stops.cons_iff.2 (by decide)
      exact .seq_right hread (attributes_covers hattributes)

/-! ## Commas -/

theorem read_comma_iff {text rest : List Char} :
    comma.read text = some ((), rest) ↔
      ∃ before after, text = before ++ ',' :: (after ++ rest) ∧ IsBlank before ∧ IsBlank after ∧
        Stops Text.isBlank rest := by
  unfold comma
  rw [Peg.read_map_iff]
  constructor
  · rintro ⟨⟨before, c, after⟩, hread, -⟩
    obtain ⟨middle, hbefore, hlater⟩ := Peg.read_seq_iff.1 hread
    obtain ⟨next, hcomma, hafter⟩ := Peg.read_seq_iff.1 hlater
    obtain ⟨rfl, hblank, -⟩ := read_blank_iff.1 hbefore
    obtain ⟨rfl, -⟩ := Peg.read_char_iff.1 hcomma
    obtain ⟨rfl, hblank', hstops⟩ := read_blank_iff.1 hafter
    exact ⟨before, after, rfl, hblank, hblank', hstops⟩
  · rintro ⟨before, after, rfl, hbefore, hafter, hstops⟩
    have hcommaStops : Stops Text.isBlank (',' :: (after ++ rest)) :=
      Stops.cons_iff.2 (by decide)
    have hcomma := Peg.read_seq (Peg.read_char ',' _) (read_blank hafter hstops)
    exact ⟨(before, ',', after), Peg.read_seq (read_blank hbefore hcommaStops) hcomma, rfl⟩

theorem read_comma {before after : List Char} (hbefore : IsBlank before) (hafter : IsBlank after)
    (tail : List Char) :
    comma.read (before ++ ',' :: (after ++ tail)) = some ((), tail.dropWhile Text.isBlank) := by
  refine read_comma_iff.2 ⟨before, after ++ tail.takeWhile Text.isBlank, ?_, hbefore,
    hafter.append fun c hc => List.mem_takeWhile_imp hc, Stops.dropWhile _ _⟩
  rw [List.append_assoc, List.takeWhile_append_dropWhile]

theorem endsFilter_comma {before : List Char} (h : IsBlank before) (tail : List Char) :
    EndsFilter (before ++ ',' :: tail) := by
  intro c hc
  cases before with
  | nil => exact Or.inl (by simpa using hc.symm)
  | cons d before =>
      obtain rfl : d = c := by simpa using hc
      exact Or.inr (h d (by simp))

abbrev nextFilter : Grammar Filter :=
  .dropLeft comma filter

theorem read_nextFilter {before after rest : List Char} {found : Filter}
    (hbefore : IsBlank before) (hafter : IsBlank after) (hfound : found.WellFormed)
    (hrest : EndsFilter rest) (hstops : Stops Text.isBlank (found.written ++ rest)) :
    nextFilter.read (before ++ ',' :: (after ++ (found.written ++ rest))) = some (found, rest) := by
  have hcomma := read_comma_iff.2 ⟨before, after, rfl, hbefore, hafter, hstops⟩
  exact Peg.read_dropLeft hcomma (read_filter hfound hrest)

theorem commaText_of_read {text rest : List Char} {found : List Filter}
    (h : (Peg.many nextFilter).read text = some (found, rest)) :
    ∃ taken, text = taken ++ rest ∧ CommaText taken found := by
  have hrounds := Peg.read_many_iff.1 h
  clear h
  induction hrounds with
  | stop _ => exact ⟨[], rfl, .none⟩
  | next hread _ _ ih =>
      obtain ⟨⟨⟩, middle, hcomma, hfilter⟩ := Peg.read_dropLeft_iff.1 hread
      obtain ⟨before, after, rfl, hbefore, hafter, -⟩ := read_comma_iff.1 hcomma
      obtain ⟨rfl, hfound⟩ := written_of_read_filter hfilter
      obtain ⟨taken, rfl, htaken⟩ := ih
      exact ⟨_, by simp, .next hbefore hafter hfound htaken⟩

theorem CommaText.endsFilter {text rest : List Char} {filters : List Filter}
    (h : CommaText text filters) (hrest : filters ≠ [] ∨ rest = []) :
    EndsFilter (text ++ rest) := by
  cases h with
  | none =>
      obtain rfl : rest = [] := by simpa using hrest
      simp [EndsFilter]
  | next hbefore =>
      rw [List.append_assoc]
      exact endsFilter_comma hbefore _

theorem stops_written {found : Filter} (h : found.WellFormed) (hne : found.written ≠ [])
    (rest : List Char) : Stops Text.isBlank (found.written ++ rest) := by
  obtain ⟨leading, attributes⟩ := found
  obtain ⟨hleading, hattributes⟩ := h
  rw [Filter.written] at hne ⊢
  cases leading with
  | some found =>
      obtain ⟨c, tail, hwritten, hc⟩ := exists_cons_written (hleading found rfl)
      rw [Option.elim_some, hwritten]
      apply Stops.cons_iff.2
      rcases hc with rfl | rfl | hc
      · decide
      · decide
      · exact isBlank_eq_false_of_bare (isBareChar_of_isNameChar (isNameChar_of_isNameStart hc))
  | none =>
      cases attributes with
      | nil => exact absurd rfl hne
      | cons first attributes =>
          obtain ⟨tail, htail⟩ := exists_cons_of_wellFormed (hattributes first (by simp))
          rw [Option.elim_none, List.flatMap_cons, htail]
          exact Stops.cons_iff.2 (by decide)

theorem read_filters_comma {before : List Char} (h : IsBlank before) (tail : List Char) :
    (Peg.many nextFilter).read (before ++ ',' :: tail) =
      (Peg.many nextFilter).read (',' :: tail) := by
  obtain ⟨found, middle, hfound⟩ := exists_read_filter (tail.dropWhile Text.isBlank)
  obtain ⟨others, rest, hothers⟩ := Peg.exists_read_many dropLeft_comma_filter_consumes middle
  have hread {lead : List Char} (hlead : IsBlank lead) :
      (Peg.many nextFilter).read (lead ++ ',' :: tail) = some (found :: others, rest) :=
    Peg.read_many_of_some dropLeft_comma_filter_consumes
      (Peg.read_dropLeft (read_comma hlead .nil tail) hfound) hothers
  exact (hread h).trans (hread .nil).symm

theorem read_filters_next {before after lead tail rest : List Char} {found : Filter}
    {later : List Filter} (hbefore : IsBlank before) (hafter : IsBlank after)
    (hfound : found.WellFormed) (hlead : IsBlank lead)
    (hlater : (Peg.many nextFilter).read (lead ++ ',' :: tail) = some (later, rest)) :
    (Peg.many nextFilter).read
        (before ++ ',' :: (after ++ (found.written ++ (lead ++ ',' :: tail)))) =
      some (found :: later, rest) := by
  by_cases hwritten : found.written = []
  · -- Behind a comma and an empty filter the first comma takes the white space of the next one.
    have hstops : Stops Text.isBlank (found.written ++ ',' :: tail) := by
      rw [hwritten]
      exact Stops.cons_iff.2 (by decide)
    have hnext := read_nextFilter hbefore (hafter.append hlead) hfound
      (endsFilter_comma .nil tail) hstops
    rw [read_filters_comma hlead] at hlater
    rw [hwritten, List.append_assoc] at hnext
    rw [hwritten]
    exact Peg.read_many_of_some dropLeft_comma_filter_consumes hnext hlater
  · have hnext := read_nextFilter hbefore hafter hfound (endsFilter_comma hlead tail)
      (stops_written hfound hwritten _)
    exact Peg.read_many_of_some dropLeft_comma_filter_consumes hnext hlater

theorem nextFilter_eq_none : nextFilter.read [] = none := by
  rw [Peg.read_dropLeft_eq_none_iff]
  intro value middle hcomma
  obtain ⟨before, after, htext, -⟩ := read_comma_iff.1 hcomma
  simp at htext

theorem CommaText.read {text : List Char} {filters : List Filter} (h : CommaText text filters) :
    (Peg.many nextFilter).read text = some (filters, []) := by
  induction h with
  | none => exact Peg.read_many_of_none nextFilter_eq_none
  | @next before after _ filter _ hbefore hafter hfilter hothers ih =>
      cases hothers with
      | none =>
          have hstops : Stops Text.isBlank (filter.written ++ []) := by
            by_cases hwritten : filter.written = []
            · rw [hwritten]
              exact Stops.nil
            · exact stops_written hfilter hwritten []
          exact Peg.read_many_of_some dropLeft_comma_filter_consumes
            (read_nextFilter hbefore hafter hfilter (by simp [EndsFilter]) hstops) ih
      | next hlead _ _ _ => exact read_filters_next hbefore hafter hfilter hlead ih

theorem nextFilter_covers {before after : List Char} {found : Filter} (hbefore : IsBlank before)
    (hafter : IsBlank after) (hfound : found.WellFormed) :
    nextFilter.Covers (before ++ ',' :: (after ++ found.written)) := by
  intro tail
  by_cases hne : found.written = []
  · obtain ⟨longer, rest, hfilter⟩ := exists_read_filter (tail.dropWhile Text.isBlank)
    refine ⟨longer, rest, ?_, (Peg.read_suffix filter hfilter).trans (List.dropWhile_suffix _)⟩
    rw [hne, List.append_nil, List.append_assoc, List.cons_append]
    exact Peg.read_dropLeft (read_comma hbefore hafter tail) hfilter
  · obtain ⟨longer, rest, hfilter, hrest⟩ := filter_covers hfound tail
    have hcomma := read_comma_iff.2
      ⟨before, after, rfl, hbefore, hafter, stops_written hfound hne tail⟩
    refine ⟨longer, rest, ?_, hrest⟩
    rw [List.append_assoc, List.cons_append, List.append_assoc]
    exact Peg.read_dropLeft hcomma hfilter

theorem CommaText.covers {text : List Char} {filters : List Filter} (h : CommaText text filters) :
    (Peg.many nextFilter).Covers text := by
  induction h with
  | none => exact .many_nil dropLeft_comma_filter_consumes
  | @next before after others filter _ hbefore hafter hfilter hothers ih =>
      cases hothers with
      | none =>
          rw [List.append_nil]
          exact .many_first dropLeft_comma_filter_consumes
            (nextFilter_covers hbefore hafter hfilter)
      | @next lead _ _ _ _ hlead _ _ _ =>
          intro tail
          obtain ⟨longer, rest, hread, hsuffix⟩ := ih tail
          refine ⟨filter :: longer, rest, ?_, hsuffix⟩
          simp only [List.append_assoc, List.cons_append] at hread ⊢
          exact read_filters_next hbefore hafter hfilter hlead hread

/-! ## Selectors -/

theorem selectorText_of_read {text rest : List Char} {found : Selector}
    (h : selector.read text = some (found, rest)) :
    ∃ taken, text = taken ++ rest ∧ SelectorText taken found := by
  obtain ⟨⟨first, others⟩, hseq, rfl⟩ := Peg.read_map_iff.1 h
  obtain ⟨middle, hfirst, hothers⟩ := Peg.read_seq_iff.1 hseq
  obtain ⟨rfl, hfilter⟩ := written_of_read_filter hfirst
  obtain ⟨taken, rfl, htaken⟩ := commaText_of_read hothers
  exact ⟨first.written ++ taken, by simp, .intro hfilter htaken⟩

theorem SelectorText.read {text : List Char} {found : Selector} (h : SelectorText text found) :
    selector.read text = some (found, []) := by
  cases h with
  | @intro rest first others hfirst hothers =>
      have hends := hothers.endsFilter (Or.inr rfl)
      rw [List.append_nil] at hends
      exact Peg.read_map _ (Peg.read_seq (read_filter hfirst hends) hothers.read)

/-- In front of any text, a selector is read with at least all of its own text. -/
theorem SelectorText.covers {text : List Char} {found : Selector} (h : SelectorText text found) :
    selector.Covers text := by
  cases h with
  | @intro rest first others hfirst hothers =>
      apply Peg.Covers.map
      cases others with
      | nil =>
          cases hothers
          rw [List.append_nil]
          exact .seq_left (filter_covers hfirst)
            (Peg.exists_read_many dropLeft_comma_filter_consumes)
      | cons second others =>
          have hread : ∀ tail, filter.read (first.written ++ (rest ++ tail)) =
              some (first, rest ++ tail) :=
            fun tail => read_filter hfirst (hothers.endsFilter (Or.inl (by simp)))
          exact .seq_right hread hothers.covers

/-- A text is parsed as a selector just if it is one of the texts of that selector. -/
theorem parse_eq_ok_iff_selectorText {text : String} {found : Selector} :
    parse text = .ok found ↔ SelectorText text.toList found := by
  rw [parse_eq_ok_iff]
  constructor
  · intro h
    obtain ⟨taken, htaken, htext⟩ := selectorText_of_read h
    rwa [htaken, List.append_nil]
  · exact SelectorText.read

end Selector

end ObjectQuery
