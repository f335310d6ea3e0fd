import ObjectQuery.Proofs.Selector.Printing
/-!
# The texts of a selector

A selector is read from its filters as written, with commas and white space between them, and from
no other text (`selectorText_iff`). The texts of its attribute filters are cut out of that text and
are selectors by themselves.
-/

namespace ObjectQuery.Selector

theorem CommaText.exists_joined {text : List Char} {filters : List Filter}
    (h : CommaText text filters) :
    ∃ comma : Nat → List Char × List Char,
      (∀ index, IsBlank (comma index).1 ∧ IsBlank (comma index).2) ∧
        text = joined comma filters := by
  induction h with
  | none => exact ⟨fun _ => ([], []), fun _ => ⟨.nil, .nil⟩, rfl⟩
  | @next before after rest filter filters hbefore hafter _ _ ih =>
      obtain ⟨comma, hcomma, rfl⟩ := ih
      refine ⟨fun index => index.casesOn (before, after) comma, ?_, rfl⟩
      intro index
      cases index with
      | zero => exact ⟨hbefore, hafter⟩
      | succ index => exact hcomma index

theorem selectorText_iff {text : List Char} {selector : Selector} :
    SelectorText text selector ↔
      selector.filters ≠ [] ∧ (∀ filter ∈ selector.filters, filter.WellFormed) ∧
        ∃ comma : Nat → List Char × List Char,
          (∀ index, IsBlank (comma index).1 ∧ IsBlank (comma index).2) ∧
            text = selector.written comma := by
  constructor
  · intro h
    cases h with
    | intro hfirst hothers =>
        obtain ⟨comma, hcomma, rfl⟩ := hothers.exists_joined
        have hfilters := List.forall_mem_cons.2 ⟨hfirst, hothers.wellFormed⟩
        exact ⟨by simp, hfilters, comma, hcomma, rfl⟩
  · rintro ⟨hne, hfilters, comma, hcomma, rfl⟩
    exact (selectorText_written_iff hcomma hne).2 hfilters

theorem parse_written_of_wellFormed {filter : Filter} (h : filter.WellFormed) :
    parse (String.ofList filter.written) = .ok ⟨[filter]⟩ := by
  have htext : SelectorText (filter.written ++ []) ⟨[filter]⟩ := .intro h .none
  rw [List.append_nil] at htext
  exact parse_eq_ok_iff_selectorText.2 (by simpa using htext)

theorem parse_text_of_wellFormed {found : AttributeFilter} (h : found.WellFormed) :
    parse found.text = .ok ⟨[⟨none, [found]⟩]⟩ := by
  have hfilter : Filter.WellFormed ⟨none, [found]⟩ :=
    ⟨by simp, List.forall_mem_singleton.2 h⟩
  have hwritten : String.ofList (Filter.written ⟨none, [found]⟩) = found.text := by
    simp [Filter.written]
  exact hwritten ▸ parse_written_of_wellFormed hfilter

/-- What is parsed is the filters as written, with a comma and white space between each two of them.
The text of each attribute filter is parsed by itself as that attribute filter alone. -/
theorem written_of_parse {text : String} {selector : Selector} (h : parse text = .ok selector) :
    (selector.filters ≠ [] ∧
      ∃ comma : Nat → List Char × List Char,
        (∀ index, IsBlank (comma index).1 ∧ IsBlank (comma index).2) ∧
          text.toList = selector.written comma) ∧
    ∀ filter ∈ selector.filters, ∀ found ∈ filter.attributes,
      parse found.text = .ok ⟨[⟨none, [found]⟩]⟩ := by
  obtain ⟨hne, hfilters, hcomma⟩ := selectorText_iff.1 (parse_eq_ok_iff_selectorText.1 h)
  refine ⟨⟨hne, hcomma⟩, ?_⟩
  intro filter hfilter found hfound
  have hattributes := (hfilters filter hfilter).2
  exact parse_text_of_wellFormed (hattributes found hfound)

def quotedBrackets : AttributeFilter :=
  ⟨some "title", some ⟨.equal false false, .string "a]["⟩, "[title='a][']"⟩

def pathAndIdentifier : Selector :=
  ⟨[⟨some (.path ⟨["site", "main"], false⟩),
      [quotedBrackets, ⟨none, some ⟨.instanceOf true, .unquoted "Page"⟩, "[ !instanceof Page]"⟩]⟩,
    ⟨some (.identifier "7"), []⟩, ⟨none, []⟩]⟩

/-- Brackets in quotes do not end the text of their attribute filter. -/
theorem written_of_parse_quotedBrackets :
    parse "site/main[title='a]['][ !instanceof Page] ,\u3000#7," = .ok pathAndIdentifier ∧
    (∃ comma : Nat → List Char × List Char,
      (∀ index, IsBlank (comma index).1 ∧ IsBlank (comma index).2) ∧
        "site/main[title='a]['][ !instanceof Page] ,\u3000#7,".toList =
          pathAndIdentifier.written comma) ∧
    parse "[title='a][']" = .ok ⟨[⟨none, [quotedBrackets]⟩]⟩ := by
  have hparse : parse "site/main[title='a]['][ !instanceof Page] ,\u3000#7," =
      .ok pathAndIdentifier := by
    rw [parse_eq]
    decide +kernel
  obtain ⟨⟨-, hcomma⟩, htexts⟩ := written_of_parse hparse
  have htext : parse quotedBrackets.text = .ok ⟨[⟨none, [quotedBrackets]⟩]⟩ := by
    apply htexts
    · exact List.mem_cons_self
    · exact List.mem_cons_self
  exact ⟨hparse, hcomma, htext⟩

end ObjectQuery.Selector
