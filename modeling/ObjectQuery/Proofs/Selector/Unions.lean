import ObjectQuery.Proofs.Selector.Filters
/-!
# Selectors joined by a comma

The text of two selectors with a comma between them is the text of all their filters. Neither of
the two is read differently next to the other one, so an error in the second one keeps its place.
-/

namespace ObjectQuery.Selector

open Grammar

/-! ## Two selectors -/

theorem CommaText.append {text behind : List Char} {filters later : List Filter}
    (h : CommaText text filters) (hbehind : CommaText behind later) :
    CommaText (text ++ behind) (filters ++ later) := by
  induction h with
  | none => exact hbehind
  | next hbefore hafter hfilter _ ih =>
      simpa using CommaText.next hbefore hafter hfilter ih

theorem SelectorText.append_comma {text behind before after : List Char} {found later : Selector}
    (h : SelectorText text found) (hbefore : IsBlank before) (hafter : IsBlank after)
    (hbehind : SelectorText behind later) :
    SelectorText (text ++ (before ++ ',' :: (after ++ behind)))
      ⟨found.filters ++ later.filters⟩ := by
  cases h with
  | intro hfirst hothers =>
      cases hbehind with
      | intro hnext hlater =>
          rw [List.append_assoc]
          exact .intro hfirst (hothers.append (.next hbefore hafter hnext hlater))

/-! ## A selector and a text that is not read to its end -/

theorem read_behind_comma {after behind rest : List Char} {later : Selector}
    (hafter : IsBlank after) (hstops : Stops Text.isBlank behind)
    (h : selector.read behind = some (later, rest)) :
    (Peg.many nextFilter).read (',' :: (after ++ behind)) = some (later.filters, rest) := by
  obtain ⟨⟨next, others⟩, hseq, rfl⟩ := Peg.read_map_iff.1 h
  obtain ⟨middle, hnext, hothers⟩ := Peg.read_seq_iff.1 hseq
  have hcomma := read_comma_iff.2 ⟨[], after, rfl, .nil, hafter, hstops⟩
  have hfilter := Peg.read_dropLeft hcomma hnext
  exact Peg.read_many_of_some dropLeft_comma_filter_consumes hfilter hothers

section

variable {before : List Char} (hbefore : IsBlank before) {tail rest : List Char}
  {later : List Filter}

include hbefore

theorem CommaText.exists_comma {text : List Char} {filters : List Filter}
    (h : CommaText text filters) (tail : List Char) :
    ∃ lead behind, IsBlank lead ∧ text ++ (before ++ ',' :: tail) = lead ++ ',' :: behind := by
  cases h with
  | none => exact ⟨before, tail, hbefore, rfl⟩
  | next hlead _ _ _ => exact ⟨_, _, hlead, List.append_assoc _ _ _⟩

/-- Filters behind commas are read as such in front of one more comma. -/
theorem CommaText.read_append
    (hread : (Peg.many nextFilter).read (',' :: tail) = some (later, rest)) {text : List Char}
    {filters : List Filter} (h : CommaText text filters) :
    (Peg.many nextFilter).read (text ++ (before ++ ',' :: tail)) =
      some (filters ++ later, rest) := by
  induction h with
  | none => exact (read_filters_comma hbefore tail).trans hread
  | @next lead after others filter filters hlead hafter hfilter hothers ih =>
      obtain ⟨blank, behind, hblank, htext⟩ := hothers.exists_comma hbefore tail
      have hsplit : lead ++ ',' :: (after ++ (filter.written ++ others)) ++
            (before ++ ',' :: tail) =
          lead ++ ',' :: (after ++ (filter.written ++ (blank ++ ',' :: behind))) := by
        simp [← htext]
      rw [htext] at ih
      rw [hsplit]
      exact read_filters_next hlead hafter hfilter hblank ih

theorem SelectorText.read_append
    (hread : (Peg.many nextFilter).read (',' :: tail) = some (later, rest)) {text : List Char}
    {found : Selector} (h : SelectorText text found) :
    selector.read (text ++ (before ++ ',' :: tail)) = some (⟨found.filters ++ later⟩, rest) := by
  cases h with
  | intro hfirst hothers =>
      obtain ⟨blank, behind, hblank, htext⟩ := hothers.exists_comma hbefore tail
      have hends : EndsFilter (_ ++ (before ++ ',' :: tail)) :=
        htext ▸ endsFilter_comma hblank behind
      rw [List.append_assoc]
      exact Peg.read_map _
        (Peg.read_seq (read_filter hfirst hends) (hothers.read_append hbefore hread))

end

/-! ## Parsing -/

def joinedText (first before after second : String) : String :=
  first ++ before ++ "," ++ after ++ second

theorem toList_joinedText (first before after second : String) :
    (joinedText first before after second).toList =
      first.toList ++ (before.toList ++ ',' :: (after.toList ++ second.toList)) := by
  have hcomma : ",".toList = [','] := rfl
  simp [joinedText, hcomma]

/-- A comma joins two selectors into one of all their filters. Where the second text is no selector,
the error stands at its place in the joined text, unless white space starts the second text: a comma
takes that. -/
theorem parse_joinedText {first before after second : String} {found : Selector}
    (hfirst : parse first = .ok found) (hbefore : IsBlank before.toList)
    (hafter : IsBlank after.toList) :
    (∀ later, parse second = .ok later →
      parse (joinedText first before after second) = .ok ⟨found.filters ++ later.filters⟩) ∧
    ∀ error, parse second = .error error → Stops Text.isBlank second.toList →
      parse (joinedText first before after second) =
        .error ⟨joinedText first before after second,
          first.length + before.length + 1 + after.length + error.position⟩ := by
  have htext := parse_eq_ok_iff_selectorText.1 hfirst
  constructor
  · intro later hsecond
    rw [parse_eq_ok_iff_selectorText, toList_joinedText]
    exact htext.append_comma hbefore hafter (parse_eq_ok_iff_selectorText.1 hsecond)
  · intro error herror hstops
    obtain ⟨later, rest, hread, hne, rfl⟩ := parse_eq_error_iff.1 herror
    have hjoined : selector.read (joinedText first before after second).toList =
        some (⟨found.filters ++ later.filters⟩, rest) := by
      rw [toList_joinedText]
      exact htext.read_append hbefore (read_behind_comma hafter hstops hread)
    have hle : rest.length ≤ second.toList.length := (Peg.read_suffix _ hread).length_le
    have hposition : (joinedText first before after second).toList.length - rest.length + 1 =
        first.length + before.length + 1 + after.length +
          (second.toList.length - rest.length + 1) := by
      rw [toList_joinedText]
      simp only [List.length_append, List.length_cons, String.length_toList] at hle ⊢
      omega
    exact parse_eq_error_iff.2 ⟨_, rest, hjoined, hne, congrArg (SyntaxError.mk _) hposition.symm⟩

def quotedComma : Selector :=
  ⟨[⟨some (.propertyName "p"), [⟨some "a", some ⟨.equal false false, .string ","⟩, "[a=',']"⟩]⟩,
    ⟨none, []⟩]⟩

/-- An empty filter on either side of the comma, and an error behind it. -/
theorem parse_joinedText_quotedComma :
    parse "p[a=','] ," = .ok quotedComma ∧ IsBlank " ".toList ∧ IsBlank "\u3000".toList ∧
    parse ",#7" = .ok ⟨[⟨none, []⟩, ⟨some (.identifier "7"), []⟩]⟩ ∧
    parse (joinedText "p[a=','] ," " " "\u3000" ",#7") =
      .ok ⟨quotedComma.filters ++ [⟨none, []⟩, ⟨some (.identifier "7"), []⟩]⟩ ∧
    parse "q[" = .error ⟨"q[", 2⟩ ∧ Stops Text.isBlank "q[".toList ∧
    parse (joinedText "p[a=','] ," " " "\u3000" "q[") =
      .error ⟨joinedText "p[a=','] ," " " "\u3000" "q[", 15⟩ := by
  have hfirst : parse "p[a=','] ," = .ok quotedComma := by
    rw [parse_eq]
    decide +kernel
  have hsecond : parse ",#7" = .ok ⟨[⟨none, []⟩, ⟨some (.identifier "7"), []⟩]⟩ := by
    rw [parse_eq]
    decide +kernel
  have herror : parse "q[" = .error ⟨"q[", 2⟩ := by
    rw [parse_eq]
    decide +kernel
  have hbefore : IsBlank " ".toList := List.forall_mem_singleton.2 (by decide)
  have hafter : IsBlank "\u3000".toList := List.forall_mem_singleton.2 (by decide)
  have hstops : Stops Text.isBlank "q[".toList := Stops.cons_iff.2 (by decide)
  have hunion := (parse_joinedText hfirst hbefore hafter).1 _ hsecond
  have hrejected := (parse_joinedText hfirst hbefore hafter).2 _ herror hstops
  exact ⟨hfirst, hbefore, hafter, hsecond, hunion, herror, hstops, hrejected⟩

end ObjectQuery.Selector
