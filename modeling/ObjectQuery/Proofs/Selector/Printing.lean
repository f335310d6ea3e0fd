import ObjectQuery.Proofs.Selector.Filters
import ObjectQuery.Proofs.Text.Digits
/-!
# Writing selectors

A selector may be written with any white space around its tokens and with either quote around its
strings. It is parsed back from such a text, up to the texts of its attribute filters, just if no
two tokens run into each other.
-/

namespace ObjectQuery

/-- The choices in writing an attribute filter: the white space behind its bracket, its path, its
operator and its operand, and the quote around a string. -/
structure BracketStyle where
  lead : List Char
  afterPath : List Char
  afterOperator : List Char
  trail : List Char
  quote : Char

/-- The choices in writing a selector: those for each attribute filter of each filter, and the white
space before and behind each comma. -/
structure SelectorStyle where
  bracket : Nat → Nat → BracketStyle
  comma : Nat → List Char × List Char

structure BracketStyle.Valid (style : BracketStyle) : Prop where
  lead : Selector.IsBlank style.lead
  afterPath : Selector.IsBlank style.afterPath
  afterOperator : Selector.IsBlank style.afterOperator
  trail : Selector.IsBlank style.trail
  quote : Selector.IsQuote style.quote

structure SelectorStyle.Valid (style : SelectorStyle) : Prop where
  bracket : ∀ filter index, (style.bracket filter index).Valid
  beforeComma : ∀ index, Selector.IsBlank (style.comma index).1
  afterComma : ∀ index, Selector.IsBlank (style.comma index).2

namespace Operand

/-- The operand in a given quote, or without one where it is no string. -/
def printed (quote : Char) : Operand → List Char
  | .string value => Selector.quotedText quote value.toList
  | operand => operand.toText.toList

/-- Whether an operand of a type test can be written: a string must not end in a backslash, and an
operand without quotes needs characters that may stand there. -/
def PrintableType : Operand → Prop
  | .string value => value.toList.getLast? ≠ some '\\'
  | .unquoted value => Selector.IsBare value.toList
  | _ => False

/-- Whether an operand of a comparison can be written. Without quotes it must not start like a
number or a truth value, and floats are left out. -/
def Printable : Operand → Prop
  | .string value => value.toList.getLast? ≠ some '\\'
  | .integer _ => True
  | .boolean _ => True
  | .float _ => False
  | .unquoted value =>
      Selector.IsBare value.toList ∧ ¬ Selector.StartsNumber value.toList ∧
        ¬ Selector.StartsTruth value.toList

end Operand

namespace AttributeFilter

def printedCondition (style : BracketStyle) (filter : AttributeFilter) : List Char :=
  (filter.propertyPath.elim [] fun path => path.toList ++ style.afterPath) ++
    filter.test.elim [] fun test =>
      test.operator.symbol.toList ++
        (style.afterOperator ++ (test.operand.printed style.quote ++ style.trail))

def printed (style : BracketStyle) (filter : AttributeFilter) : List Char :=
  '[' :: (style.lead ++ (filter.printedCondition style ++ [']']))

/-- The attribute filter with the text that it is written as. -/
def styled (style : BracketStyle) (filter : AttributeFilter) : AttributeFilter :=
  { filter with text := String.ofList (filter.printed style) }

/-- Whether the attribute filter can be written. Without a path it has a type test or none. -/
def Printable (filter : AttributeFilter) : Prop :=
  match filter.propertyPath, filter.test with
  | none, none => True
  | none, some test =>
      (∃ negated, test.operator = .instanceOf negated) ∧ test.operand.PrintableType
  | some path, test =>
      Selector.IsPropertyPath path.toList ∧ ¬ Selector.typeWord <+: path.toList ∧
        ∀ found ∈ test, found.operand.Printable

/-- Whether no token of the attribute filter runs into the next one: a path into the word for a type
test, or an operator into an operand that would make it a longer one. -/
def Separated (style : BracketStyle) (filter : AttributeFilter) : Prop :=
  ∀ test ∈ filter.test,
    (filter.propertyPath.isSome → test.operator = .instanceOf false → style.afterPath ≠ []) ∧
      test.operator.EndsAt (style.afterOperator ++ test.operand.printed style.quote)

end AttributeFilter

namespace Filter

def styled (style : Nat → BracketStyle) (filter : Filter) : Filter :=
  { filter with
    attributes := filter.attributes.mapIdx fun index found => found.styled (style index) }

def Printable (filter : Filter) : Prop :=
  (∀ found ∈ filter.primary, found.WellFormed) ∧ ∀ found ∈ filter.attributes, found.Printable

end Filter

namespace Selector

def joined : (Nat → List Char × List Char) → List Filter → List Char
  | _, [] => []
  | comma, filter :: filters =>
      (comma 0).1 ++ ',' ::
        ((comma 0).2 ++ (filter.written ++ joined (fun index => comma (index + 1)) filters))

def written (comma : Nat → List Char × List Char) (selector : Selector) : List Char :=
  match selector.filters with
  | [] => []
  | first :: others => first.written ++ joined comma others

def styled (style : SelectorStyle) (selector : Selector) : Selector :=
  ⟨selector.filters.mapIdx fun index filter => filter.styled (style.bracket index)⟩

def print (style : SelectorStyle) (selector : Selector) : String :=
  String.ofList ((selector.styled style).written style.comma)

def Printable (selector : Selector) : Prop :=
  selector.filters ≠ [] ∧ ∀ filter ∈ selector.filters, filter.Printable

def Separated (style : SelectorStyle) (selector : Selector) : Prop :=
  ∀ i (_ : i < selector.filters.length) j (_ : j < selector.filters[i].attributes.length),
    selector.filters[i].attributes[j].Separated (style.bracket i j)

/-! ## Operands -/

theorem isDigits_digitsOf (n : Nat) : IsDigits (Decimal.digitsOf n) :=
  ⟨Decimal.digitsOf_ne_nil n, fun _ hc => Decimal.isDigit_of_mem_digitsOf hc⟩

theorem numberOperand_digitsOf (i : Int) :
    numberOperand (decide (i < 0)) (Decimal.digitsOf i.natAbs) none =
      if Json.fitsInt64 i then .integer (Int64.ofInt i)
      else .float (Binary64.ofDecimal (decide (i < 0)) i.natAbs 0) := by
  have hvalue : (if decide (i < 0) = true then -(i.natAbs : Int) else i.natAbs) = i := by
    by_cases hnegative : i < 0
    · rw [if_pos (decide_eq_true hnegative)]
      omega
    · rw [if_neg (by simpa using hnegative)]
      omega
  simp only [numberOperand, Decimal.digitsValue_digitsOf, hvalue]

theorem operandText_integerText (i : Int) :
    OperandText (Json.integerText i)
      (numberOperand (decide (i < 0)) (Decimal.digitsOf i.natAbs) none) := by
  have htext : Json.integerText i =
      numberText (decide (i < 0)) (Decimal.digitsOf i.natAbs) none := by
    simp [Json.integerText, Binary64.signText, numberText]
  rw [htext]
  exact .number (isDigits_digitsOf _) (by simp)

theorem operandText_integer (value : Int64) :
    OperandText (Json.integerText value.toInt) (.integer value) := by
  have htext := operandText_integerText value.toInt
  rwa [numberOperand_digitsOf, if_pos (Json.fitsInt64_toInt value), Int64.ofInt_toInt] at htext

theorem operandText_printed {quote : Char} (hquote : IsQuote quote) {operand : Operand}
    (h : operand.Printable) : OperandText (operand.printed quote) operand := by
  cases operand with
  | string value =>
      have htext := OperandText.string hquote h
      rwa [String.ofList_toList] at htext
  | integer value =>
      rw [Operand.printed, Operand.toText, String.toList_ofList]
      · exact operandText_integer value
      · simp
  | float value => cases h
  | boolean value =>
      apply OperandText.boolean
      show (if value then "true" else "false").toList.map Char.toLower = truthText value
      cases value <;> decide +kernel
  | unquoted value =>
      obtain ⟨hbare, hnumber, htruth⟩ := h
      have htext := OperandText.unquoted hbare hnumber htruth
      rwa [String.ofList_toList] at htext

theorem typeText_printed {quote : Char} (hquote : IsQuote quote) {operand : Operand}
    (h : operand.PrintableType) : TypeText (operand.printed quote) operand := by
  cases operand with
  | string value =>
      have htext := TypeText.string hquote h
      rwa [String.ofList_toList] at htext
  | unquoted value =>
      have htext := TypeText.unquoted h
      rwa [String.ofList_toList] at htext
  | integer value => cases h
  | float value => cases h
  | boolean value => cases h

/-! ## Attribute filters -/

theorem endsAt_instanceOf (negated : Bool) (text : List Char) :
    (Operator.instanceOf negated).EndsAt text := by
  intro c rest _ hc
  cases hc

/-- Where no tokens run into each other, the written condition is one of its texts. -/
theorem conditionText_printed {style : BracketStyle} (hstyle : style.Valid)
    {filter : AttributeFilter} (hprintable : filter.Printable)
    (hseparated : filter.Separated style) :
    ConditionText (filter.printedCondition style) filter.propertyPath filter.test := by
  obtain ⟨path, test, source⟩ := filter
  cases path with
  | none =>
      cases test with
      | none => exact .nothing
      | some test =>
          obtain ⟨operator, operand⟩ := test
          obtain ⟨⟨negated, hoperator⟩, hoperand⟩ := hprintable
          obtain rfl : operator = .instanceOf negated := hoperator
          exact .typeTest hstyle.afterOperator (typeText_printed hstyle.quote hoperand) hstyle.trail
  | some path =>
      obtain ⟨hpath, hstart, htest⟩ := hprintable
      cases test with
      | none =>
          have htext := ConditionText.property hpath (fun h => absurd h hstart) hstyle.afterPath
          simpa [AttributeFilter.printedCondition] using htext
      | some test =>
          obtain ⟨operator, operand⟩ := test
          obtain ⟨hword, hends⟩ := hseparated _ rfl
          have htext := ConditionText.comparison hpath hstart hstyle.afterPath (hword rfl)
            hstyle.afterOperator hends (operandText_printed hstyle.quote (htest _ rfl)) hstyle.trail
          simpa [AttributeFilter.printedCondition] using htext

theorem IsBlank.append_cancel {taken other rest tail : List Char} (htaken : IsBlank taken)
    (hother : IsBlank other) (hrest : Stops Text.isBlank rest) (htail : Stops Text.isBlank tail)
    (h : taken ++ rest = other ++ tail) : taken = other ∧ rest = tail := by
  have htakenAll := congrArg (List.takeWhile Text.isBlank) h
  rw [Stops.takeWhile_append htaken hrest, Stops.takeWhile_append hother htail] at htakenAll
  subst htakenAll
  exact ⟨rfl, List.append_cancel_left h⟩

/-- The white space around the operator and the operand of a comparison is settled by its text. -/
theorem separated_of_conditionText {path : String} {operator : Operator} {operand : Operand}
    {before between text after : List Char} (hbefore : IsBlank before)
    (htext : OperandText text operand)
    (h : ConditionText
      (path.toList ++ (before ++ (operator.symbol.toList ++ (between ++ (text ++ after)))))
      (some path) (some ⟨operator, operand⟩)) :
    (operator = .instanceOf false → before ≠ []) ∧ operator.EndsAt (between ++ text) := by
  generalize hwhole :
    path.toList ++ (before ++ (operator.symbol.toList ++ (between ++ (text ++ after)))) = whole at h
  cases h with
  | @comparison _ _ _ before' between' text' after' _ _ hbefore' hword hbetween' hends htext' _ =>
      have hpath := List.append_cancel_left hwhole
      obtain ⟨rfl, hoperator⟩ := hbefore.append_cancel hbefore'
        (stops_isBlank_symbol operator _) (stops_isBlank_symbol operator _) hpath
      have hlater := List.append_cancel_left hoperator
      refine ⟨hword, ?_⟩
      rw [← endsAt_append_iff htext after, hlater, endsAt_append_iff htext']
      exact hends

theorem conditionText_of_wellFormed {style : BracketStyle} (hstyle : style.Valid)
    {path source : String} {test : Option AttributeTest} (hpath : IsPropertyPath path.toList)
    (h : ((⟨some path, test, source⟩ : AttributeFilter).styled style).WellFormed) :
    ConditionText ((⟨some path, test, source⟩ : AttributeFilter).printedCondition style)
      (some path) test := by
  obtain ⟨lead, condition, htext, hlead, hcondition⟩ := h
  have hstops : Stops Text.isBlank
      ((⟨some path, test, source⟩ : AttributeFilter).printedCondition style ++ [']']) := by
    simp only [AttributeFilter.printedCondition, Option.elim_some, List.append_assoc]
    exact hpath.stops_isBlank _
  have hbracket := (String.toList_ofList.symm.trans htext)
  obtain ⟨-, hbrackets⟩ := hstyle.lead.append_cancel hlead hstops (hcondition.stops_isBlank [])
    (List.cons.inj hbracket).2
  rw [List.append_cancel_right hbrackets]
  exact hcondition

theorem wellFormed_styled_iff {style : BracketStyle} (hstyle : style.Valid)
    {filter : AttributeFilter} (hprintable : filter.Printable) :
    (filter.styled style).WellFormed ↔ filter.Separated style := by
  constructor
  · intro h test htest
    obtain ⟨path, found, source⟩ := filter
    obtain rfl : found = some test := htest
    obtain ⟨operator, operand⟩ := test
    cases path with
    | none =>
        obtain ⟨⟨negated, hoperator⟩, -⟩ := hprintable
        obtain rfl : operator = .instanceOf negated := hoperator
        exact ⟨by simp, endsAt_instanceOf negated _⟩
    | some path =>
        obtain ⟨hpath, -, hoperand⟩ := hprintable
        have hcondition := conditionText_of_wellFormed hstyle hpath h
        rw [AttributeFilter.printedCondition, Option.elim_some, Option.elim_some,
          List.append_assoc] at hcondition
        obtain ⟨hword, hends⟩ := separated_of_conditionText hstyle.afterPath
          (operandText_printed hstyle.quote (hoperand _ rfl)) hcondition
        exact ⟨fun _ => hword, hends⟩
  · intro hseparated
    exact ⟨style.lead, filter.printedCondition style, String.toList_ofList, hstyle.lead,
      conditionText_printed hstyle hprintable hseparated⟩

/-! ## Filters and selectors -/

theorem filter_wellFormed_styled_iff {style : Nat → BracketStyle}
    (hstyle : ∀ index, (style index).Valid) {filter : Filter} (hprintable : filter.Printable) :
    (filter.styled style).WellFormed ↔
      ∀ j (_ : j < filter.attributes.length), filter.attributes[j].Separated (style j) := by
  obtain ⟨hprimary, hattributes⟩ := hprintable
  constructor
  · rintro ⟨-, hstyled⟩ j hj
    have hmem : filter.attributes[j].styled (style j) ∈ (filter.styled style).attributes :=
      List.mem_mapIdx.2 ⟨j, hj, rfl⟩
    exact (wellFormed_styled_iff (hstyle j) (hattributes _ (List.getElem_mem hj))).1
      (hstyled _ hmem)
  · intro hseparated
    refine ⟨hprimary, fun found hfound => ?_⟩
    obtain ⟨j, hj, rfl⟩ := List.mem_mapIdx.1 hfound
    exact (wellFormed_styled_iff (hstyle j) (hattributes _ (List.getElem_mem hj))).2
      (hseparated j hj)

theorem commaText_joined {comma : Nat → List Char × List Char} {filters : List Filter}
    (hcomma : ∀ index, IsBlank (comma index).1 ∧ IsBlank (comma index).2)
    (h : ∀ filter ∈ filters, filter.WellFormed) : CommaText (joined comma filters) filters := by
  induction filters generalizing comma with
  | nil => exact .none
  | cons filter filters ih =>
      obtain ⟨hfilter, hfilters⟩ := List.forall_mem_cons.1 h
      obtain ⟨hbefore, hafter⟩ := hcomma 0
      exact .next hbefore hafter hfilter (ih (fun index => hcomma (index + 1)) hfilters)

theorem CommaText.wellFormed {text : List Char} {filters : List Filter}
    (h : CommaText text filters) : ∀ filter ∈ filters, filter.WellFormed := by
  induction h with
  | none => simp
  | next _ _ hfilter _ ih => exact List.forall_mem_cons.2 ⟨hfilter, ih⟩

theorem selectorText_written_iff {comma : Nat → List Char × List Char}
    (hcomma : ∀ index, IsBlank (comma index).1 ∧ IsBlank (comma index).2) {selector : Selector}
    (hne : selector.filters ≠ []) :
    SelectorText (selector.written comma) selector ↔
      ∀ filter ∈ selector.filters, filter.WellFormed := by
  obtain ⟨filters⟩ := selector
  obtain ⟨first, others, rfl⟩ := List.exists_cons_of_ne_nil hne
  constructor
  · intro h
    generalize written comma ⟨first :: others⟩ = text at h
    cases h with
    | intro hfirst hothers => exact List.forall_mem_cons.2 ⟨hfirst, hothers.wellFormed⟩
  · intro h
    obtain ⟨hfirst, hothers⟩ := List.forall_mem_cons.1 h
    exact .intro hfirst (commaText_joined hcomma hothers)

/-- A selector that can be written is parsed back from any text that it is written as, with the
brackets as written for the texts of its attribute filters, just if the white space keeps its tokens
apart. -/
theorem parse_print {selector : Selector} {style : SelectorStyle} (hprintable : selector.Printable)
    (hstyle : style.Valid) :
    parse (selector.print style) = .ok (selector.styled style) ↔ selector.Separated style := by
  obtain ⟨hne, hfilters⟩ := hprintable
  have hcomma : ∀ index, IsBlank (style.comma index).1 ∧ IsBlank (style.comma index).2 :=
    fun index => ⟨hstyle.beforeComma index, hstyle.afterComma index⟩
  have hstyled : (selector.styled style).filters ≠ [] := by
    simpa [styled] using hne
  rw [parse_eq_ok_iff_selectorText, print, String.toList_ofList,
    selectorText_written_iff hcomma hstyled]
  constructor
  · intro h i hi
    have hmem : selector.filters[i].styled (style.bracket i) ∈ (selector.styled style).filters :=
      List.mem_mapIdx.2 ⟨i, hi, rfl⟩
    exact (filter_wellFormed_styled_iff (hstyle.bracket i)
      (hfilters _ (List.getElem_mem hi))).1 (h _ hmem)
  · intro hseparated filter hfilter
    obtain ⟨i, hi, rfl⟩ := List.mem_mapIdx.1 hfilter
    exact (filter_wellFormed_styled_iff (hstyle.bracket i)
      (hfilters _ (List.getElem_mem hi))).2 (hseparated i hi)

/-- A property with a comparison whose operand would lengthen the operator, and an identifier. -/
def comparedProperty : Selector :=
  ⟨[⟨some (.propertyName "a"), [⟨some "b", some ⟨.less false, .unquoted "=x"⟩, ""⟩]⟩,
    ⟨some (.identifier "7"), []⟩]⟩

def spacedStyle : SelectorStyle where
  bracket _ _ := ⟨[], [], [' '], [], '"'⟩
  comma _ := ([], [' '])

theorem printable_comparedOperand : (Operand.unquoted "=x").Printable := by
  have htext : "=x".toList = ['=', 'x'] := by decide +kernel
  rw [Operand.Printable, htext]
  refine ⟨⟨by simp, List.all_eq_true.1 (by decide)⟩, ?_, ?_⟩
  · rintro ⟨sign, c, rest, rfl | rfl, heq, hc⟩
    · obtain ⟨rfl, -⟩ := List.cons.inj heq
      exact absurd hc (by decide)
    · exact absurd (List.cons.inj heq).1 (by decide)
  · rintro ⟨value, taken, rest, heq, htaken⟩
    cases taken with
    | nil => cases value <;> cases htaken
    | cons c taken =>
        obtain ⟨rfl, -⟩ := List.cons.inj heq
        have hhead : some ('='.toLower) = (truthText value).head? := congrArg List.head? htaken
        revert hhead
        cases value <;> decide

theorem comparedProperty_printable : comparedProperty.Printable := by
  have hname : ∀ {text : List Char} (c : Char), text = [c] → isNameStart c = true → IsName text :=
    fun c htext hc => ⟨c, [], htext, hc, by simp⟩
  have hpath : IsPropertyPath "b".toList :=
    ⟨"b", [], by decide +kernel,
      List.forall_mem_singleton.2 (hname 'b' (by decide +kernel) (by decide))⟩
  have hfirst : Filter.Printable
      ⟨some (.propertyName "a"), [⟨some "b", some ⟨.less false, .unquoted "=x"⟩, ""⟩]⟩ := by
    refine ⟨?_, List.forall_mem_singleton.2 ⟨hpath, by decide +kernel, ?_⟩⟩
    · rintro _ ⟨⟩
      exact hname 'a' (by decide +kernel) (by decide)
    · rintro _ ⟨⟩
      exact printable_comparedOperand
  have hsecond : Filter.Printable ⟨some (.identifier "7"), []⟩ := by
    refine ⟨?_, by simp⟩
    rintro _ ⟨⟩
    exact ⟨by decide +kernel, List.all_eq_true.1 (by decide +kernel)⟩
  exact ⟨by simp [comparedProperty],
    List.forall_mem_cons.2 ⟨hfirst, List.forall_mem_singleton.2 hsecond⟩⟩

theorem spacedStyle_valid : spacedStyle.Valid := by
  have hspace : IsBlank [' '] := by
    intro c hc
    obtain rfl : c = ' ' := by simpa using hc
    decide
  exact ⟨fun _ _ => ⟨.nil, .nil, hspace, .nil, Or.inl rfl⟩, fun _ => .nil, fun _ => hspace⟩

theorem comparedProperty_separated : comparedProperty.Separated spacedStyle := by
  intro i hi j hj test htest
  match i, j with
  | 0, 0 =>
      cases htest
      refine ⟨by simp, fun c rest htext hc => ?_⟩
      obtain rfl : ' ' = c := (List.cons.inj htext).1
      cases hc
  | 0, j + 1 => exact absurd hj (by simp [comparedProperty])
  | 1, j => exact absurd hj (by simp [comparedProperty])
  | i + 2, j => exact absurd hi (by simp [comparedProperty])

/-- The space keeps the operator apart from its operand. -/
theorem parse_print_comparedProperty :
    parse "a[b< =x], #7" = .ok
      ⟨[⟨some (.propertyName "a"), [⟨some "b", some ⟨.less false, .unquoted "=x"⟩, "[b< =x]"⟩]⟩,
        ⟨some (.identifier "7"), []⟩]⟩ := by
  have hparse := (parse_print comparedProperty_printable spacedStyle_valid).2
    comparedProperty_separated
  have hprint : comparedProperty.print spacedStyle = "a[b< =x], #7" := by decide +kernel
  rw [hprint] at hparse
  rw [hparse]
  decide +kernel

end Selector

end ObjectQuery
