import ObjectQuery.Proofs.Selector.Names
import ObjectQuery.Proofs.Selector.Operands
import ObjectQuery.Proofs.Selector.Operators
/-!
# Attribute filters as they are written

The texts that may stand between brackets. An attribute filter is read exactly where one of these
texts stands, whatever follows the closing bracket.
-/

namespace ObjectQuery

namespace Selector

open Grammar

def typeWord : List Char :=
  (Operator.instanceOf false).symbol.toList

/-- The texts of a condition, behind the white space that leads it: nothing, a type test, a property
or a comparison of a property. A path that starts like a type test is only read as a path if it is
that word alone. -/
inductive ConditionText : List Char → Option String → Option AttributeTest → Prop
  | nothing : ConditionText [] none none
  | typeTest {negated : Bool} {operand : Operand} {before text after : List Char}
      (hbefore : IsBlank before) (htext : TypeText text operand) (hafter : IsBlank after) :
      ConditionText ((Operator.instanceOf negated).symbol.toList ++ (before ++ (text ++ after)))
        none (some ⟨.instanceOf negated, operand⟩)
  | property {path : String} {after : List Char} (hpath : IsPropertyPath path.toList)
      (hstart : typeWord <+: path.toList → path.toList = typeWord) (hafter : IsBlank after) :
      ConditionText (path.toList ++ after) (some path) none
  | comparison {path : String} {operator : Operator} {operand : Operand}
      {before between text after : List Char} (hpath : IsPropertyPath path.toList)
      (hstart : ¬ typeWord <+: path.toList) (hbefore : IsBlank before)
      (hword : operator = .instanceOf false → before ≠ []) (hbetween : IsBlank between)
      (hends : operator.EndsAt (between ++ text)) (htext : OperandText text operand)
      (hafter : IsBlank after) :
      ConditionText
        (path.toList ++ (before ++ (operator.symbol.toList ++ (between ++ (text ++ after)))))
        (some path) (some ⟨operator, operand⟩)

end Selector

def AttributeFilter.WellFormed (filter : AttributeFilter) : Prop :=
  ∃ lead condition, filter.text.toList = '[' :: (lead ++ (condition ++ [']'])) ∧
    Selector.IsBlank lead ∧ Selector.ConditionText condition filter.propertyPath filter.test

namespace Selector

open Grammar

/-! ## White space -/

theorem isBareChar_of_isBlank {c : Char} (h : Text.isBlank c = true) : isBareChar c = false := by
  simp [isBareChar, h]

theorem IsBlank.stops_append {test : Char → Bool} {taken rest : List Char} (htaken : IsBlank taken)
    (htest : ∀ c, Text.isBlank c = true → test c = false) (hrest : Stops test rest) :
    Stops test (taken ++ rest) := by
  cases taken with
  | nil => exact hrest
  | cons c taken => exact Stops.cons_iff.2 (htest c (htaken c (by simp)))

theorem IsBlank.eq_nil_of_stops {taken rest : List Char} (htaken : IsBlank taken)
    (h : Stops Text.isBlank (taken ++ rest)) : taken = [] := by
  cases taken with
  | nil => rfl
  | cons c taken =>
      have hc := htaken c (by simp)
      rw [Stops.cons_iff.1 h] at hc
      cases hc

theorem isBlank_eq_false_of_bare {c : Char} (hc : isBareChar c = true) :
    Text.isBlank c = false := by
  by_contra hblank
  rw [isBareChar_of_isBlank (by simpa using hblank)] at hc
  cases hc

theorem stops_isBlank_of_bare {c : Char} (hc : isBareChar c = true) (rest : List Char) :
    Stops Text.isBlank (c :: rest) :=
  Stops.cons_iff.2 (isBlank_eq_false_of_bare hc)

theorem IsQuote.isBlank_eq_false {c : Char} (hc : IsQuote c) : Text.isBlank c = false := by
  rcases hc with rfl | rfl <;> decide

theorem OperandText.exists_cons {text : List Char} {operand : Operand}
    (h : OperandText text operand) : ∃ c rest, text = c :: rest ∧ Text.isBlank c = false := by
  cases h with
  | string hquote _ => exact ⟨_, _, rfl, hquote.isBlank_eq_false⟩
  | @number negative whole fraction hwhole _ =>
      obtain ⟨c, rest, htext, hc⟩ := exists_cons_numberText negative hwhole fraction
      exact ⟨c, rest, htext, isBlank_eq_false_of_bare hc⟩
  | boolean htext =>
      obtain ⟨c, rest, rfl, hc⟩ := (isBare_of_truth htext).exists_cons
      exact ⟨c, rest, rfl, isBlank_eq_false_of_bare hc⟩
  | unquoted hbare _ _ =>
      obtain ⟨c, rest, rfl, hc⟩ := hbare.exists_cons
      exact ⟨c, rest, rfl, isBlank_eq_false_of_bare hc⟩

theorem OperandText.stops_isBlank {text : List Char} {operand : Operand}
    (h : OperandText text operand) (rest : List Char) : Stops Text.isBlank (text ++ rest) := by
  obtain ⟨c, tail, rfl, hc⟩ := h.exists_cons
  exact Stops.cons_iff.2 hc

theorem TypeText.exists_cons {text : List Char} {operand : Operand}
    (h : TypeText text operand) : ∃ c rest, text = c :: rest ∧ Text.isBlank c = false := by
  cases h with
  | string hquote _ => exact ⟨_, _, rfl, hquote.isBlank_eq_false⟩
  | unquoted hbare =>
      obtain ⟨c, rest, rfl, hc⟩ := hbare.exists_cons
      exact ⟨c, rest, rfl, isBlank_eq_false_of_bare hc⟩

theorem TypeText.stops_isBlank {text : List Char} {operand : Operand}
    (h : TypeText text operand) (rest : List Char) : Stops Text.isBlank (text ++ rest) := by
  obtain ⟨c, tail, rfl, hc⟩ := h.exists_cons
  exact Stops.cons_iff.2 hc

/-! ## Starts of operators and paths -/

theorem exists_cons_symbol (operator : Operator) :
    ∃ c rest, operator.symbol.toList = c :: rest ∧ isBareChar c = true ∧ c ≠ '.' ∧
      (operator ≠ .instanceOf false → isNameChar c = false) := by
  have hall : ∀ operator ∈ Operator.all, operator.symbol.toList.head?.all fun c =>
      decide (isBareChar c = true ∧ c ≠ '.' ∧
        (operator ≠ .instanceOf false → isNameChar c = false)) := by
    decide +kernel
  have hsome : ∀ operator ∈ Operator.all, operator.symbol.toList ≠ [] := by
    decide +kernel
  obtain ⟨c, rest, hsymbol⟩ := List.exists_cons_of_ne_nil (hsome operator operator.mem_all)
  have hc := hall operator operator.mem_all
  rw [hsymbol, List.head?_cons, Option.all_some, decide_eq_true_eq] at hc
  exact ⟨c, rest, hsymbol, hc⟩

theorem stops_isBlank_symbol (operator : Operator) (rest : List Char) :
    Stops Text.isBlank (operator.symbol.toList ++ rest) := by
  obtain ⟨c, tail, hsymbol, hc, -⟩ := exists_cons_symbol operator
  rw [hsymbol]
  exact stops_isBlank_of_bare hc _

theorem IsPropertyPath.exists_cons {path : List Char} (h : IsPropertyPath path) :
    ∃ c rest, path = c :: rest ∧ isNameStart c = true := by
  obtain ⟨first, others, rfl, hnames⟩ := h
  obtain ⟨c, rest, hfirst, hc⟩ := (hnames first (by simp)).exists_cons
  rw [hfirst]
  exact ⟨c, _, rfl, hc⟩

theorem IsPropertyPath.stops_isBlank {path : List Char} (h : IsPropertyPath path)
    (rest : List Char) : Stops Text.isBlank (path ++ rest) := by
  obtain ⟨c, tail, rfl, hc⟩ := h.exists_cons
  exact stops_isBlank_of_bare (isBareChar_of_isNameChar (isNameChar_of_isNameStart hc)) _

theorem IsPropertyPath.isBareChar {path : List Char} (h : IsPropertyPath path) :
    ∀ c ∈ path, isBareChar c = true := by
  obtain ⟨first, others, rfl, hnames⟩ := h
  have hbare : ∀ name ∈ first :: others, ∀ c ∈ name.toList, Selector.isBareChar c = true :=
    fun name hname c hc => isBareChar_of_isNameChar ((hnames name hname).isNameChar c hc)
  intro c hc
  rcases List.mem_append.1 hc with hfirst | hothers
  · exact hbare first (by simp) c hfirst
  · obtain ⟨name, hname, hmem⟩ := List.mem_flatMap.1 hothers
    rcases List.mem_cons.1 hmem with rfl | hmem
    · decide
    · exact hbare name (List.mem_cons_of_mem _ hname) c hmem

theorem endsNames_cons {separator c : Char} (hname : isNameChar c = false) (hc : c ≠ separator)
    (rest : List Char) : EndsNames separator (c :: rest) :=
  ⟨Stops.cons_iff.2 hname, fun _ htext => absurd (List.cons.inj htext).1 hc⟩

theorem isNameChar_of_isBlank {c : Char} (h : Text.isBlank c = true) : isNameChar c = false := by
  by_contra hname
  have hbare := isBareChar_of_isNameChar (by simpa using hname)
  rw [isBareChar_of_isBlank h] at hbare
  cases hbare

theorem IsBlank.endsNames_append {taken rest : List Char} (htaken : IsBlank taken)
    (hrest : EndsNames '.' rest) : EndsNames '.' (taken ++ rest) := by
  cases taken with
  | nil => exact hrest
  | cons c taken =>
      have hc := htaken c (by simp)
      refine endsNames_cons (isNameChar_of_isBlank hc) ?_ _
      rintro rfl
      exact absurd hc (by decide)

theorem endsNames_before_symbol {operator : Operator} {before : List Char}
    (hbefore : IsBlank before) (hword : operator = .instanceOf false → before ≠ [])
    (rest : List Char) : EndsNames '.' (before ++ (operator.symbol.toList ++ rest)) := by
  obtain ⟨c, tail, hsymbol, -, hdot, hname⟩ := exists_cons_symbol operator
  by_cases hoperator : operator = .instanceOf false
  · obtain ⟨d, before, rfl⟩ := List.exists_cons_of_ne_nil (hword hoperator)
    have hd := hbefore d (by simp)
    refine endsNames_cons (isNameChar_of_isBlank hd) ?_ _
    rintro rfl
    exact absurd hd (by decide)
  · rw [hsymbol]
    exact hbefore.endsNames_append (endsNames_cons (hname hoperator) hdot _)

theorem endsNames_before_bracket {after : List Char} (hafter : IsBlank after) (rest : List Char) :
    EndsNames '.' (after ++ ']' :: rest) :=
  hafter.endsNames_append (endsNames_cons (by decide) (by decide) rest)

theorem stops_bare_before_bracket {after : List Char} (hafter : IsBlank after) (rest : List Char) :
    Stops isBareChar (after ++ ']' :: rest) :=
  hafter.stops_append (fun _ => isBareChar_of_isBlank) (Stops.cons_iff.2 (by decide))

theorem stops_blank_bracket (rest : List Char) : Stops Text.isBlank (']' :: rest) :=
  Stops.cons_iff.2 (by decide)

/-! ## Type tests -/

theorem read_typeOperator (negated : Bool) (rest : List Char) :
    (Peg.choice (symbol (.instanceOf false)) (symbol (.instanceOf true))).read
      ((Operator.instanceOf negated).symbol.toList ++ rest) =
        some (.instanceOf negated, rest) := by
  cases negated with
  | false => exact Peg.read_choice_left _ (read_symbol _ rest)
  | true =>
      refine Peg.read_choice_right (read_symbol_eq_none ?_) (read_symbol _ rest)
      rintro ⟨tail, htail⟩
      exact absurd (List.cons.inj htail).1 (by decide)

theorem typeText_of_read_test {text rest : List Char} {test : AttributeTest}
    (h : instanceOfTest.read text = some (test, rest)) :
    ∃ negated before taken after,
      text = (Operator.instanceOf negated).symbol.toList ++ (before ++ (taken ++ (after ++ rest))) ∧
        test.operator = .instanceOf negated ∧ IsBlank before ∧ TypeText taken test.operand ∧
        IsBlank after ∧ Stops Text.isBlank rest := by
  obtain ⟨⟨operator, operand⟩, hseq, rfl⟩ := Peg.read_map_iff.1 h
  obtain ⟨middle, hoperator, hlater⟩ := Peg.read_seq_iff.1 hseq
  obtain ⟨before, next, hbefore, hlater⟩ := Peg.read_dropLeft_iff.1 hlater
  obtain ⟨after, last, hoperand, hafter⟩ := Peg.read_dropRight_iff.1 hlater
  obtain ⟨rfl, hblank, -⟩ := read_blank_iff.1 hbefore
  obtain ⟨rfl, hblank', hstops⟩ := read_blank_iff.1 hafter
  obtain ⟨taken, rfl, htaken⟩ := typeText_of_read hoperand
  rcases Peg.read_choice_iff.1 hoperator with hsymbol | ⟨-, hsymbol⟩
  · obtain ⟨rfl, rfl⟩ := read_symbol_iff.1 hsymbol
    exact ⟨false, before, taken, after, rfl, rfl, hblank, htaken, hblank', hstops⟩
  · obtain ⟨rfl, rfl⟩ := read_symbol_iff.1 hsymbol
    exact ⟨true, before, taken, after, rfl, rfl, hblank, htaken, hblank', hstops⟩

theorem read_typeTest {negated : Bool} {operand : Operand} {before text after : List Char}
    (hbefore : IsBlank before) (htext : TypeText text operand) (hafter : IsBlank after)
    (rest : List Char) :
    instanceOfTest.read
      ((Operator.instanceOf negated).symbol.toList ++
        (before ++ (text ++ (after ++ ']' :: rest)))) =
          some (⟨.instanceOf negated, operand⟩, ']' :: rest) := by
  have hread := read_typeOperand htext (stops_bare_before_bracket hafter rest)
  have hoperand : (Peg.dropLeft blank (.dropRight typeOperand blank)).read
      (before ++ (text ++ (after ++ ']' :: rest))) = some (operand, ']' :: rest) := by
    apply Peg.read_dropLeft (read_blank hbefore (htext.stops_isBlank _))
    exact Peg.read_dropRight hread (read_blank hafter (stops_blank_bracket rest))
  exact Peg.read_map _ (Peg.read_seq (read_typeOperator negated _) hoperand)

theorem exists_read_typeTest {before : List Char} (hbefore : IsBlank before) {c : Char}
    (hc : isBareChar c = true) (text : List Char) :
    ∃ test rest, instanceOfTest.read (typeWord ++ (before ++ c :: text)) = some (test, rest) := by
  obtain ⟨operand, middle, hread⟩ := exists_read_typeOperand hc text
  obtain ⟨after, rest, hafter⟩ : ∃ after rest, blank.read middle = some (after, rest) :=
    ⟨_, _, rfl⟩
  have hoperand : (Peg.dropLeft blank (.dropRight typeOperand blank)).read (before ++ c :: text) =
      some (operand, rest) := by
    apply Peg.read_dropLeft (read_blank hbefore (stops_isBlank_of_bare hc text))
    exact Peg.read_dropRight hread hafter
  exact ⟨_, rest, Peg.read_map _ (Peg.read_seq (read_typeOperator false _) hoperand)⟩

theorem read_typeTest_eq_none {text : List Char} (hword : ¬ typeWord <+: text)
    (hmark : ∀ rest, text ≠ '!' :: rest) : instanceOfTest.read text = none := by
  unfold instanceOfTest
  rw [Peg.read_map_eq_none_iff, Peg.read_seq_eq_none_iff]
  intro operator middle hoperator
  rcases Peg.read_choice_iff.1 hoperator with hsymbol | ⟨-, hsymbol⟩
  · exact absurd ⟨middle, (read_symbol_iff.1 hsymbol).1.symm⟩ hword
  · exact absurd (read_symbol_iff.1 hsymbol).1 (hmark _)

/-! ## Comparisons -/

theorem endsAt_append_iff {operator : Operator} {operand : Operand} {between text : List Char}
    (htext : OperandText text operand) (rest : List Char) :
    operator.EndsAt (between ++ (text ++ rest)) ↔ operator.EndsAt (between ++ text) := by
  obtain ⟨c, tail, rfl, -⟩ := htext.exists_cons
  cases between with
  | nil => simp [Operator.EndsAt]
  | cons d between => simp [Operator.EndsAt]

theorem operandText_of_read_comparison {text rest : List Char} {test : AttributeTest}
    (h : comparison.read text = some (test, rest)) :
    ∃ between taken after,
      text = test.operator.symbol.toList ++ (between ++ (taken ++ (after ++ rest))) ∧
        IsBlank between ∧ test.operator.EndsAt (between ++ taken) ∧
        OperandText taken test.operand ∧ IsBlank after ∧ Stops Text.isBlank rest := by
  obtain ⟨⟨found, operand⟩, hseq, rfl⟩ := Peg.read_map_iff.1 h
  obtain ⟨middle, hoperator, hlater⟩ := Peg.read_seq_iff.1 hseq
  obtain ⟨between, next, hbetween, hlater⟩ := Peg.read_dropLeft_iff.1 hlater
  obtain ⟨after, last, hoperand, hafter⟩ := Peg.read_dropRight_iff.1 hlater
  obtain ⟨rfl, hblank, -⟩ := read_blank_iff.1 hbetween
  obtain ⟨rfl, hblank', hstops⟩ := read_blank_iff.1 hafter
  obtain ⟨taken, rfl, htaken⟩ := operandText_of_read hoperand
  obtain ⟨rfl, hends⟩ := read_operator_iff.1 hoperator
  rw [endsAt_append_iff htaken] at hends
  exact ⟨between, taken, after, rfl, hblank, hends, htaken, hblank', hstops⟩

theorem read_comparison {found : Operator} {operand : Operand} {between text after : List Char}
    (hbetween : IsBlank between) (hends : found.EndsAt (between ++ text))
    (htext : OperandText text operand) (hafter : IsBlank after) (rest : List Char) :
    comparison.read (found.symbol.toList ++ (between ++ (text ++ (after ++ ']' :: rest)))) =
      some (⟨found, operand⟩, ']' :: rest) := by
  have hread := read_operand htext (stops_bare_before_bracket hafter rest)
  rw [← endsAt_append_iff htext (after ++ ']' :: rest)] at hends
  have hoperand : (Peg.dropLeft blank (.dropRight Grammar.operand blank)).read
      (between ++ (text ++ (after ++ ']' :: rest))) = some (operand, ']' :: rest) := by
    apply Peg.read_dropLeft (read_blank hbetween (htext.stops_isBlank _))
    exact Peg.read_dropRight hread (read_blank hafter (stops_blank_bracket rest))
  exact Peg.read_map _ (Peg.read_seq (read_operator hends) hoperand)

theorem read_comparison_eq_none (rest : List Char) : comparison.read (']' :: rest) = none := by
  unfold comparison
  rw [Peg.read_map_eq_none_iff, Peg.read_seq_eq_none_iff]
  intro found middle hoperator
  obtain ⟨c, tail, hsymbol, hc, -⟩ := exists_cons_symbol found
  obtain ⟨htext, -⟩ := read_operator_iff.1 hoperator
  rw [hsymbol] at htext
  rw [← (List.cons.inj htext).1] at hc
  exact absurd hc (by decide)

/-! ## Conditions -/

theorem read_condition_of_typeTest {text rest : List Char} {test : AttributeTest}
    (h : instanceOfTest.read text = some (test, rest)) :
    condition.read text = some ((none, some test), rest) :=
  Peg.read_choice_left _ (Peg.read_map _ h)

theorem read_condition_of_propertyTest {text rest : List Char} {path : String}
    {test : Option AttributeTest} (hnone : instanceOfTest.read text = none)
    (h : propertyTest.read text = some ((path, test), rest)) :
    condition.read text = some ((some path, test), rest) := by
  apply Peg.read_choice_right (Peg.read_map_eq_none_iff.2 hnone)
  exact Peg.read_map _ (Peg.read_optional_present h)

theorem read_condition_of_nothing {text : List Char} (hnone : instanceOfTest.read text = none)
    (h : propertyTest.read text = none) : condition.read text = some ((none, none), text) := by
  apply Peg.read_choice_right (Peg.read_map_eq_none_iff.2 hnone)
  exact Peg.read_map _ (Peg.read_optional_absent h)

/-- A path only starts with the word for a type test where that word starts the whole text. -/
theorem typeWord_prefix_path {path rest : List Char} (hrest : Stops isNameChar rest)
    (h : typeWord <+: path ++ rest) : typeWord <+: path := by
  rcases List.prefix_or_prefix_of_prefix h (List.prefix_append path rest) with hle | ⟨more, hmore⟩
  · exact hle
  · cases more with
    | nil =>
        rw [List.append_nil] at hmore
        exact hmore ▸ List.prefix_refl _
    | cons c more =>
        rw [← hmore, List.prefix_append_right_inj] at h
        obtain ⟨tail, rfl⟩ := h
        have hword : typeWord.all isNameChar = true := by decide +kernel
        have hc := List.all_eq_true.1 hword c (by rw [← hmore]; simp)
        rw [Stops.cons_iff.1 hrest] at hc
        cases hc

theorem IsPropertyPath.typeTest_eq_none {path rest : List Char} (hpath : IsPropertyPath path)
    (hstart : ¬ typeWord <+: path) (hrest : Stops isNameChar rest) :
    instanceOfTest.read (path ++ rest) = none := by
  apply read_typeTest_eq_none
  · intro h
    exact hstart (typeWord_prefix_path hrest h)
  · obtain ⟨c, tail, rfl, hc⟩ := hpath.exists_cons
    intro more hmore
    rw [(List.cons.inj hmore).1] at hc
    exact absurd hc (by decide)

theorem read_typeOperand_eq_none (rest : List Char) : typeOperand.read (']' :: rest) = none := by
  apply Peg.read_choice_eq_none_iff.2
  constructor
  · apply read_string_eq_none
    rintro c tail htext (rfl | rfl)
    · exact absurd (List.cons.inj htext).1 (by decide)
    · exact absurd (List.cons.inj htext).1 (by decide)
  · exact Peg.read_map_eq_none_iff.2 (Peg.read_run1_eq_none_iff.2 (Stops.cons_iff.2 (by decide)))

theorem read_typeWord_eq_none {after : List Char} (hafter : IsBlank after) (rest : List Char) :
    instanceOfTest.read (typeWord ++ (after ++ ']' :: rest)) = none := by
  have hblank := read_blank hafter (stops_blank_bracket rest)
  unfold instanceOfTest
  rw [Peg.read_map_eq_none_iff, Peg.read_seq_eq_none_iff]
  intro found middle hoperator
  rw [typeWord, read_typeOperator false] at hoperator
  cases hoperator
  rw [Peg.read_dropLeft_eq_none_iff]
  intro taken next htaken
  rw [hblank] at htaken
  cases htaken
  rw [Peg.read_dropRight_eq_none_iff]
  intro operand last hoperand
  have hnone := read_typeOperand_eq_none rest
  rw [hoperand] at hnone
  cases hnone

theorem read_propertyTest_iff {text rest : List Char} {path : String}
    {test : Option AttributeTest} :
    propertyTest.read text = some ((path, test), rest) ↔
      ∃ after middle, text = path.toList ++ (after ++ middle) ∧ IsPropertyPath path.toList ∧
        EndsNames '.' (after ++ middle) ∧ IsBlank after ∧ Stops Text.isBlank middle ∧
        (Peg.optional comparison).read middle = some (test, rest) := by
  unfold propertyTest
  rw [Peg.read_seq_iff]
  constructor
  · rintro ⟨middle, hpath, htest⟩
    obtain ⟨after, next, hpath, hafter⟩ := Peg.read_dropRight_iff.1 hpath
    obtain ⟨rfl, hblank, hstops⟩ := read_blank_iff.1 hafter
    obtain ⟨rfl, hpath, hends⟩ := read_propertyPath_iff.1 hpath
    exact ⟨after, middle, rfl, hpath, hends, hblank, hstops, htest⟩
  · rintro ⟨after, middle, rfl, hpath, hends, hblank, hstops, htest⟩
    have hread := read_propertyPath_iff.2 ⟨rfl, hpath, hends⟩
    exact ⟨middle, Peg.read_dropRight hread (read_blank hblank hstops), htest⟩

theorem read_propertyTest_eq_none {text : List Char} (h : Stops isNameStart text) :
    propertyTest.read text = none := by
  unfold propertyTest
  rw [Peg.read_seq_eq_none_iff]
  intro path middle hread
  obtain ⟨after, next, hpath, -⟩ := Peg.read_dropRight_iff.1 hread
  rw [read_propertyPath_eq_none_iff.2 h] at hpath
  cases hpath

/-- Between brackets a condition is read from any of its texts. -/
theorem read_condition {text : List Char} {path : Option String} {test : Option AttributeTest}
    (h : ConditionText text path test) (rest : List Char) :
    condition.read (text ++ ']' :: rest) = some ((path, test), ']' :: rest) := by
  cases h with
  | nothing =>
      apply read_condition_of_nothing
      · apply read_typeTest_eq_none
        · rintro ⟨tail, htail⟩
          exact absurd (List.cons.inj htail).1 (by decide)
        · intro tail htail
          exact absurd (List.cons.inj htail).1 (by decide)
      · exact read_propertyTest_eq_none (Stops.cons_iff.2 (by decide))
  | typeTest hbefore htext hafter =>
      simp only [List.append_assoc]
      exact read_condition_of_typeTest (read_typeTest hbefore htext hafter rest)
  | @property path after hpath hstart hafter =>
      rw [List.append_assoc]
      have hends := endsNames_before_bracket hafter rest
      apply read_condition_of_propertyTest
      · by_cases hword : typeWord <+: path.toList
        · rw [hstart hword]
          exact read_typeWord_eq_none hafter rest
        · exact hpath.typeTest_eq_none hword hends.1
      · have htest := Peg.read_optional_absent (read_comparison_eq_none rest)
        exact read_propertyTest_iff.2 ⟨after, _, rfl, hpath, hends, hafter,
          stops_blank_bracket rest, htest⟩
  | @comparison path found operand before between text after hpath hstart hbefore hword hbetween
      hends htext hafter =>
      simp only [List.append_assoc]
      have hread := read_comparison hbetween hends htext hafter rest
      have hnames := endsNames_before_symbol hbefore hword
        (between ++ (text ++ (after ++ ']' :: rest)))
      have hstops := stops_isBlank_symbol found (between ++ (text ++ (after ++ ']' :: rest)))
      apply read_condition_of_propertyTest
      · exact hpath.typeTest_eq_none hstart hnames.1
      · exact read_propertyTest_iff.2 ⟨before, _, rfl, hpath, hnames, hbefore, hstops,
          Peg.read_optional_present hread⟩

theorem IsPropertyPath.eq_typeWord {path rest : List Char} (hpath : IsPropertyPath path)
    (hnone : instanceOfTest.read (path ++ rest) = none) (hword : typeWord <+: path) :
    path = typeWord := by
  obtain ⟨more, rfl⟩ := hword
  cases more with
  | nil => rw [List.append_nil]
  | cons c more =>
      obtain ⟨test, last, hread⟩ :=
        exists_read_typeTest .nil (hpath.isBareChar c (by simp)) (more ++ rest)
      rw [List.nil_append, ← List.cons_append, ← List.append_assoc, hnone] at hread
      cases hread

theorem not_stops_typeWord (rest : List Char) : ¬ Stops isNameChar (typeWord ++ rest) := by
  have hword : typeWord = ['i', 'n', 's', 't', 'a', 'n', 'c', 'e', 'o', 'f'] := by decide +kernel
  rw [hword, List.cons_append, Stops.cons_iff]
  decide

theorem not_typeTest_before_symbol {operator : Operator} {after rest : List Char}
    (hafter : IsBlank after) :
    instanceOfTest.read (typeWord ++ (after ++ (operator.symbol.toList ++ rest))) ≠ none := by
  obtain ⟨c, tail, hsymbol, hc, -⟩ := exists_cons_symbol operator
  obtain ⟨test, last, hread⟩ := exists_read_typeTest hafter hc (tail ++ rest)
  rw [hsymbol, List.cons_append, hread]
  simp

/-- What is read as a condition in front of the closing bracket is one of its texts. -/
theorem conditionText_of_read {text trail rest : List Char} {path : Option String}
    {test : Option AttributeTest} (htext : Stops Text.isBlank text) (htrail : IsBlank trail)
    (h : condition.read text = some ((path, test), trail ++ ']' :: rest)) :
    ∃ taken, text = taken ++ ']' :: rest ∧ ConditionText taken path test := by
  rcases Peg.read_choice_iff.1 h with htest | ⟨hnone, hproperty⟩
  · obtain ⟨⟨operator, operand⟩, hread, heq⟩ := Peg.read_map_iff.1 htest
    cases heq
    obtain ⟨negated, before, taken, after, rfl, hoperator, hbefore, htaken, hafter, hstops⟩ :=
      typeText_of_read_test hread
    obtain rfl := htrail.eq_nil_of_stops hstops
    obtain rfl : operator = .instanceOf negated := hoperator
    exact ⟨_, by simp, .typeTest hbefore htaken hafter⟩
  · rw [Peg.read_map_eq_none_iff] at hnone
    obtain ⟨found, hoptional, heq⟩ := Peg.read_map_iff.1 hproperty
    rcases Peg.read_optional_iff.1 hoptional with ⟨⟨path, test⟩, rfl, hread⟩ | ⟨rfl, rfl, -⟩
    · cases heq
      obtain ⟨after, middle, rfl, hpath, hends, hafter, hstops, htest⟩ :=
        read_propertyTest_iff.1 hread
      rcases Peg.read_optional_iff.1 htest with ⟨⟨operator, operand⟩, rfl, hcomparison⟩ |
        ⟨rfl, rfl, -⟩
      · obtain ⟨between, taken, trailing, rfl, hbetween, hendsAt, htaken, htrailing, hstops'⟩ :=
          operandText_of_read_comparison hcomparison
        obtain rfl := htrail.eq_nil_of_stops hstops'
        have hstart : ¬ typeWord <+: path.toList := fun hword => not_typeTest_before_symbol hafter
          (hpath.eq_typeWord hnone hword ▸ hnone)
        have hword : operator = .instanceOf false → after ≠ [] := by
          rintro rfl rfl
          rw [List.nil_append] at hends
          exact not_stops_typeWord _ hends.1
        exact ⟨_, by simp, .comparison hpath hstart hafter hword hbetween hendsAt htaken htrailing⟩
      · obtain rfl := htrail.eq_nil_of_stops hstops
        exact ⟨path.toList ++ after, by simp, .property hpath (hpath.eq_typeWord hnone) hafter⟩
    · cases heq
      obtain rfl := htrail.eq_nil_of_stops htext
      exact ⟨[], rfl, .nothing⟩

/-! ## Attribute filters -/

theorem ConditionText.stops_isBlank {text : List Char} {path : Option String}
    {test : Option AttributeTest} (h : ConditionText text path test) (rest : List Char) :
    Stops Text.isBlank (text ++ ']' :: rest) := by
  cases h with
  | nothing => exact stops_blank_bracket rest
  | typeTest =>
      rw [List.append_assoc]
      exact stops_isBlank_symbol _ _
  | property hpath =>
      rw [List.append_assoc]
      exact hpath.stops_isBlank _
  | comparison hpath =>
      rw [List.append_assoc]
      exact hpath.stops_isBlank _

theorem wellFormed_of_read_attributeFilter {text rest : List Char} {found : AttributeFilter}
    (h : attributeFilter.read text = some (found, rest)) :
    text = found.text.toList ++ rest ∧ found.WellFormed := by
  obtain ⟨⟨taken, path, test⟩, hconsumed, rfl⟩ := Peg.read_map_iff.1 h
  obtain ⟨hread, rfl⟩ := Peg.read_consumed_iff.1 hconsumed
  obtain ⟨⟨c, lead⟩, middle, hopen, hlater⟩ := Peg.read_dropLeft_iff.1 hread
  obtain ⟨next, hbracket, hlead⟩ := Peg.read_seq_iff.1 hopen
  obtain ⟨⟨trail, d⟩, last, hcondition, hclose⟩ := Peg.read_dropRight_iff.1 hlater
  obtain ⟨final, htrail, hbracket'⟩ := Peg.read_seq_iff.1 hclose
  obtain ⟨rfl, -⟩ := Peg.read_char_iff.1 hbracket
  obtain ⟨rfl, -⟩ := Peg.read_char_iff.1 hbracket'
  obtain ⟨rfl, hblank, hstops⟩ := read_blank_iff.1 hlead
  obtain ⟨rfl, hblank', -⟩ := read_blank_iff.1 htrail
  obtain ⟨condition, rfl, htext⟩ := conditionText_of_read hstops hblank' hcondition
  have hsource : '[' :: (lead ++ (condition ++ ']' :: rest)) =
      '[' :: (lead ++ (condition ++ [']'])) ++ rest := by simp
  rw [hsource, Reader.consumed_append]
  exact ⟨by simp, lead, condition, String.toList_ofList, hblank, htext⟩

theorem read_attributeFilter {found : AttributeFilter} (h : found.WellFormed) (rest : List Char) :
    attributeFilter.read (found.text.toList ++ rest) = some (found, rest) := by
  obtain ⟨path, test, source⟩ := found
  obtain ⟨lead, condition, hsource, hlead, htext⟩ := h
  have hcondition : Grammar.condition.read (condition ++ ']' :: rest) =
      some ((path, test), ']' :: rest) := read_condition htext rest
  have hopen : (Peg.seq (.char '[') blank).read ('[' :: (lead ++ (condition ++ ']' :: rest))) =
      some (('[', lead), condition ++ ']' :: rest) :=
    Peg.read_seq (Peg.read_char '[' _) (read_blank hlead (htext.stops_isBlank rest))
  have hclose : (Peg.seq blank (.char ']')).read (']' :: rest) = some (([], ']'), rest) :=
    Peg.read_seq (read_blank .nil (stops_blank_bracket rest)) (Peg.read_char ']' rest)
  have hread : (Peg.dropLeft (.seq (.char '[') blank)
      (.dropRight Grammar.condition (.seq blank (.char ']')))).read (source.toList ++ rest) =
        some ((path, test), rest) := by
    have htext' : source.toList ++ rest = '[' :: (lead ++ (condition ++ ']' :: rest)) := by
      change source.toList = _ at hsource
      rw [hsource]
      simp
    rw [htext']
    exact Peg.read_dropLeft hopen (Peg.read_dropRight hcondition hclose)
  refine Peg.read_map_iff.2 ⟨(source.toList, path, test), Peg.read_consumed hread, ?_⟩
  show _ = AttributeFilter.mk path test (String.ofList source.toList)
  rw [String.ofList_toList]

/-- An attribute filter is read from its text, whatever follows it, and from nothing else. -/
theorem read_attributeFilter_iff {text rest : List Char} {found : AttributeFilter} :
    attributeFilter.read text = some (found, rest) ↔
      text = found.text.toList ++ rest ∧ found.WellFormed := by
  constructor
  · exact wellFormed_of_read_attributeFilter
  · rintro ⟨rfl, h⟩
    exact read_attributeFilter h rest

end Selector

end ObjectQuery
