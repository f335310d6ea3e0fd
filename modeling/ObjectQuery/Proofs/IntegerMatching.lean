import ObjectQuery.Proofs.Binary64.TiesToEven
import ObjectQuery.Proofs.Selector.Tiling
/-!
# Integers in selectors and in objects

An integer in a selector and one in an object are seen alike: as an integer where it fits 64 bits
with sign, and as the nearest float beyond. So a property that holds an integer equals a written one
if it is the same, or if both are beyond and rounded to the same number.
-/

namespace ObjectQuery

/-! ## Operands and scalars -/

namespace Operand

def ofInteger (i : Int) : Operand :=
  if Json.fitsInt64 i then .integer (Int64.ofInt i) else .float (Binary64.ofInt i)

theorem scalar?_integer (i : Int) : (Json.integer i).scalar? = some (ofInteger i).scalar := by
  rw [Json.scalar?, ofInteger]
  cases Json.fitsInt64 i <;> rfl

theorem ofInteger_of_lt {i : Int} (hlower : -2 ^ 63 ≤ i) (hupper : i < 2 ^ 63) :
    ofInteger i = .integer (Int64.ofInt i) := by
  have hfits : Json.fitsInt64 i = true := by
    rw [Json.fitsInt64, decide_eq_true hlower, decide_eq_true hupper, Bool.and_self]
  rw [ofInteger, if_pos hfits]

theorem ofInteger_of_le {i : Int} (h : 2 ^ 63 ≤ i) : ofInteger i = .float (Binary64.ofInt i) := by
  have hfits : ¬ Json.fitsInt64 i = true := by
    rw [Json.fitsInt64, Bool.and_eq_true, decide_eq_true_eq, decide_eq_true_eq]
    omega
  rw [ofInteger, if_neg hfits]

variable {n m : Int}

/-- Integers of at most 64 bits have equal scalars if they are the same, or if they are beyond 64
bits with sign and one number is the nearest one to both, ties to even. -/
theorem equal_scalar_ofInteger_iff (hn : -2 ^ 63 ≤ n ∧ n < 2 ^ 64) (hm : -2 ^ 63 ≤ m ∧ m < 2 ^ 64) :
    (ofInteger n).scalar.equal (ofInteger m).scalar = true ↔
      n = m ∨ 2 ^ 63 ≤ n ∧ 2 ^ 63 ≤ m ∧
        ∃ x : Binary64.Finite, x.NearestEven (Binary64.unitsOf n) ∧
          x.NearestEven (Binary64.unitsOf m) := by
  rcases Int.lt_or_le n (2 ^ 63) with hnlt | hnle <;>
    rcases Int.lt_or_le m (2 ^ 63) with hmlt | hmle
  · rw [ofInteger_of_lt hn.1 hnlt, ofInteger_of_lt hm.1 hmlt]
    have hequal : (Int64.ofInt n == Int64.ofInt m) = true ↔ n = m := by
      rw [beq_iff_eq, ← Int64.toInt_inj, Int64.toInt_ofInt_of_le hn.1 hnlt,
        Int64.toInt_ofInt_of_le hm.1 hmlt]
    exact hequal.trans ⟨Or.inl, fun h => h.resolve_right fun hlarge => by omega⟩
  · -- an integer and a float, which are never equal
    rw [ofInteger_of_lt hn.1 hnlt, ofInteger_of_le hmle]
    exact ⟨fun hequal => (by cases hequal), fun h => (by omega)⟩
  · rw [ofInteger_of_le hnle, ofInteger_of_lt hm.1 hmlt]
    exact ⟨fun hequal => (by cases hequal), fun h => (by omega)⟩
  · rw [ofInteger_of_le hnle, ofInteger_of_le hmle]
    refine (Binary64.equal_ofInt_iff (by omega) (by omega)).trans ?_
    refine ⟨fun hsame => Or.inr ⟨hnle, hmle, hsame⟩, ?_⟩
    rintro (rfl | ⟨-, -, hsame⟩)
    · obtain ⟨x, -, hx⟩ := Binary64.exists_ofInt_nearestEven (i := n) (by omega)
      exact ⟨x, hx, hx⟩
    · exact hsame

end Operand

/-! ## Selectors -/

namespace Selector

/-- The text of a selector that compares a property with an integer. -/
def equalText (path : String) (i : Int) : String :=
  String.ofList ('[' :: (path.toList ++ '=' :: (Json.integerText i ++ [']'])))

def equalInteger (path : String) (i : Int) : AttributeFilter :=
  ⟨some path, some ⟨.equal false false, .ofInteger i⟩, equalText path i⟩

theorem operandText_ofInteger {i : Int} (h : i.natAbs < 2 ^ 64) :
    OperandText (Json.integerText i) (.ofInteger i) := by
  have hlength : (Decimal.digitsOf i.natAbs).length ≤ 20 :=
    (Decimal.length_digitsOf_le_iff (by decide)).2 (Nat.lt_trans h (by decide))
  have htext := operandText_integerText i
  rwa [numberOperand_digitsOf, Binary64.ofDecimal_zero _ (Nat.lt_of_le_of_lt hlength (by decide))]
    at htext

theorem endsAt_integerText (i : Int) :
    (Operator.equal false false).EndsAt (Json.integerText i) := by
  intro c rest htext hc
  obtain rfl : '~' = c := Option.some.inj hc
  have hmem : '~' ∈ Json.integerText i := htext ▸ List.mem_cons_self
  rw [Json.integerText, List.mem_append] at hmem
  rcases hmem with hsign | hdigit
  · rw [Binary64.signText] at hsign
    split at hsign <;> simp at hsign
  · exact absurd (Decimal.isDigit_of_mem_digitsOf hdigit) (by decide)

/-- A path that does not start like a type test is read as a path, and the integer behind it as its
operand. -/
theorem equalInteger_wellFormed {path : String} {i : Int} (hpath : IsPropertyPath path.toList)
    (hword : ¬ typeWord <+: path.toList) (h : i.natAbs < 2 ^ 64) :
    (equalInteger path i).WellFormed := by
  have hsymbol : (Operator.equal false false).symbol.toList = ['='] := by decide
  have hends : (Operator.equal false false).EndsAt ([] ++ Json.integerText i) :=
    endsAt_integerText i
  have hcondition := ConditionText.comparison hpath hword .nil (by simp) .nil hends
    (operandText_ofInteger h) .nil
  refine ⟨[], _, ?_, .nil, hcondition⟩
  rw [equalInteger, equalText, String.toList_ofList, hsymbol]
  simp

theorem holds_equalInteger {path : String} {n : Int} {object : Json}
    (h : object.propertyPath? path = some (.integer n)) (m : Int) (config : Config) :
    (equalInteger path m).holds config object =
      (Operand.ofInteger n).scalar.equal (Operand.ofInteger m).scalar := by
  simp [equalInteger, AttributeFilter.holds, AttributeFilter.subject, h, AttributeTest.accepts,
    Operand.scalar?_integer, Operator.relates, Scalar.agrees]

theorem matchesObject_attribute (config : Config) (found : AttributeFilter) (object : Json) :
    (⟨[⟨none, [found]⟩]⟩ : Selector).matchesObject config object =
      .ok (found.holds config object) := by
  simp only [matchesObject, anyMatches, Filter.matchesObject, Filter.attributesHold,
    List.all_cons, List.all_nil, Bool.and_true]
  cases found.holds config object <;> rfl

/-- For integers of at most 64 bits, with or without sign, an object with the first one at the end
of a path satisfies the parsed comparison of the path with the second one if they are the same, or
if both are at least `2 ^ 63` and one number is the nearest one to both, ties to even. The path must
not start like a type test. -/
theorem integer_matches_iff {path : String} (hpath : IsPropertyPath path.toList)
    (hword : ¬ typeWord <+: path.toList) {n m : Int} (hn : -2 ^ 63 ≤ n ∧ n < 2 ^ 64)
    (hm : -2 ^ 63 ≤ m ∧ m < 2 ^ 64) {object : Json}
    (hvalue : object.propertyPath? path = some (.integer n)) (config : Config) :
    ∃ selector, parse (equalText path m) = .ok selector ∧
      ∃ answer, selector.matchesObject config object = .ok answer ∧
        (answer = true ↔ n = m ∨ 2 ^ 63 ≤ n ∧ 2 ^ 63 ≤ m ∧
          ∃ x : Binary64.Finite, x.NearestEven (Binary64.unitsOf n) ∧
            x.NearestEven (Binary64.unitsOf m)) := by
  have hparse := parse_text_of_wellFormed (equalInteger_wellFormed hpath hword (i := m) (by omega))
  refine ⟨_, hparse, _, matchesObject_attribute config _ object, ?_⟩
  rw [holds_equalInteger hvalue]
  exact Operand.equal_scalar_ofInteger_iff hn hm

def nestedTwoPow63 : Json :=
  .object [("a", .object [("b", .integer 9223372036854775808)])]

/-- The integers `2 ^ 63` and `2 ^ 63 + 1` are rounded to the same number. -/
theorem integer_matches_iff_twoPow63 :
    nestedTwoPow63.propertyPath? "a.b" = some (.integer 9223372036854775808) ∧
    equalText "a.b" 9223372036854775809 = "[a.b=9223372036854775809]" ∧
    ∃ selector, parse "[a.b=9223372036854775809]" = .ok selector ∧
      selector.matchesObject {} nestedTwoPow63 = .ok true := by
  have hname : ∀ {text : List Char} (c : Char), text = [c] → isNameStart c = true → IsName text :=
    fun c htext hc => ⟨c, [], htext, hc, by simp⟩
  have hpath : IsPropertyPath "a.b".toList :=
    ⟨"a", ["b"], by decide +kernel, List.forall_mem_cons.2
      ⟨hname 'a' (by decide +kernel) (by decide),
        List.forall_mem_singleton.2 (hname 'b' (by decide +kernel) (by decide))⟩⟩
  have hvalue : nestedTwoPow63.propertyPath? "a.b" = some (.integer 9223372036854775808) := rfl
  have htext : equalText "a.b" 9223372036854775809 = "[a.b=9223372036854775809]" := by
    decide +kernel
  have hround : (Binary64.ofInt 9223372036854775808).equal (Binary64.ofInt 9223372036854775809) =
      true := by
    decide +kernel
  obtain ⟨selector, hparse, answer, hanswer, hiff⟩ := integer_matches_iff hpath
    (by decide +kernel) (n := 9223372036854775808) (m := 9223372036854775809) (by decide)
    (by decide) hvalue {}
  have htrue : answer = true := hiff.2 (Or.inr ⟨by decide, by decide,
    (Binary64.equal_ofInt_iff (by decide) (by decide)).1 hround⟩)
  exact ⟨hvalue, htext, selector, htext ▸ hparse, htrue ▸ hanswer⟩

/-- Behind the word for a type test a comparison is read as the name of a type, so the property of
that name is not compared. -/
theorem instanceof_not_compared :
    IsPropertyPath "instanceof".toList ∧
    (Json.object [("instanceof", .integer 5)]).propertyPath? "instanceof" = some (.integer 5) ∧
    equalText "instanceof" 5 = "[instanceof=5]" ∧
    ∃ selector, parse "[instanceof=5]" = .ok selector ∧
      selector.matchesObject {} (.object [("instanceof", .integer 5)]) = .ok false := by
  have hname : "instanceof".toList =
      'i' :: ['n', 's', 't', 'a', 'n', 'c', 'e', 'o', 'f'] := by
    decide +kernel
  have hpath : IsPropertyPath "instanceof".toList :=
    ⟨"instanceof", [], by simp [behind], List.forall_mem_singleton.2
      ⟨_, _, hname, by decide, List.all_eq_true.1 (by decide)⟩⟩
  have hparse : parse "[instanceof=5]" =
      .ok ⟨[⟨none, [⟨none, some ⟨.instanceOf false, .unquoted "=5"⟩, "[instanceof=5]"⟩]⟩]⟩ := by
    rw [parse_eq]
    decide +kernel
  refine ⟨hpath, rfl, by decide +kernel, _, hparse, ?_⟩
  rw [matchesObject_attribute]
  rfl

end Selector

end ObjectQuery
