import Mathlib.Data.List.Forall2
import ObjectQuery.Proofs.Attributes
import ObjectQuery.Proofs.Repetitions
import ObjectQuery.Proofs.Selector.Tiling
/-!
# Equal objects and selectors

Selectors treat equal objects alike, except that a test of texts sees the sign of a zero: the texts
of equal values are the same otherwise (`textsRead_eq`), and identifiers of zeros cannot be written.
-/

namespace ObjectQuery

/-! ## Tests that see the sign of a zero -/

namespace Operator

/-- The scalars whose texts the operator takes: that of a value which it searches, and those that it
compares by their texts because case is ignored. -/
def textsRead (operator : Operator) (value : Json) : List Scalar :=
  (match operator with
    | .startsWith _ => value.scalar?.toList
    | .endsWith _ => value.scalar?.toList
    | .contains _ => value.scalar?.toList
    | _ => []) ++
  if operator.ignoresCase then operator.equated value else []

theorem examined_canonical (operator : Operator) (value : Json) :
    operator.examined value.canonical = (operator.examined value).map Json.canonical := by
  cases operator with
  | startsWith _ =>
      simp only [examined, Json.items?_canonical]
      cases value.items? with
      | none => rfl
      | some items => cases items <;> rfl
  | endsWith _ =>
      simp only [examined, Json.items?_canonical]
      cases value.items? with
      | none => rfl
      | some items => simp [List.getLast?_map, Option.toList_map]
  | contains _ =>
      simp only [examined, Json.items?_canonical]
      cases value.items? <;> rfl
  | _ => rfl

theorem equated_alike {x y : Json} (h : x.equal y = true) (operator : Operator) :
    List.Forall₂ Scalar.Alike (operator.equated x) (operator.equated y) := by
  have hexamined : List.Forall₂ (fun item other => Json.equal item other = true)
      (operator.examined x) (operator.examined y) := by
    have hcanonical := congrArg operator.examined ((Json.equal_iff_canonical x y).1 h)
    rw [examined_canonical, examined_canonical, ← List.forall₂_eq_eq_eq,
      List.forall₂_map_left_iff, List.forall₂_map_right_iff] at hcanonical
    exact hcanonical.imp fun item other => (Json.equal_iff_canonical item other).2
  have hscalars : Relator.LiftFun (fun item other => Json.equal item other = true)
      (Option.Rel Scalar.Alike) Json.scalar? Json.scalar? := fun _ _ => Json.scalar?_of_equal
  exact List.rel_filterMap hscalars hexamined

theorem textsRead_alike {x y : Json} (h : x.equal y = true) (operator : Operator) :
    List.Forall₂ Scalar.Alike (operator.textsRead x) (operator.textsRead y) := by
  have hscalar : List.Forall₂ Scalar.Alike x.scalar?.toList y.scalar?.toList := by
    have hrel := Json.scalar?_of_equal h
    generalize x.scalar? = a, y.scalar? = b at hrel
    cases hrel with
    | none => exact .nil
    | some halike => exact .cons halike .nil
  apply List.rel_append
  · cases operator <;> first | exact hscalar | exact .nil
  · split
    · exact equated_alike h operator
    · exact .nil

end Operator

namespace Scalar

theorem any_agrees_congr {actual other : List Scalar} {ignoreCase : Bool}
    (halike : List.Forall₂ Alike actual other) (hsame : ignoreCase = true → actual = other)
    (expected : Scalar) :
    actual.any (·.agrees ignoreCase expected) = other.any (·.agrees ignoreCase expected) := by
  cases ignoreCase with
  | true => rw [hsame rfl]
  | false =>
      clear hsame
      induction halike with
      | nil => rfl
      | cons hfirst _ ih =>
          rw [List.any_cons, List.any_cons, ih]
          exact congrArg (· || _) (hfirst.equal_eq expected)

end Scalar

namespace AttributeTest

/-- The test takes the text of a zero in one of two values where the other one has the zero of the
other sign. -/
def TellsZerosApart (test : AttributeTest) (x y : Json) : Prop :=
  ∃ pair ∈ (test.operator.textsRead x).zip (test.operator.textsRead y), pair.1.OppositeZeros pair.2

variable {config : Config} {test : AttributeTest}

theorem textsRead_eq {x y : Json} (h : x.equal y = true) (hzeros : ¬ test.TellsZerosApart x y) :
    test.operator.textsRead x = test.operator.textsRead y := by
  obtain ⟨hlength, halike⟩ := List.forall₂_iff_zip.1 (Operator.textsRead_alike h test.operator)
  -- Alike scalars at the same place are the same, for they are no zeros of different signs.
  rw [← List.forall₂_eq_eq_eq, List.forall₂_iff_zip]
  exact ⟨hlength, fun hmem => (halike hmem).resolve_right fun hopposite =>
    hzeros ⟨_, hmem, hopposite⟩⟩

theorem accepts_searches_congr {value other : Option Json} {operator : Bool → Operator}
    {ignoreCase : Bool} {operand : Operand} (hoperator : operator ∈ Operator.searches)
    (h : (value.getD .null).equal (other.getD .null) = true)
    (htexts : (operator ignoreCase).textsRead (value.getD .null) =
      (operator ignoreCase).textsRead (other.getD .null)) :
    accepts config ⟨operator ignoreCase, operand⟩ value =
      accepts config ⟨operator ignoreCase, operand⟩ other := by
  have hreads (found : Json) : (operator ignoreCase).textsRead found =
      found.scalar?.toList ++ if ignoreCase then (operator ignoreCase).equated found else [] := by
    rcases Operator.mem_searches_iff.1 hoperator with rfl | rfl | rfl <;> rfl
  rw [hreads, hreads] at htexts
  have hscalar := Json.scalar?_of_equal h
  cases hvalue : (value.getD .null).scalar? with
  | none =>
      rw [hvalue] at hscalar htexts
      have hother : (other.getD .null).scalar? = none := by
        generalize (other.getD .null).scalar? = found at hscalar
        cases hscalar
        rfl
      rw [hother] at htexts
      rw [accepts_of_composite hoperator hvalue, accepts_of_composite hoperator hother]
      refine Scalar.any_agrees_congr (Operator.equated_alike h _) (fun hcase => ?_) _
      simpa [hcase] using htexts
  | some actual =>
      rw [hvalue] at hscalar htexts
      have hother : (other.getD .null).scalar? = some actual := by
        generalize (other.getD .null).scalar? = found at hscalar htexts
        cases hscalar
        exact congrArg some (List.cons.inj htexts).1.symm
      rcases Operator.mem_searches_iff.1 hoperator with rfl | rfl | rfl <;>
        simp only [accepts, hvalue, hother]

theorem accepts_order_congr {value other : Option Json} {operator : Bool → Operator}
    {orEqual : Bool} {operand : Operand} (hoperator : operator = .less ∨ operator = .greater)
    (h : (value.getD .null).equal (other.getD .null) = true) :
    accepts config ⟨operator orEqual, operand⟩ value =
      accepts config ⟨operator orEqual, operand⟩ other := by
  have hscalar := Json.scalar?_of_equal h
  rcases hoperator with rfl | rfl
  all_goals
    simp only [accepts]
    generalize (value.getD .null).scalar? = actual, (other.getD .null).scalar? = found at hscalar
    cases hscalar with
    | none => rfl
    | some halike => simp only [Operator.relates, halike.compare?_eq]

theorem accepts_congr {value other : Option Json}
    (h : value.map Json.canonical = other.map Json.canonical)
    (hzeros : ¬ test.TellsZerosApart (value.getD .null) (other.getD .null)) :
    test.accepts config value = test.accepts config other := by
  have hequal : (value.getD .null).equal (other.getD .null) = true := by
    rw [Json.equal_iff_canonical, ← Option.getD_map Json.canonical,
      ← Option.getD_map Json.canonical, h]
  have htexts := textsRead_eq hequal hzeros
  obtain ⟨operator, operand⟩ := test
  cases operator with
  | instanceOf negated =>
      cases value with
      | none =>
          cases other with
          | none => rfl
          | some found => cases h
      | some actual =>
          cases other with
          | none => cases h
          | some found =>
              simp only [accepts]
              cases operand.string? with
              | none => rfl
              | some typeName =>
                  exact congrArg (· != negated) (Json.isInstanceOf_of_equal hequal config typeName)
  | equal negated ignoreCase =>
      rw [accepts_equal, accepts_equal, Scalar.any_agrees_congr (Operator.equated_alike hequal _)]
      intro hcase
      simpa [Operator.textsRead, Operator.ignoresCase, hcase] using htexts
  | startsWith ignoreCase =>
      exact accepts_searches_congr (by simp [Operator.searches]) hequal htexts
  | endsWith ignoreCase =>
      exact accepts_searches_congr (by simp [Operator.searches]) hequal htexts
  | contains ignoreCase =>
      exact accepts_searches_congr (by simp [Operator.searches]) hequal htexts
  | less orEqual => exact accepts_order_congr (Or.inl rfl) hequal
  | greater orEqual => exact accepts_order_congr (Or.inr rfl) hequal

end AttributeTest

namespace AttributeFilter

def TellsZerosApart (filter : AttributeFilter) (x y : Json) : Prop :=
  ∃ test ∈ filter.test,
    test.TellsZerosApart ((filter.subject x).getD .null) ((filter.subject y).getD .null)

theorem subject_canonical (filter : AttributeFilter) (object : Json) :
    filter.subject object.canonical = (filter.subject object).map Json.canonical := by
  unfold subject
  cases filter.propertyPath with
  | none => rfl
  | some path => exact Json.propertyPath?_canonical path object

theorem holds_congr {filter : AttributeFilter} {x y : Json} (h : x.equal y = true)
    (hzeros : ¬ filter.TellsZerosApart x y) (config : Config) :
    filter.holds config x = filter.holds config y := by
  have hsubject :
      (filter.subject x).map Json.canonical = (filter.subject y).map Json.canonical := by
    rw [← subject_canonical, (Json.equal_iff_canonical x y).1 h, subject_canonical]
  cases htest : filter.test with
  | none =>
      have hexists := congrArg (Option.any fun value => !value.isNull) hsubject
      simpa only [holds, htest, Option.any_map, Json.isNull_canonical] using hexists
  | some test =>
      simp only [holds, htest]
      exact AttributeTest.accepts_congr hsubject fun htells => hzeros ⟨test, htest, htells⟩

theorem all_holds_congr {conditions : List AttributeFilter} {x y : Json} (h : x.equal y = true)
    (hzeros : ∀ condition ∈ conditions, ¬ condition.TellsZerosApart x y) (config : Config) :
    conditions.all (·.holds config x) = conditions.all (·.holds config y) := by
  rw [Bool.eq_iff_iff, List.all_eq_true, List.all_eq_true]
  refine forall₂_congr fun condition hmem => ?_
  rw [holds_congr h (hzeros condition hmem)]

end AttributeFilter

namespace Filter

theorem identifier?_eq_some {filter : Filter} {name : String} (h : filter.identifier? = some name) :
    filter.primary = some (.identifier name) := by
  unfold identifier? at h
  split at h
  · rename_i found hprimary
    rw [hprimary, Option.some.inj h]
  · cases h

theorem dot_not_mem_identifier {filter : Filter} (hwell : filter.WellFormed) {name : String}
    (h : filter.identifier? = some name) : '.' ∉ name.toList := by
  obtain ⟨-, hchars⟩ := hwell.1 _ (identifier?_eq_some h)
  exact fun hmem => absurd (hchars '.' hmem) (by decide)

theorem accepts_congr {filter : Filter} (hwell : filter.WellFormed) {x y : Json}
    (h : x.equal y = true)
    (hzeros : ∀ condition ∈ filter.attributes, ¬ condition.TellsZerosApart x y) (config : Config) :
    filter.accepts config x = filter.accepts config y := by
  have hidentifier : filter.identifier?.all (fun name => x.identifier? config == some name) =
      filter.identifier?.all (fun name => y.identifier? config == some name) := by
    cases hname : filter.identifier? with
    | none => rfl
    | some name =>
        have hdot := dot_not_mem_identifier hwell hname
        rw [Option.all_some, Option.all_some, Bool.eq_iff_iff, beq_iff_eq, beq_iff_eq]
        exact Json.identifier?_of_equal h hdot
  rw [accepts, accepts, hidentifier, AttributeFilter.all_holds_congr h hzeros]

end Filter

namespace Selector

def TellsZerosApart (selector : Selector) (x y : Json) : Prop :=
  ∃ filter ∈ selector.filters, ∃ condition ∈ filter.attributes, condition.TellsZerosApart x y

end Selector

end ObjectQuery
