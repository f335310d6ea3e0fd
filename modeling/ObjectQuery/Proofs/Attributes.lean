import ObjectQuery.Proofs.Scalar
/-!
# What attribute tests look at

Equality is asked of a value itself. The operators for prefixes, suffixes and parts are asked of the
text of a value, and of a list whether certain items of it equal the operand.
-/

namespace ObjectQuery

theorem any_toList {α : Type} (option : Option α) (p : α → Bool) :
    option.toList.any p = option.any p := by
  cases option with
  | none => rfl
  | some x => simp

namespace Operator

/-- The values of which one is to equal the operand: the value itself, or the items of a list that
the operator looks at. -/
def examined (operator : Operator) (value : Json) : List Json :=
  match operator with
  | .equal _ _ => [value]
  | .startsWith _ => (value.items?.bind List.head?).toList
  | .endsWith _ => (value.items?.bind List.getLast?).toList
  | .contains _ => value.items?.getD []
  | _ => []

/-- The scalars among them. Lists and objects equal no operand. -/
def equated (operator : Operator) (value : Json) : List Scalar :=
  (operator.examined value).filterMap Json.scalar?

def searches : List (Bool → Operator) :=
  [.startsWith, .endsWith, .contains]

theorem mem_searches_iff {operator : Bool → Operator} :
    operator ∈ searches ↔
      operator = .startsWith ∨ operator = .endsWith ∨ operator = .contains := by
  simp [searches]

end Operator

namespace AttributeTest

variable {config : Config} {operand : Operand} {value : Option Json}

theorem any_equated (operator : Operator) (value : Json) (p : Scalar → Bool) :
    (operator.equated value).any p =
      (operator.examined value).any fun item => item.scalar?.any p := by
  rw [Operator.equated, List.any_filterMap]
  rfl

theorem accepts_equal (config : Config) (negated ignoreCase : Bool) (operand : Operand)
    (value : Option Json) :
    accepts config ⟨.equal negated ignoreCase, operand⟩ value =
      (((Operator.equal negated ignoreCase).equated (value.getD .null)).any
        (·.agrees ignoreCase operand.scalar) != negated) := by
  rw [any_equated]
  cases hscalar : (value.getD .null).scalar? with
  | none => simp [accepts, hscalar, Operator.relatesComposite, Operator.examined]
  | some actual => simp [accepts, hscalar, Operator.relates, Operator.examined]

/-- Without a text to search, the operators that search ask whether an item equals the operand. -/
theorem accepts_of_composite {operator : Bool → Operator} (hoperator : operator ∈ Operator.searches)
    (hscalar : (value.getD .null).scalar? = none) (ignoreCase : Bool) :
    accepts config ⟨operator ignoreCase, operand⟩ value =
      ((operator ignoreCase).equated (value.getD .null)).any
        (·.agrees ignoreCase operand.scalar) := by
  rw [any_equated]
  rcases Operator.mem_searches_iff.1 hoperator with rfl | rfl | rfl
  · simp only [accepts, hscalar, Operator.relatesComposite, Operator.examined, any_toList]
  · simp only [accepts, hscalar, Operator.relatesComposite, Operator.examined, any_toList]
  · simp only [accepts, hscalar, Operator.relatesComposite, Operator.examined]
    cases (value.getD .null).items? <;> rfl

end AttributeTest

end ObjectQuery
