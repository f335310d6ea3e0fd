import ObjectQuery.Proofs.Attributes
import ObjectQuery.Proofs.Text.Lowercase
/-!
# Operators that ignore case

Where an operator matches, the one that ignores case matches too, with two exceptions. Equality that
ignores case compares texts, and those of the two zeros differ. A text is lower-cased as a whole,
and so a capital sigma of the part that is looked for can turn into another letter there than in the
part by itself. Where the operator looks at one place only, each of these loses the match
(`AttributeFilter.Steady`, `AttributeFilter.holds_ignoring_case`).
-/

namespace ObjectQuery

theorem occursIn_iff {part text : List Char} : occursIn part text = true ↔ part <:+: text := by
  induction text with
  | nil => simp [occursIn]
  | cons c rest ih =>
      rw [occursIn, Bool.or_eq_true, List.isPrefixOf_iff_prefix, ih, List.infix_cons_iff]

namespace Operator

def Finds (operator : Operator) (part text : List Char) : Prop :=
  match operator with
  | .startsWith _ => part <+: text
  | .endsWith _ => part <:+ text
  | .contains _ => part <:+: text
  | _ => False

/-- Where the operator finds a part in a text, a capital sigma of the part is final in the text just
if it is final in the part. If any place will do, this holds at one of them. -/
def KeepsSigmas (operator : Operator) (part text : List Char) : Prop :=
  match operator with
  | .startsWith _ => ∀ after, text = part ++ after → Text.KeepsSigmas [] part after
  | .endsWith _ => ∀ before, text = before ++ part → Text.KeepsSigmas before.reverse part []
  | .contains _ => part <:+: text →
      ∃ before after, text = before ++ part ++ after ∧ Text.KeepsSigmas before.reverse part after
  | _ => True

variable {operator : Operator} {part text : List Char}

theorem Finds.lowercase (h : operator.Finds part text) (hkeeps : operator.KeepsSigmas part text) :
    operator.Finds (Text.lowercase part) (Text.lowercase text) := by
  cases operator with
  | startsWith _ =>
      obtain ⟨after, rfl⟩ := h
      exact Text.lowercase_isPrefix_iff.2 (hkeeps after rfl)
  | endsWith _ =>
      obtain ⟨before, rfl⟩ := h
      exact Text.lowercase_isSuffix_iff.2 (hkeeps before rfl)
  | contains _ =>
      obtain ⟨before, after, rfl, hkept⟩ := hkeeps h
      exact Text.lowercase_isInfix hkept
  | _ => exact h

end Operator

/-- Lower case does not part what the test finds in a value: where the zero of the other sign equals
the operand, a scalar with the text of the operand is looked at too, and the capital sigmas of the
operand are kept. -/
structure AttributeTest.Steady (test : AttributeTest) (value : Json) : Prop where
  zeros : ∀ actual ∈ test.operator.equated value, actual.OppositeZeros test.operand.scalar →
    ∃ other ∈ test.operator.equated value, other.text? = some test.operand.toText
  sigmas : ∀ actual text, value.scalar? = some actual → actual.text? = some text →
    test.operator.KeepsSigmas test.operand.toText.toList text.toList

/-- Lower case does not part what the filter finds in an object. A missing value is null. -/
def AttributeFilter.Steady (filter : AttributeFilter) (object : Json) : Prop :=
  ∀ test ∈ filter.test, test.Steady ((filter.subject object).getD .null)

theorem Scalar.OppositeZeros.agrees {a b : Scalar} (h : a.OppositeZeros b) :
    a.agrees false b = true := by
  obtain ⟨negative, rfl, rfl⟩ := h
  cases negative <;> rfl

theorem Scalar.OppositeZeros.agrees_ignoringCase {a b : Scalar} (h : a.OppositeZeros b) :
    a.agrees true b = false := by
  obtain ⟨negative, rfl, rfl⟩ := h
  cases negative <;> decide +kernel

namespace AttributeTest

variable {config : Config} {operand : Operand} {value : Option Json}

theorem accepts_iff_finds {operator : Bool → Operator} {actual : Scalar}
    (hoperator : operator ∈ Operator.searches)
    (hscalar : (value.getD .null).scalar? = some actual) (ignoreCase : Bool) :
    accepts config ⟨operator ignoreCase, operand⟩ value = true ↔
      ∃ text, actual.text? = some text ∧
        (operator ignoreCase).Finds
          ((if ignoreCase then Text.lowercase else id) operand.toText.toList)
          ((if ignoreCase then Text.lowercase else id) text.toList) := by
  rcases Operator.mem_searches_iff.1 hoperator with rfl | rfl | rfl
  all_goals
    simp only [accepts, hscalar, Operator.relates, Scalar.textTest, Scalar.text?_scalar]
    cases actual.text? with
    | none => simp
    | some text =>
        cases ignoreCase <;> simp [Operator.Finds, occursIn_iff]

theorem agrees_ignoringCase_of_text? {actual : Scalar} (h : actual.text? = some operand.toText) :
    actual.agrees true operand.scalar = true := by
  simp [Scalar.agrees, h, Scalar.text?_scalar]

theorem any_agrees_ignoringCase {scalars : List Scalar}
    (hzeros : ∀ actual ∈ scalars, actual.OppositeZeros operand.scalar →
      ∃ other ∈ scalars, other.text? = some operand.toText)
    (h : scalars.any (·.agrees false operand.scalar) = true) :
    scalars.any (·.agrees true operand.scalar) = true := by
  obtain ⟨actual, hmem, hequal⟩ := List.any_eq_true.1 h
  rcases Scalar.alike_of_equal hequal with rfl | hopposite
  · exact List.any_eq_true.2 ⟨_, hmem, agrees_ignoringCase_of_text? (Scalar.text?_scalar operand)⟩
  · obtain ⟨other, hother, htext⟩ := hzeros actual hmem hopposite
    exact List.any_eq_true.2 ⟨other, hother, agrees_ignoringCase_of_text? htext⟩

theorem equated_ignoringCase {operator : Bool → Operator}
    (hoperator : operator ∈ Operator.searches) :
    (operator true).equated = (operator false).equated := by
  rcases Operator.mem_searches_iff.1 hoperator with rfl | rfl | rfl <;> rfl

theorem accepts_ignoringCase {operator : Bool → Operator}
    (hoperator : operator ∈ Operator.equal false :: Operator.searches)
    (hsteady : Steady ⟨operator false, operand⟩ (value.getD .null))
    (h : accepts config ⟨operator false, operand⟩ value = true) :
    accepts config ⟨operator true, operand⟩ value = true := by
  rcases List.mem_cons.1 hoperator with rfl | htext
  · rw [accepts_equal, Bool.bne_false] at h ⊢
    exact any_agrees_ignoringCase hsteady.zeros h
  · cases hscalar : (value.getD .null).scalar? with
    | none =>
        rw [accepts_of_composite htext hscalar] at h ⊢
        rw [equated_ignoringCase htext]
        exact any_agrees_ignoringCase hsteady.zeros h
    | some actual =>
        obtain ⟨found, hfound, hfinds⟩ := (accepts_iff_finds htext hscalar false).1 h
        have hkeeps := hsteady.sigmas actual found hscalar hfound
        have hcases : (operator true).Finds = (operator false).Finds := by
          rcases Operator.mem_searches_iff.1 htext with rfl | rfl | rfl <;> rfl
        refine (accepts_iff_finds htext hscalar true).2 ⟨found, hfound, ?_⟩
        rw [hcases]
        exact hfinds.lowercase hkeeps

/-! ## Tests of one place -/

theorem equated_of_scalar? {operator : Bool → Operator} (hoperator : operator ∈ Operator.searches)
    {value : Json} {actual : Scalar} (h : value.scalar? = some actual) (ignoreCase : Bool) :
    (operator ignoreCase).equated value = [] := by
  have hitems : value.items? = none := by
    cases value with
    | array items => cases h
    | _ => rfl
  rcases Operator.mem_searches_iff.1 hoperator with rfl | rfl | rfl <;>
    simp [Operator.equated, Operator.examined, hitems]

section OnePlace

variable {operator : Bool → Operator}
  (hoperator : operator ∈ Operator.equal false :: Operator.searches) (hplace : operator ≠ .contains)

include hoperator hplace

theorem eq_of_mem_equated {value : Json} {a b : Scalar}
    (ha : a ∈ (operator false).equated value) (hb : b ∈ (operator false).equated value) :
    a = b := by
  obtain ⟨x, hx, hax⟩ := List.mem_filterMap.1 ha
  obtain ⟨y, hy, hby⟩ := List.mem_filterMap.1 hb
  have hxy : x = y := by
    rcases List.mem_cons.1 hoperator with rfl | hsearch
    · exact (List.mem_singleton.1 hx).trans (List.mem_singleton.1 hy).symm
    · rcases Operator.mem_searches_iff.1 hsearch with rfl | rfl | rfl
      · exact Option.some.inj ((Option.mem_toList.1 hx).symm.trans (Option.mem_toList.1 hy))
      · exact Option.some.inj ((Option.mem_toList.1 hx).symm.trans (Option.mem_toList.1 hy))
      · exact absurd rfl hplace
  subst hxy
  exact Option.some.inj (hax.symm.trans hby)

theorem not_oppositeZeros_of_accepts_ignoringCase {actual : Scalar}
    (h : accepts config ⟨operator true, operand⟩ value = true)
    (hmem : actual ∈ (operator false).equated (value.getD .null)) :
    ¬ actual.OppositeZeros operand.scalar := by
  intro hopposite
  have hany : ((operator false).equated (value.getD .null)).any
      (·.agrees true operand.scalar) = true := by
    rcases List.mem_cons.1 hoperator with rfl | hsearch
    · rwa [accepts_equal, Bool.bne_false] at h
    · cases hscalar : (value.getD .null).scalar? with
      | none => rwa [accepts_of_composite hsearch hscalar, equated_ignoringCase hsearch] at h
      | some found =>
          rw [equated_of_scalar? hsearch hscalar] at hmem
          cases hmem
  obtain ⟨other, hother, hagrees⟩ := List.any_eq_true.1 hany
  rw [eq_of_mem_equated hoperator hplace hother hmem, hopposite.agrees_ignoringCase] at hagrees
  cases hagrees

theorem keepsSigmas_of_accepts_ignoringCase {actual : Scalar} {text : String}
    (h : accepts config ⟨operator true, operand⟩ value = true)
    (hscalar : (value.getD .null).scalar? = some actual) (htext : actual.text? = some text) :
    (operator false).KeepsSigmas operand.toText.toList text.toList := by
  rcases List.mem_cons.1 hoperator with rfl | hsearch
  · trivial
  · obtain ⟨found, hfound, hfinds⟩ := (accepts_iff_finds hsearch hscalar true).1 h
    obtain rfl : found = text := Option.some.inj (hfound.symm.trans htext)
    rcases Operator.mem_searches_iff.1 hsearch with rfl | rfl | rfl
    · intro after hafter
      rw [hafter] at hfinds
      exact Text.lowercase_isPrefix_iff.1 hfinds
    · intro before hbefore
      rw [hbefore] at hfinds
      exact Text.lowercase_isSuffix_iff.1 hfinds
    · exact absurd rfl hplace

theorem steady_of_accepts_ignoringCase
    (h : accepts config ⟨operator true, operand⟩ value = true) :
    Steady ⟨operator false, operand⟩ (value.getD .null) where
  zeros _ hmem hopposite :=
    absurd hopposite (not_oppositeZeros_of_accepts_ignoringCase hoperator hplace h hmem)
  sigmas _ _ hscalar htext :=
    keepsSigmas_of_accepts_ignoringCase hoperator hplace h hscalar htext

end OnePlace

/-! ## Inequality -/

theorem accepts_unequal_of_ignoringCase (config : Config)
    (hsteady : Steady ⟨.equal true false, operand⟩ (value.getD .null))
    (h : accepts config ⟨.equal true true, operand⟩ value = true) :
    accepts config ⟨.equal true false, operand⟩ value = true := by
  simp only [accepts_equal, bne_iff_ne, ne_eq, Bool.not_eq_true] at h ⊢
  exact Bool.eq_false_iff.2 fun hequal =>
    Bool.eq_false_iff.1 h (any_agrees_ignoringCase hsteady.zeros hequal)

theorem steady_of_accepts_unequal (config : Config)
    (h : accepts config ⟨.equal true false, operand⟩ value = true) :
    Steady ⟨.equal true false, operand⟩ (value.getD .null) where
  zeros actual hmem hopposite := by
    simp only [accepts_equal, bne_iff_ne, ne_eq, Bool.not_eq_true] at h
    exact absurd (List.any_eq_true.2 ⟨actual, hmem, hopposite.agrees⟩) (Bool.eq_false_iff.1 h)
  sigmas _ _ _ _ := trivial

end AttributeTest

namespace AttributeFilter

/-- What a steady filter accepts, the filter that ignores case accepts too. What is unequal to the
operand when case is ignored is unequal to it just if the filter is steady. A filter that is not
steady loses what it accepts if its operator looks at one place only. -/
theorem holds_ignoring_case (config : Config) (object : Json) (path : Option String)
    (operand : Operand) (text other : String) :
    (∀ operator ∈ Operator.equal false :: Operator.searches,
      holds config ⟨path, some ⟨operator false, operand⟩, text⟩ object = true →
      (Steady ⟨path, some ⟨operator false, operand⟩, text⟩ object →
        holds config ⟨path, some ⟨operator true, operand⟩, other⟩ object = true) ∧
      (operator ≠ .contains →
        holds config ⟨path, some ⟨operator true, operand⟩, other⟩ object = true →
        Steady ⟨path, some ⟨operator false, operand⟩, text⟩ object)) ∧
    (holds config ⟨path, some ⟨.equal true true, operand⟩, other⟩ object = true →
      (Steady ⟨path, some ⟨.equal true false, operand⟩, text⟩ object ↔
        holds config ⟨path, some ⟨.equal true false, operand⟩, text⟩ object = true)) := by
  constructor
  · intro operator hoperator h
    constructor
    · intro hsteady
      exact AttributeTest.accepts_ignoringCase hoperator (hsteady _ rfl) h
    · rintro hplace hlower _ ⟨⟩
      exact AttributeTest.steady_of_accepts_ignoringCase hoperator hplace hlower
  · intro h
    constructor
    · intro hsteady
      exact AttributeTest.accepts_unequal_of_ignoringCase config (hsteady _ rfl) h
    · rintro hunequal _ ⟨⟩
      exact AttributeTest.steady_of_accepts_unequal config hunequal

/-- A capital sigma in front of a letter is final neither in the operand nor in the text. A zero in
a list is found by its text, which the integer has as well. -/
theorem holds_ignoring_case_instances :
    holds {} ⟨some "a", some ⟨.startsWith true, .unquoted "\u03A3"⟩, ""⟩
        (.object [("a", .string "\u03A3\u0391")]) = true ∧
    holds {} ⟨some "a", some ⟨.contains true, .float (.finite (.zero false))⟩, ""⟩
        (.object [("a", .array [.float (.zero true), .integer 0])]) = true ∧
    Steady ⟨some "a", some ⟨.endsWith false, .unquoted "\u03A3\u0391"⟩, ""⟩
        (.object [("a", .string "\u0392\u03A3\u0391")]) ∧
    holds {} ⟨some "a", some ⟨.equal true false, .boolean true⟩, ""⟩
        (.object [("a", .string "FALSE")]) = true := by
  have hstarts : Steady ⟨some "a", some ⟨.startsWith false, .unquoted "\u03A3"⟩, ""⟩
      (.object [("a", .string "\u03A3\u0391")]) := by
    intro test htest
    cases htest
    refine ⟨by decide +kernel, fun actual text hscalar htext after hafter => ?_⟩
    cases hscalar
    cases htext
    obtain rfl : ['\u0391'] = after := (List.append_right_inj ['\u03A3']).1 hafter
    exact Text.keepsSigmas_iff.2 (by decide +kernel)
  have hcontains : Steady ⟨some "a", some ⟨.contains false, .float (.finite (.zero false))⟩, ""⟩
      (.object [("a", .array [.float (.zero true), .integer 0])]) := by
    intro test htest
    cases htest
    exact ⟨by decide +kernel, fun actual text hscalar => nomatch hscalar⟩
  have hequal : Steady ⟨some "a", some ⟨.equal true false, .boolean true⟩, ""⟩
      (.object [("a", .string "FALSE")]) := by
    intro test htest
    cases htest
    exact ⟨by decide +kernel, fun _ _ _ _ => trivial⟩
  exact ⟨((holds_ignoring_case {} _ (some "a") _ "" "").1 .startsWith
      (by simp [Operator.searches]) (by decide +kernel)).1 hstarts,
    ((holds_ignoring_case {} _ (some "a") _ "" "").1 .contains
      (by simp [Operator.searches]) (by decide +kernel)).1 hcontains,
    ((holds_ignoring_case {} _ (some "a") _ "" "").1 .endsWith
      (by simp [Operator.searches]) (by decide +kernel)).2
      (fun h => nomatch congrFun h false) (by decide +kernel),
    ((holds_ignoring_case {} _ (some "a") _ "" "").2 (by decide +kernel)).1 hequal⟩

/-- A zero equals the zero of the other sign, but not when case is ignored. A capital sigma that
runs on is lower-cased in another way in the operand than in the text. -/
theorem not_holds_ignoring_case :
    (holds {} ⟨some "a", some ⟨.equal false false, .float (.finite (.zero false))⟩, ""⟩
        (.object [("a", .float (.zero true))]) = true ∧
      holds {} ⟨some "a", some ⟨.equal false true, .float (.finite (.zero false))⟩, ""⟩
        (.object [("a", .float (.zero true))]) = false) ∧
    (holds {} ⟨some "a", some ⟨.equal true true, .float (.finite (.zero false))⟩, ""⟩
        (.object [("a", .float (.zero true))]) = true ∧
      holds {} ⟨some "a", some ⟨.equal true false, .float (.finite (.zero false))⟩, ""⟩
        (.object [("a", .float (.zero true))]) = false) ∧
    (holds {} ⟨some "a", some ⟨.startsWith false, .unquoted "\u0391\u03A3"⟩, ""⟩
        (.object [("a", .string "\u0391\u03A3\u0392")]) = true ∧
      holds {} ⟨some "a", some ⟨.startsWith true, .unquoted "\u0391\u03A3"⟩, ""⟩
        (.object [("a", .string "\u0391\u03A3\u0392")]) = false) ∧
    ∀ operator ∈ [Operator.endsWith, .contains],
      holds {} ⟨some "a", some ⟨operator false, .unquoted "\u03A3"⟩, ""⟩
        (.object [("a", .string "\u0391\u03A3")]) = true ∧
      holds {} ⟨some "a", some ⟨operator true, .unquoted "\u03A3"⟩, ""⟩
        (.object [("a", .string "\u0391\u03A3")]) = false := by
  simp only [List.forall_mem_cons]
  refine ⟨by decide +kernel, by decide +kernel, by decide +kernel, by decide +kernel,
    by decide +kernel, nofun⟩

end AttributeFilter

end ObjectQuery
