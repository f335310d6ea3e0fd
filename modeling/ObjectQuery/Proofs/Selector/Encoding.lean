import ObjectQuery.Selector.Encoding
import ObjectQuery.Proofs.Json.Reading
import ObjectQuery.Proofs.Selector.Rules
/-!
# Selectors read back from JSON

The JSON form of a selector keeps all of it but operands that are no finite numbers. A selector with
such an operand has a form that is refused.
-/

namespace ObjectQuery

/-! ## Lists and optional parts -/

namespace Json

section Parts

variable {α : Type} {toJson : α → Json} {read? : Json → Option α} {keeps : α → Bool}

theorem guard_string (s : String) :
    (Json.string s).string? = Option.guard (fun _ => true) s :=
  rfl

theorem isCanonical_string (s : String) : (Json.string s).IsCanonical :=
  trivial

theorem bind_guard {β : Type} (build : α → β) (part : α) :
    ((Option.guard keeps part).bind fun part => some (build part)) =
      if keeps part = true then some (build part) else none := by
  rw [Option.guard]
  split <;> rfl

theorem list?_map (hread : ∀ value, read? (toJson value) = Option.guard keeps value)
    (values : List α) :
    list? read? (.array (values.map toJson)) = Option.guard (List.all · keeps) values := by
  rw [list?]
  induction values with
  | nil => rfl
  | cons value values ih =>
      rw [List.map_cons, List.mapM_cons, ih, hread]
      simp only [Option.guard, List.all_cons]
      by_cases hvalue : keeps value = true <;> by_cases hvalues : values.all keeps = true <;>
        simp [hvalue, hvalues]

theorem optional?_ofOption (hread : ∀ value, read? (toJson value) = Option.guard keeps value)
    (hnull : ∀ value, toJson value ≠ .null) (part : Option α) :
    optional? read? (some (ofOption toJson part)) = Option.guard (Option.all keeps) part := by
  cases part with
  | none => rfl
  | some value =>
      have hvalue : optional? read? (some (toJson value)) = (read? (toJson value)).map some := by
        unfold optional?
        split
        · rename_i heq
          cases heq
        · rename_i heq
          exact absurd (Option.some.inj heq) (hnull value)
        · rename_i heq
          rw [Option.some.inj heq]
      rw [ofOption, hvalue, hread]
      simp only [Option.guard, Option.all_some]
      split <;> rfl

theorem areCanonical_map (h : ∀ value, (toJson value).IsCanonical) (values : List α) :
    AreCanonical (values.map toJson) := by
  induction values with
  | nil => exact trivial
  | cons value values ih => exact ⟨h value, ih⟩

theorem isCanonical_ofOption (h : ∀ value, (toJson value).IsCanonical) (part : Option α) :
    (ofOption toJson part).IsCanonical := by
  cases part with
  | none => exact trivial
  | some value => exact h value

end Parts

end Json

/-! ## The parts of a selector -/

namespace Operand

/-- Whether an operand is no infinite number: the operands that JSON can keep. -/
def isFinite : Operand → Bool
  | .float (.finite _) => true
  | .float _ => false
  | _ => true

theorem ofJson?_toJson (operand : Operand) :
    ofJson? operand.toJson = Option.guard isFinite operand := by
  cases operand with
  | string value => rfl
  | integer value =>
      have hread : ofJson? (toJson (.integer value)) =
          if Json.fitsInt64 value.toInt then some (.integer (Int64.ofInt value.toInt)) else none :=
        rfl
      rw [hread, if_pos (Json.fitsInt64_toInt value), Int64.ofInt_toInt]
      rfl
  | float value => cases value <;> rfl
  | boolean value => rfl
  | unquoted value => rfl

theorem isCanonical_toJson (operand : Operand) : operand.toJson.IsCanonical := by
  have hsingle (name : String) {value : Json} (h : value.IsCanonical) :
      (Json.object [(name, value)]).IsCanonical :=
    ⟨List.pairwise_singleton _ _, h, trivial⟩
  cases operand with
  | string value => exact hsingle _ trivial
  | integer value =>
      have hexact : Json.isExactInteger value.toInt = true := by
        have hlower := value.le_toInt
        have hupper := value.toInt_lt
        rw [Json.isExactInteger, Bool.and_eq_true, decide_eq_true_eq, decide_eq_true_eq]
        omega
      exact hsingle _ hexact
  | float value => cases value <;> exact hsingle _ trivial
  | boolean value => exact hsingle _ trivial
  | unquoted value => exact hsingle _ trivial

end Operand

namespace Operator

theorem ofJson?_toJson (operator : Operator) : ofJson? operator.toJson = some operator := by
  cases operator with
  | equal negated ignoreCase => cases negated <;> cases ignoreCase <;> rfl
  | instanceOf flag | startsWith flag | endsWith flag | contains flag | less flag | greater flag =>
      cases flag <;> rfl

end Operator

namespace AttributeTest

theorem ofJson?_toJson (test : AttributeTest) :
    ofJson? test.toJson = Option.guard (·.operand.isFinite) test := by
  have hparts : test.toJson.parts? ["operator", "operand"] =
      some [some test.operator.toJson, some test.operand.toJson] := rfl
  rw [ofJson?, hparts]
  simp only [Option.bind_eq_bind, Option.bind_some, Operator.ofJson?_toJson,
    Operand.ofJson?_toJson, Option.pure_def]
  exact Json.bind_guard (AttributeTest.mk test.operator) test.operand

theorem isCanonical_toJson (test : AttributeTest) : test.toJson.IsCanonical := by
  have hnames : ["operand", "operator"].Pairwise (· < ·) := by decide
  exact ⟨hnames, Operand.isCanonical_toJson _, trivial, trivial⟩

end AttributeTest

namespace Path

theorem ofJson?_toJson (path : Path) : ofJson? path.toJson = some path := by
  have hsegments : Json.list? Json.string? (.array (path.segments.map .string)) =
      some path.segments := by
    rw [Json.list?_map Json.guard_string]
    simp [Option.guard]
  have hparts : path.toJson.parts? ["segments", "absolute"] =
      some [some (.array (path.segments.map .string)), some (.bool path.absolute)] := rfl
  rw [ofJson?, hparts]
  simp [hsegments, Json.bool?]

theorem isCanonical_toJson (path : Path) : path.toJson.IsCanonical := by
  have hnames : ["absolute", "segments"].Pairwise (· < ·) := by decide
  exact ⟨hnames, trivial, Json.areCanonical_map Json.isCanonical_string _, trivial⟩

end Path

namespace Primary

theorem ofJson?_toJson (primary : Primary) :
    ofJson? primary.toJson = Option.guard (fun _ => true) primary := by
  cases primary with
  | path value =>
      show (Path.ofJson? value.toJson).map Primary.path = _
      rw [Path.ofJson?_toJson]
      rfl
  | identifier name => rfl
  | propertyName name => rfl

theorem isCanonical_toJson (primary : Primary) : primary.toJson.IsCanonical := by
  cases primary with
  | path value => exact ⟨List.pairwise_singleton _ _, value.isCanonical_toJson, trivial⟩
  | identifier name => exact ⟨List.pairwise_singleton _ _, trivial, trivial⟩
  | propertyName name => exact ⟨List.pairwise_singleton _ _, trivial, trivial⟩

theorem toJson_ne_null (primary : Primary) : primary.toJson ≠ .null := by
  cases primary <;> exact Json.noConfusion

end Primary

namespace AttributeFilter

def isFinite (filter : AttributeFilter) : Bool :=
  filter.test.all (·.operand.isFinite)

theorem ofJson?_toJson (filter : AttributeFilter) :
    ofJson? filter.toJson = Option.guard isFinite filter := by
  have hpath : Json.optional? Json.string? (some (Json.ofOption .string filter.propertyPath)) =
      some filter.propertyPath := by
    rw [Json.optional?_ofOption Json.guard_string fun _ => Json.noConfusion]
    simp [Option.guard]
  have htest := Json.optional?_ofOption AttributeTest.ofJson?_toJson (fun _ => Json.noConfusion)
    filter.test
  have hparts : filter.toJson.parts? ["property_path", "test", "text"] =
      some [some (Json.ofOption .string filter.propertyPath),
        some (Json.ofOption AttributeTest.toJson filter.test), some (.string filter.text)] := rfl
  rw [ofJson?, hparts]
  simp only [Option.bind_eq_bind, Option.bind_some, hpath, htest, Json.string?, Option.pure_def]
  exact Json.bind_guard (AttributeFilter.mk filter.propertyPath · filter.text) filter.test

theorem isCanonical_toJson (filter : AttributeFilter) : filter.toJson.IsCanonical := by
  have hnames : ["property_path", "test", "text"].Pairwise (· < ·) := by decide
  exact ⟨hnames, Json.isCanonical_ofOption Json.isCanonical_string _,
    Json.isCanonical_ofOption AttributeTest.isCanonical_toJson _, trivial, trivial⟩

end AttributeFilter

namespace Filter

def isFinite (filter : Filter) : Bool :=
  filter.attributes.all AttributeFilter.isFinite

theorem ofJson?_toJson (filter : Filter) :
    ofJson? filter.toJson = Option.guard isFinite filter := by
  have hprimary : Json.optional? Primary.ofJson?
      (some (Json.ofOption Primary.toJson filter.primary)) = some filter.primary := by
    rw [Json.optional?_ofOption Primary.ofJson?_toJson Primary.toJson_ne_null]
    simp [Option.guard]
  have hattributes := Json.list?_map AttributeFilter.ofJson?_toJson filter.attributes
  have hparts : filter.toJson.parts? ["primary", "attribute_filters"] =
      some [some (Json.ofOption Primary.toJson filter.primary),
        some (.array (filter.attributes.map AttributeFilter.toJson))] := rfl
  rw [ofJson?, hparts]
  simp only [Option.bind_eq_bind, Option.bind_some, hprimary, hattributes, Option.pure_def]
  exact Json.bind_guard (Filter.mk filter.primary) filter.attributes

theorem isCanonical_toJson (filter : Filter) : filter.toJson.IsCanonical := by
  have hnames : ["attribute_filters", "primary"].Pairwise (· < ·) := by decide
  exact ⟨hnames, Json.areCanonical_map AttributeFilter.isCanonical_toJson _,
    Json.isCanonical_ofOption Primary.isCanonical_toJson _, trivial⟩

end Filter

namespace Selector

def isFinite (selector : Selector) : Bool :=
  selector.filters.all Filter.isFinite

theorem ofJson?_toJson (selector : Selector) :
    ofJson? selector.toJson = Option.guard isFinite selector := by
  have hfilters := Json.list?_map Filter.ofJson?_toJson selector.filters
  have hparts : selector.toJson.parts? ["filters"] =
      some [some (.array (selector.filters.map Filter.toJson))] := rfl
  rw [ofJson?, hparts]
  simp only [Option.bind_eq_bind, Option.bind_some, hfilters, Option.pure_def]
  exact Json.bind_guard Selector.mk selector.filters

theorem isCanonical_toJson (selector : Selector) : selector.toJson.IsCanonical := by
  exact ⟨List.pairwise_singleton _ _, Json.areCanonical_map Filter.isCanonical_toJson _, trivial⟩

/-- The JSON text of a selector gives back the selector, its floats to the last bit, unless an
operand is no finite number; then the text is refused. -/
theorem json_read_back (selector : Selector) :
    (Json.ofText? selector.toJson.compact).bind ofJson? =
      if selector.isFinite then some selector else none := by
  rw [Json.ofText?_compact selector.isCanonical_toJson, Option.bind_some, ofJson?_toJson]
  rfl

/-- The characters of a selector that compares with `10 ^ 309`. -/
def beyondFloats : List Char :=
  ['[', 'a', '=', '1'] ++ List.replicate 309 '0' ++ [']']

/-- A number with too many digits is accepted as an infinite operand, and the JSON text of the
selector is refused. -/
theorem json_of_infinite :
    ∃ selector, parse (String.ofList beyondFloats) = .ok selector ∧
      (Json.ofText? selector.toJson.compact).bind ofJson? = none := by
  have hparse : parse (String.ofList beyondFloats) = .ok ⟨[⟨none, [⟨some "a",
      some ⟨.equal false false, .float (.infinite false)⟩, String.ofList beyondFloats⟩]⟩]⟩ := by
    rw [parse_eq, String.toList_ofList]
    decide +kernel
  refine ⟨_, hparse, ?_⟩
  rw [Json.ofText?_compact (isCanonical_toJson _), Option.bind_some, ofJson?_toJson]
  rfl

end Selector

end ObjectQuery
