import ObjectQuery.Failure
import ObjectQuery.Json.View
import ObjectQuery.Text.Lowercase
/-!
# Matching

Whether an object satisfies a selector. Attribute filters can be asked of every object; of the
primary parts only identifiers can.
-/

namespace ObjectQuery

def lowercase (text : String) : String :=
  String.ofList (Text.lowercase text.toList)

namespace Scalar

/-- Equality for matching: of values, or of lower-cased texts where case is ignored. -/
def agrees (ignoreCase : Bool) (actual expected : Scalar) : Bool :=
  if ignoreCase then
    match actual.text?, expected.text? with
    | some actual, some expected => lowercase actual == lowercase expected
    | none, none => true
    | _, _ => false
  else actual.equal expected

/-- A test of two texts, lower-cased where case is ignored. Null has no text and fails. -/
def textTest (test : List Char → List Char → Bool) (ignoreCase : Bool)
    (actual expected : Scalar) : Bool :=
  match actual.text?, expected.text? with
  | some actual, some expected =>
      if ignoreCase then test (Text.lowercase actual.toList) (Text.lowercase expected.toList)
      else test actual.toList expected.toList
  | _, _ => false

end Scalar

def occursIn (part : List Char) : List Char → Bool
  | [] => part.isEmpty
  | c :: rest => part.isPrefixOf (c :: rest) || occursIn part rest

namespace Operator

/-- Whether a scalar stands in the relation of the operator to the scalar of the operand. Type tests
are not relations of scalars. -/
def relates (operator : Operator) (actual expected : Scalar) : Bool :=
  match operator with
  | .instanceOf _ => false
  | .equal negated ignoreCase => actual.agrees ignoreCase expected != negated
  | .startsWith ignoreCase =>
      actual.textTest (fun text part => part.isPrefixOf text) ignoreCase expected
  | .endsWith ignoreCase =>
      actual.textTest (fun text part => part.isSuffixOf text) ignoreCase expected
  | .contains ignoreCase =>
      actual.textTest (fun text part => occursIn part text) ignoreCase expected
  | .less orEqual =>
      match actual.compare? expected with
      | some .lt => true
      | some .eq => orEqual
      | _ => false
  | .greater orEqual =>
      match actual.compare? expected with
      | some .gt => true
      | some .eq => orEqual
      | _ => false

/-- What the operator says of a value that has no scalar view. It equals nothing; of a list, the
text operators ask its first item, its last item or any item. -/
def relatesComposite (operator : Operator) (items : Option (List Json)) (expected : Scalar) :
    Bool :=
  let agrees (ignoreCase : Bool) (item : Json) : Bool :=
    item.scalar?.any fun actual => actual.agrees ignoreCase expected
  match operator with
  | .equal negated _ => negated
  | .startsWith ignoreCase => (items.bind List.head?).any (agrees ignoreCase)
  | .endsWith ignoreCase => (items.bind List.getLast?).any (agrees ignoreCase)
  | .contains ignoreCase => items.any fun items => items.any (agrees ignoreCase)
  | _ => false

end Operator

namespace AttributeTest

/-- Whether a value passes the test. A missing value is of no type and compares as null. -/
def accepts (config : Config) (test : AttributeTest) (value : Option Json) : Bool :=
  match test.operator with
  | .instanceOf negated =>
      let isInstance : Bool :=
        match value, test.operand.string? with
        | some value, some typeName => value.isInstanceOf config typeName
        | _, _ => false
      isInstance != negated
  | operator =>
      let value := value.getD .null
      match value.scalar? with
      | some actual => operator.relates actual test.operand.scalar
      | none => operator.relatesComposite value.items? test.operand.scalar

end AttributeTest

namespace AttributeFilter

def subject (filter : AttributeFilter) (object : Json) : Option Json :=
  match filter.propertyPath with
  | some path => object.propertyPath? path
  | none => some object

def holds (config : Config) (filter : AttributeFilter) (object : Json) : Bool :=
  let value := filter.subject object
  match filter.test with
  | some test => test.accepts config value
  | none => value.any fun value => !value.isNull

end AttributeFilter

namespace Filter

def attributesHold (config : Config) (filter : Filter) (object : Json) : Bool :=
  filter.attributes.all (·.holds config object)

/-- Whether an object satisfies the filter. The identifier is compared before the attribute filters;
paths and property names cannot be asked of an object. -/
def matchesObject (config : Config) (filter : Filter) (object : Json) : Except Failure Bool :=
  match filter.primary with
  | none => .ok (filter.attributesHold config object)
  | some (.identifier name) =>
      .ok (object.identifier? config == some name && filter.attributesHold config object)
  | some (.propertyName _) => .error (.misuse .propertyNameOfObject)
  | some (.path _) => .error (.misuse .pathOfObject)

end Filter

namespace Selector

/-- Whether an object satisfies one of the filters, which are tried in order. -/
def anyMatches (config : Config) (object : Json) : List Filter → Except Failure Bool
  | [] => .ok false
  | filter :: rest =>
      match filter.matchesObject config object with
      | .error failure => .error failure
      | .ok true => .ok true
      | .ok false => anyMatches config object rest

def matchesObject (config : Config) (selector : Selector) (object : Json) : Except Failure Bool :=
  anyMatches config object selector.filters

end Selector

end ObjectQuery
