import ObjectQuery.Binary64.Rounding
import ObjectQuery.Selector.Basic
/-!
# Selectors as JSON

The JSON form of selectors. A record is an object with a field for each part; on reading, further
fields are ignored, absent optional parts are null, and the list of all parts in order is accepted
too. A choice is an object whose one field names the alternative. JSON has no infinite numbers, so
an infinite operand is written as null and does not come back.
-/

namespace ObjectQuery

namespace Json

/-- The parts of a record with the given names: the fields of an object, or a list of as many
items. -/
def parts? (names : List String) : Json → Option (List (Option Json))
  | .object fields => some (names.map fun name => fields.lookup name)
  | .array items => if items.length = names.length then some (items.map some) else none
  | _ => none

def string? : Json → Option String
  | .string value => some value
  | _ => none

def bool? : Json → Option Bool
  | .bool value => some value
  | _ => none

def list? {α : Type} (read? : Json → Option α) : Json → Option (List α)
  | .array items => items.mapM read?
  | _ => none

/-- An optional part: absent and null parts are none. -/
def optional? {α : Type} (read? : Json → Option α) : Option Json → Option (Option α)
  | none => some none
  | some .null => some none
  | some value => (read? value).map some

def ofOption {α : Type} (toJson : α → Json) : Option α → Json
  | none => .null
  | some value => toJson value

end Json

namespace Path

def toJson (path : Path) : Json :=
  .object [("absolute", .bool path.absolute), ("segments", .array (path.segments.map .string))]

def ofJson? (value : Json) : Option Path := do
  let [some segments, some absolute] ← value.parts? ["segments", "absolute"] | none
  return ⟨← segments.list? Json.string?, ← absolute.bool?⟩

end Path

namespace Primary

def toJson : Primary → Json
  | .path value => .object [("Path", value.toJson)]
  | .identifier name => .object [("Identifier", .string name)]
  | .propertyName name => .object [("PropertyName", .string name)]

def ofJson? : Json → Option Primary
  | .object [(alternative, value)] =>
      match alternative with
      | "Path" => (Path.ofJson? value).map .path
      | "Identifier" => value.string?.map .identifier
      | "PropertyName" => value.string?.map .propertyName
      | _ => none
  | _ => none

end Primary

namespace Operator

def name : Operator → String
  | .instanceOf negated => if negated then "NotInstanceof" else "Instanceof"
  | .equal negated ignoreCase =>
      if negated then (if ignoreCase then "NotEqualInsensitive" else "NotEqual")
      else (if ignoreCase then "EqualInsensitive" else "Equal")
  | .startsWith ignoreCase => if ignoreCase then "PrefixInsensitive" else "Prefix"
  | .endsWith ignoreCase => if ignoreCase then "SuffixInsensitive" else "Suffix"
  | .contains ignoreCase => if ignoreCase then "SubstringInsensitive" else "Substring"
  | .less orEqual => if orEqual then "LessThanOrEqual" else "LessThan"
  | .greater orEqual => if orEqual then "GreaterThanOrEqual" else "GreaterThan"

def ofName? (name : String) : Option Operator :=
  all.find? fun operator => operator.name == name

def toJson (operator : Operator) : Json :=
  .string operator.name

/-- Reads the JSON form of an operator: its name, or an object with that name and no content. -/
def ofJson? : Json → Option Operator
  | .string name => ofName? name
  | .object [(name, .null)] => ofName? name
  | _ => none

end Operator

namespace Operand

def toJson : Operand → Json
  | .string value => .object [("String", .string value)]
  | .integer value => .object [("Integer", .integer value.toInt)]
  | .float (.finite value) => .object [("Float", .float value)]
  | .float _ => .object [("Float", .null)]
  | .boolean value => .object [("Boolean", .bool value)]
  | .unquoted value => .object [("Unquoted", .string value)]

def ofJson? : Json → Option Operand
  | .object [(alternative, value)] =>
      match alternative, value with
      | "String", .string value => some (.string value)
      | "Integer", .integer value =>
          if Json.fitsInt64 value then some (.integer (Int64.ofInt value)) else none
      | "Float", .float value => some (.float (.finite value))
      | "Float", .integer value => some (.float (Binary64.ofInt value))
      | "Boolean", .bool value => some (.boolean value)
      | "Unquoted", .string value => some (.unquoted value)
      | _, _ => none
  | _ => none

end Operand

namespace AttributeTest

def toJson (test : AttributeTest) : Json :=
  .object [("operand", test.operand.toJson), ("operator", test.operator.toJson)]

def ofJson? (value : Json) : Option AttributeTest := do
  let [some operator, some operand] ← value.parts? ["operator", "operand"] | none
  return ⟨← Operator.ofJson? operator, ← Operand.ofJson? operand⟩

end AttributeTest

namespace AttributeFilter

def toJson (filter : AttributeFilter) : Json :=
  .object [("property_path", Json.ofOption .string filter.propertyPath),
    ("test", Json.ofOption AttributeTest.toJson filter.test), ("text", .string filter.text)]

def ofJson? (value : Json) : Option AttributeFilter := do
  let [propertyPath, test, some text] ← value.parts? ["property_path", "test", "text"] | none
  return ⟨← Json.optional? Json.string? propertyPath, ← Json.optional? AttributeTest.ofJson? test,
    ← text.string?⟩

end AttributeFilter

namespace Filter

def toJson (filter : Filter) : Json :=
  .object [("attribute_filters", .array (filter.attributes.map AttributeFilter.toJson)),
    ("primary", Json.ofOption Primary.toJson filter.primary)]

def ofJson? (value : Json) : Option Filter := do
  let [primary, some attributes] ← value.parts? ["primary", "attribute_filters"] | none
  return ⟨← Json.optional? Primary.ofJson? primary, ← attributes.list? AttributeFilter.ofJson?⟩

end Filter

namespace Selector

def toJson (selector : Selector) : Json :=
  .object [("filters", .array (selector.filters.map Filter.toJson))]

def ofJson? (value : Json) : Option Selector := do
  let [some filters] ← value.parts? ["filters"] | none
  return ⟨← filters.list? Filter.ofJson?⟩

end Selector

end ObjectQuery
