import ObjectQuery.Config.Basic
import ObjectQuery.Scalar
import ObjectQuery.Text.Characters
/-!
# JSON values as objects

What a query asks of an object: its properties, its identifier, its types and its items.
-/

namespace ObjectQuery

namespace Json

/-- The array index that a property name denotes: ASCII digits after an optional plus sign, for a
number of at most 64 bits. -/
def index? (name : String) : Option Nat :=
  let digits :=
    match name.toList with
    | '+' :: rest => rest
    | text => text
  if digits.isEmpty || !digits.all Char.isDigit then none
  else
    let index := Text.digitsValue digits
    if index < 2 ^ 64 then some index else none

def property? (name : String) : Json → Option Json
  | .object fields => fields.lookup name
  | .array items => (index? name).bind fun index => items[index]?
  | _ => none

def pathNames (path : String) : List String :=
  (path.toList.splitOn '.').map String.ofList

def follow? : List String → Json → Option Json
  | [], value => some value
  | name :: rest, value => (value.property? name).bind (follow? rest)

def propertyPath? (path : String) (value : Json) : Option Json :=
  value.follow? (pathNames path)

def items? : Json → Option (List Json)
  | .array items => some items
  | _ => none

def isNull : Json → Bool
  | .null => true
  | _ => false

/-- The identifier of an object: the text of its identity property if that is a string or a
number. -/
def identifier? (config : Config) (value : Json) : Option String :=
  match value.field? config.identityProperty with
  | some (.string id) => some id
  | some (.integer n) => some (Json.integer n).compact
  | some (.float x) => some (Json.float x).compact
  | _ => none

/-- A type name without leading backslashes. -/
def bareTypeName (name : String) : List Char :=
  name.toList.dropWhile (· == '\\')

/-- Whether the type property of an object names a type, alone or in a list. -/
def declares (config : Config) (typeName : String) (value : Json) : Bool :=
  let names (declared : Json) : Bool :=
    match declared with
    | .string name => bareTypeName name == bareTypeName typeName
    | _ => false
  match value.field? config.typeProperty with
  | some (.array declared) => declared.any names
  | some declared => names declared
  | none => false

inductive Kind where
  | object
  | array
  | string
  | integer
  | float
  | boolean
  | null
  deriving DecidableEq

/-- The kind of a value. An integer beyond 64 bits with sign counts as a float. -/
def kind : Json → Kind
  | .null => .null
  | .bool _ => .boolean
  | .integer n => if fitsInt64 n then .integer else .float
  | .float _ => .float
  | .string _ => .string
  | .array _ => .array
  | .object _ => .object

def Kind.ofName? : String → Option Kind
  | "object" => some .object
  | "array" => some .array
  | "string" => some .string
  | "integer" => some .integer
  | "int" => some .integer
  | "float" => some .float
  | "double" => some .float
  | "boolean" => some .boolean
  | "bool" => some .boolean
  | "null" => some .null
  | _ => none

/-- Whether a value is of a type. Names that stand for no kind of values are looked up in the type
property. -/
def isInstanceOf (config : Config) (typeName : String) (value : Json) : Bool :=
  match Kind.ofName? typeName with
  | some kind => value.kind == kind
  | none => value.declares config typeName

end Json

end ObjectQuery
