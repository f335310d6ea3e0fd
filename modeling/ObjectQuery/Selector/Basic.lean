import ObjectQuery.Binary64.Text
import ObjectQuery.Json.Text
/-!
# Selectors

A selector such as `address[country=Germany], #abc` is a list of filters. A filter has an optional
primary part and any number of attribute filters in brackets.
-/

namespace ObjectQuery

/-- A path of names such as `/sites/main` or `main/about`. -/
structure Path where
  segments : List String
  absolute : Bool
  deriving DecidableEq

/-- The leading part of a filter: a path, `#identifier` or a property name. -/
inductive Primary where
  | path (path : Path)
  | identifier (name : String)
  | propertyName (name : String)
  deriving DecidableEq

inductive Operator where
  | instanceOf (negated : Bool)
  | equal (negated ignoreCase : Bool)
  | startsWith (ignoreCase : Bool)
  | endsWith (ignoreCase : Bool)
  | contains (ignoreCase : Bool)
  | less (orEqual : Bool)
  | greater (orEqual : Bool)
  deriving DecidableEq

inductive Operand where
  | string (value : String)
  | integer (value : Int64)
  | float (value : Binary64)
  | boolean (value : Bool)
  | unquoted (value : String)
  deriving DecidableEq

structure AttributeTest where
  operator : Operator
  operand : Operand
  deriving DecidableEq

/-- A bracketed condition. Without a property path it concerns the object itself, and without a test
it asks for existence. `text` is the source with its brackets. -/
structure AttributeFilter where
  propertyPath : Option String
  test : Option AttributeTest
  text : String
  deriving DecidableEq

/-- One comma-separated part of a selector. All its conditions must hold. -/
structure Filter where
  primary : Option Primary
  attributes : List AttributeFilter
  deriving DecidableEq

/-- A list of filters, of which one must hold. -/
structure Selector where
  filters : List Filter
  deriving DecidableEq

namespace Path

def toText (path : Path) : String :=
  let joined := "/".intercalate path.segments
  if path.absolute then "/" ++ joined else joined

end Path

namespace Operator

def symbol : Operator → String
  | .instanceOf negated => if negated then "!instanceof" else "instanceof"
  | .equal negated ignoreCase =>
      if negated then (if ignoreCase then "!=~" else "!=")
      else (if ignoreCase then "=~" else "=")
  | .startsWith ignoreCase => if ignoreCase then "^=~" else "^="
  | .endsWith ignoreCase => if ignoreCase then "$=~" else "$="
  | .contains ignoreCase => if ignoreCase then "*=~" else "*="
  | .less orEqual => if orEqual then "<=" else "<"
  | .greater orEqual => if orEqual then ">=" else ">"

def ignoresCase : Operator → Bool
  | .equal _ ignoreCase => ignoreCase
  | .startsWith ignoreCase => ignoreCase
  | .endsWith ignoreCase => ignoreCase
  | .contains ignoreCase => ignoreCase
  | _ => false

/-- Every operator, in the order in which they are tried: a symbol comes before any
shorter one that starts it. -/
def all : List Operator :=
  [.instanceOf false, .instanceOf true, .startsWith true, .startsWith false, .endsWith true,
    .endsWith false, .contains true, .contains false, .equal false true, .equal false false,
    .equal true true, .equal true false, .less true, .less false, .greater true, .greater false]

end Operator

namespace Operand

def toText : Operand → String
  | .string value => value
  | .unquoted value => value
  | .integer value => String.ofList (Json.integerText value.toInt)
  | .float value => value.plainText
  | .boolean value => if value then "true" else "false"

def string? : Operand → Option String
  | .string value => some value
  | .unquoted value => some value
  | _ => none

end Operand

namespace Filter

def isEmpty (filter : Filter) : Bool :=
  filter.primary.isNone && filter.attributes.isEmpty

def propertyName? (filter : Filter) : Option String :=
  match filter.primary with
  | some (.propertyName name) => some name
  | _ => none

def identifier? (filter : Filter) : Option String :=
  match filter.primary with
  | some (.identifier name) => some name
  | _ => none

def path? (filter : Filter) : Option Path :=
  match filter.primary with
  | some (.path path) => some path
  | _ => none

end Filter

end ObjectQuery
