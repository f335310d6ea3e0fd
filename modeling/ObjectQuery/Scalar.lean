import ObjectQuery.Selector.Basic
import ObjectQuery.Binary64.Rounding
/-!
# Scalars

The values that selectors compare. A JSON value without items and fields has a scalar view, and so
has every operand.
-/

namespace ObjectQuery

inductive Scalar where
  | null
  | bool (value : Bool)
  | integer (value : Int64)
  | float (value : Binary64)
  | string (value : String)
  deriving DecidableEq

namespace Scalar

/-- The text that string operators see. Null has none. -/
def text? : Scalar → Option String
  | .null => none
  | .bool value => some (if value then "true" else "false")
  | .integer value => some (String.ofList (Json.integerText value.toInt))
  | .float value => some value.plainText
  | .string value => some value

/-- Order of numbers and of strings. An integer is rounded to a float before it is compared with
one; values of other kinds are unordered. Strings are ordered by code points. -/
def compare? : Scalar → Scalar → Option Ordering
  | .integer x, .integer y => some (compare x.toInt y.toInt)
  | .integer x, .float y => (Binary64.ofInt x.toInt).compare? y
  | .float x, .integer y => x.compare? (Binary64.ofInt y.toInt)
  | .float x, .float y => x.compare? y
  | .string x, .string y => some (compare x y)
  | _, _ => none

def equal : Scalar → Scalar → Bool
  | .null, .null => true
  | .bool x, .bool y => x == y
  | .integer x, .integer y => x == y
  | .float x, .float y => x.equal y
  | .string x, .string y => x == y
  | _, _ => false

end Scalar

def Operand.scalar : Operand → Scalar
  | .string value => .string value
  | .unquoted value => .string value
  | .integer value => .integer value
  | .float value => .float value
  | .boolean value => .bool value

/-- The scalar view of a value. An integer beyond 64 bits with sign is seen as a float. -/
def Json.scalar? : Json → Option Scalar
  | .null => some .null
  | .bool value => some (.bool value)
  | .integer value =>
      some (if Json.fitsInt64 value then .integer (Int64.ofInt value)
        else .float (Binary64.ofInt value))
  | .float value => some (.float (.finite value))
  | .string value => some (.string value)
  | .array _ => none
  | .object _ => none

end ObjectQuery
