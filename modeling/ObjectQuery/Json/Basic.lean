import ObjectQuery.Binary64.Basic
/-!
# JSON documents

JSON values with integers and floats kept apart. An object lists its fields in ascending order of
their names, each name once, so equal objects have equal lists of fields.
-/

namespace ObjectQuery

/-- A JSON value. Floats are finite: JSON has no text for other numbers. -/
inductive Json where
  | null
  | bool (value : Bool)
  | integer (value : Int)
  | float (value : Binary64.Finite)
  | string (value : String)
  | array (items : List Json)
  | object (fields : List (String × Json))

namespace Json

instance : Inhabited Json :=
  ⟨.null⟩

mutual

/-- Equality of values of the same kind. Floats are compared as numbers. -/
def equal : Json → Json → Bool
  | .null, .null => true
  | .bool x, .bool y => x == y
  | .integer x, .integer y => x == y
  | .float x, .float y => x.equal y
  | .string x, .string y => x == y
  | .array xs, .array ys => equalItems xs ys
  | .object xs, .object ys => equalFields xs ys
  | _, _ => false

def equalItems : List Json → List Json → Bool
  | [], [] => true
  | x :: xs, y :: ys => equal x y && equalItems xs ys
  | _, _ => false

def equalFields : List (String × Json) → List (String × Json) → Bool
  | [], [] => true
  | (name, x) :: xs, (other, y) :: ys => name == other && equal x y && equalFields xs ys
  | _, _ => false

end

/-- Puts a field at its place in ascending order, replacing one of the same name. -/
def insertField (name : String) (value : Json) : List (String × Json) → List (String × Json)
  | [] => [(name, value)]
  | (other, kept) :: rest =>
      if name = other then (name, value) :: rest
      else if name < other then (name, value) :: (other, kept) :: rest
      else (other, kept) :: insertField name value rest

/-- The object with the given fields. Of fields with one name the last counts. -/
def ofFields (fields : List (String × Json)) : Json :=
  .object (fields.foldl (fun sorted (name, value) => insertField name value sorted) [])

def field? (name : String) : Json → Option Json
  | .object fields => fields.lookup name
  | _ => none

def fitsInt64 (i : Int) : Bool :=
  -2 ^ 63 ≤ i && i < 2 ^ 63

theorem fitsInt64_toInt (value : Int64) : fitsInt64 value.toInt = true := by
  rw [fitsInt64, Bool.and_eq_true, decide_eq_true_eq, decide_eq_true_eq]
  exact ⟨value.le_toInt, value.toInt_lt⟩

/-- Whether an integer is one that JSON text keeps exact: 64 bits, with or without sign. -/
def isExactInteger (i : Int) : Bool :=
  -2 ^ 63 ≤ i && i < 2 ^ 64

end Json

end ObjectQuery
