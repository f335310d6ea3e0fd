import ObjectQuery.Config.Settings
import ObjectQuery.Json.Decode
import ObjectQuery.Json.Text
/-!
# Configurations as JSON

A configuration is a JSON object with a field for each part, where null stands for no bound on
operations. On reading, further fields are ignored, whatever they hold. The list of the parts in
order, possibly cut short, is read too.
-/

namespace ObjectQuery

open Json (Tree Piece)

namespace Setting

def boundOfTree? : Tree → Option Setting
  | .null => some (.maxOperations none)
  | .number numeral =>
      match numeral.integer? with
      | some (.ofNat n) => if n < 2 ^ 64 then some (.maxOperations (some (.ofNat n))) else none
      | _ => none
  | _ => none

def stringOfTree? : Tree → Option String
  | .string pieces => Piece.toString? pieces
  | _ => none

/-- The settings that a field denotes: one, none for a field of another name, or a failure. -/
def ofField? (name : String) (value : Tree) : Option (List Setting) :=
  if name = "max_operations" then (boundOfTree? value).map ([·])
  else if name = "identity_property" then
    (stringOfTree? value).map fun name => [.identityProperty name]
  else if name = "type_property" then (stringOfTree? value).map fun name => [.typeProperty name]
  else some []

def ofFields? : List (List Piece × Tree) → Option (List Setting)
  | [] => some []
  | (pieces, value) :: rest =>
      match Piece.toString? pieces with
      | none => none
      | some name =>
          match ofField? name value, ofFields? rest with
          | some first, some others => some (first ++ others)
          | _, _ => none

def ofItems? : List String → List Tree → Option (List Setting)
  | _, [] => some []
  | [], _ :: _ => none
  | name :: names, value :: rest =>
      match ofField? name value, ofItems? names rest with
      | some first, some others => some (first ++ others)
      | _, _ => none

end Setting

namespace Config

def ofJsonText? (text : String) : Option Config :=
  match Tree.ofText? text.toList with
  | some (.object fields) => (Setting.ofFields? fields).bind ofSettings?
  | some (.array items) =>
      (Setting.ofItems? ["max_operations", "identity_property", "type_property"] items).bind
        ofSettings?
  | _ => none

def boundText : Option UInt64 → List Char
  | some bound => Decimal.digitsOf bound.toNat
  | none => ['n', 'u', 'l', 'l']

/-- The JSON text of a configuration, one field a line. -/
def toJsonText (config : Config) : String :=
  String.ofList <|
    "\x7b\n  \"max_operations\": ".toList ++ boundText config.maxOperations
      ++ ",\n  \"identity_property\": ".toList ++ Json.quote config.identityProperty
      ++ ",\n  \"type_property\": ".toList ++ Json.quote config.typeProperty ++ "\n\x7d".toList

end Config

end ObjectQuery
