import ObjectQuery.Binary64.Text
import ObjectQuery.Config.Settings
import ObjectQuery.Toml.Document
/-!
# Configurations as TOML

A configuration is a TOML document with a key for each part. The format has no null, so a missing
bound on operations is left out; on reading, a key that is left out takes its default.
-/

namespace ObjectQuery

namespace Setting

/-- The settings that an entry denotes: one, none for an entry of another key, or a failure. -/
def ofEntry? (key : String) (item : Toml.Item) : Option (List Setting) :=
  if key = "max_operations" then
    match item with
    | .integer (.ofNat n) => some [.maxOperations (some (.ofNat n))]
    | _ => none
  else if key = "identity_property" then
    match item with
    | .string name => some [.identityProperty name]
    | _ => none
  else if key = "type_property" then
    match item with
    | .string name => some [.typeProperty name]
    | _ => none
  else some []

def ofEntries? : Toml.Entries → Option (List Setting)
  | [] => some []
  | (key, item) :: rest =>
      match ofEntry? key item, ofEntries? rest with
      | some first, some others => some (first ++ others)
      | _, _ => none

end Setting

namespace Config

def ofTomlText? (text : String) : Option Config :=
  match Toml.document? text with
  | some entries => (Setting.ofEntries? entries).bind ofSettings?
  | none => none

/-- The line of a bound. TOML integers have a sign, so the upper half of the bounds has none. -/
def boundLine? : Option UInt64 → Option (List Char)
  | none => some []
  | some bound =>
      if bound.toNat < 2 ^ 63 then
        some ("max_operations = ".toList ++ Decimal.digitsOf bound.toNat ++ ['\n'])
      else none

/-- The TOML text of a configuration, one key a line, if its bound can be written. The
names are basic strings on one line, whatever characters they have. -/
def toTomlText? (config : Config) : Option String :=
  (boundLine? config.maxOperations).map fun line =>
    String.ofList <|
      line ++ "identity_property = ".toList ++ Toml.quote config.identityProperty
        ++ "\ntype_property = ".toList ++ Toml.quote config.typeProperty ++ ['\n']

end Config

end ObjectQuery
