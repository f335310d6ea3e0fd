import ObjectQuery.Config.Json
import ObjectQuery.Proofs.Json.Lines
/-!
# Reading back configurations from JSON

The JSON text of a configuration is an object with one field a line. It gives back the
configuration, whatever its names and its bound: null is written and read for a missing bound, so
that it is not taken for a bound that is left out, which has a default.
-/

namespace ObjectQuery.Config

open Json (Tree Piece WrittenField ReadsAs writtenPiece)

def boundTree : Option UInt64 → Tree
  | some bound =>
      .number ⟨(bound.toNat : Int) < 0, Decimal.digitsOf (bound.toNat : Int).natAbs, [], none⟩
  | none => .null

theorem readsAs_boundText (bound : Option UInt64) :
    ReadsAs (boundText bound) (boundTree bound) := by
  cases bound with
  | none => exact Json.readsAs_null
  | some bound =>
      have hsign : decide ((bound.toNat : Int) < 0) = false := decide_eq_false (by omega)
      have htext : boundText (some bound) = Json.integerText bound.toNat := by
        rw [Json.integerText, hsign]
        rfl
      rw [htext]
      exact Json.readsAs_integerText bound.toNat

def boundField (bound : Option UInt64) : WrittenField :=
  ⟨"max_operations", boundText bound, boundTree bound, readsAs_boundText bound⟩

def nameField (name property : String) : WrittenField :=
  ⟨name, Json.quote property, .string (property.toList.map writtenPiece),
    Json.readsAs_quote property⟩

def nameFields (config : Config) : List WrittenField :=
  [nameField "identity_property" config.identityProperty,
    nameField "type_property" config.typeProperty]

def namesJsonText (config : Config) : String :=
  String.ofList ('\x7b' :: WrittenField.lines config.nameFields)

/-- The object that the text of a configuration denotes, with null for a missing bound. -/
def toJson (config : Config) : Json :=
  Json.ofFields
    [("max_operations", config.maxOperations.elim .null fun bound => .integer bound.toNat),
      ("identity_property", .string config.identityProperty),
      ("type_property", .string config.typeProperty)]

theorem toList_toJsonText (config : Config) :
    config.toJsonText.toList =
      '\x7b' :: WrittenField.lines (boundField config.maxOperations :: config.nameFields) := by
  have hbound : "\x7b\n  \"max_operations\": ".toList =
      '\x7b' :: '\n' :: ' ' :: ' ' :: (Json.quote "max_operations" ++ [':', ' ']) := by
    rw [Json.quote_of_plain (by decide +kernel)]
    rfl
  have hidentity : ",\n  \"identity_property\": ".toList =
      ',' :: '\n' :: ' ' :: ' ' :: (Json.quote "identity_property" ++ [':', ' ']) := by
    rw [Json.quote_of_plain (by decide +kernel)]
    rfl
  have htype : ",\n  \"type_property\": ".toList =
      ',' :: '\n' :: ' ' :: ' ' :: (Json.quote "type_property" ++ [':', ' ']) := by
    rw [Json.quote_of_plain (by decide +kernel)]
    rfl
  have hclose : "\n\x7d".toList = ['\n', '\x7d'] := rfl
  refine String.toList_ofList.trans ?_
  simp only [hbound, hidentity, htype, hclose, nameFields, WrittenField.lines, WrittenField.line,
    boundField, nameField, List.append_assoc, List.cons_append, List.nil_append]

theorem boundOfTree?_boundTree (bound : Option UInt64) :
    Setting.boundOfTree? (boundTree bound) = some (.maxOperations bound) := by
  cases bound with
  | none => rfl
  | some bound =>
      rw [boundTree, Setting.boundOfTree?, Json.integer?_numeral]
      show (if bound.toNat < 2 ^ 64 then some (Setting.maxOperations (some (.ofNat bound.toNat)))
        else none) = some (.maxOperations (some bound))
      rw [if_pos bound.toNat_lt, UInt64.ofNat_toNat]

def nameSettings (config : Config) : List Setting :=
  [.identityProperty config.identityProperty, .typeProperty config.typeProperty]

theorem ofFields?_nameFields (config : Config) :
    Setting.ofFields? (config.nameFields.map WrittenField.parts) = some config.nameSettings := by
  simp only [nameFields, List.map_cons, List.map_nil, WrittenField.parts, nameField,
    Setting.ofFields?, Piece.toString?_map_writtenPiece, Setting.ofField?, Setting.stringOfTree?]
  rfl

theorem ofFields?_boundField (bound : Option UInt64) (fields : List (List Piece × Tree)) :
    Setting.ofFields? ((boundField bound).parts :: fields) =
      (Setting.ofFields? fields).map (Setting.maxOperations bound :: ·) := by
  have hfield : Setting.ofField? "max_operations" (boundTree bound) =
      some [.maxOperations bound] := by
    rw [Setting.ofField?, if_pos rfl, boundOfTree?_boundTree, Option.map_some]
  simp only [WrittenField.parts, boundField, Setting.ofFields?, Piece.toString?_map_writtenPiece,
    hfield]
  cases Setting.ofFields? fields <;> rfl

theorem ofJsonText?_toJsonText (config : Config) :
    ofJsonText? config.toJsonText = some config := by
  rw [ofJsonText?, toList_toJsonText, WrittenField.ofText?_lines (List.cons_ne_nil _ _)]
  show (Setting.ofFields? _).bind ofSettings? = some config
  rw [List.map_cons, ofFields?_boundField, ofFields?_nameFields]
  rfl

theorem ofJsonText?_namesJsonText (config : Config) :
    ofJsonText? config.namesJsonText = some { config with maxOperations := some 10000 } := by
  have hne : config.nameFields ≠ [] := List.cons_ne_nil _ _
  rw [ofJsonText?, namesJsonText, String.toList_ofList, WrittenField.ofText?_lines hne]
  show (Setting.ofFields? _).bind ofSettings? = some { config with maxOperations := some 10000 }
  rw [ofFields?_nameFields]
  rfl

theorem ofText?_toJsonText (config : Config) :
    Json.ofText? config.toJsonText = some config.toJson := by
  have hbound : (boundTree config.maxOperations).toJson? =
      some (config.maxOperations.elim .null fun bound => .integer bound.toNat) := by
    cases config.maxOperations with
    | none => rfl
    | some bound =>
        rw [boundTree, Tree.toJson?, Json.toJson?_integerText]
        · rfl
        · have hlt := bound.toNat_lt
          rw [Json.isExactInteger, Bool.and_eq_true, decide_eq_true_eq, decide_eq_true_eq]
          omega
  rw [Json.ofText?, toList_toJsonText, WrittenField.ofText?_lines (List.cons_ne_nil _ _)]
  simp only [nameFields, List.map_cons, List.map_nil, WrittenField.parts, boundField, nameField,
    Tree.toJson?, Tree.toFields?, Piece.toString?_map_writtenPiece, hbound, Option.map_some]
  rfl

/-- The JSON text of a configuration is an object with a field for each part, null for a missing
bound, and gives back just the configuration. Without the field of the bound it has the default
bound instead. -/
theorem json_text_read_back (config : Config) :
    Json.ofText? config.toJsonText = some config.toJson ∧
    ofJsonText? config.toJsonText = some config ∧
    ofJsonText? config.namesJsonText = some { config with maxOperations := some 10000 } :=
  ⟨ofText?_toJsonText config, ofJsonText?_toJsonText config, ofJsonText?_namesJsonText config⟩

end ObjectQuery.Config
