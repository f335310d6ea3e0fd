import ObjectQuery.Peg.Basic
import ObjectQuery.Selector.Basic
import ObjectQuery.Text.Characters
/-!
# The grammar of selectors

One parsing expression for each syntactic class of selectors. Choices are ordered: once a part has
been read as one class it is not read again as a later one.
-/

namespace ObjectQuery.Selector

/-- The rules whose results are remembered. -/
inductive Rule where
  | filter
  | path
  | identifierFilter
  | propertyName
  | attributeFilter
  | identifier
  | propertyPath
  | operand
  deriving DecidableEq, Hashable

abbrev Rule.Value : Rule → Type
  | .filter => Filter
  | .path => Path
  | .identifierFilter => String
  | .propertyName => String
  | .attributeFilter => AttributeFilter
  | .identifier => String
  | .propertyPath => String
  | .operand => Operand

abbrev Grammar (α : Type) := Peg Rule.Value α

def isNameStart (c : Char) : Bool :=
  c.isAlpha || c == '_'

def isNameChar (c : Char) : Bool :=
  c.isAlphanum || c == '_' || c == '-'

/-- Whether a character may stand in an operand without quotes. -/
def isBareChar (c : Char) : Bool :=
  !(c == '"' || c == '\'' || c == '[' || c == ']') && !Text.isBlank c

/-- The operand that a number denotes: an integer if it has no point and fits 64 bits, else the
nearest float. -/
def numberOperand (negative : Bool) (whole : List Char) (fraction : Option (List Char)) : Operand :=
  match fraction with
  | none =>
      let magnitude := Text.digitsValue whole
      let value : Int := if negative then -magnitude else magnitude
      if Json.fitsInt64 value then .integer (Int64.ofInt value)
      else .float (Binary64.ofDecimal negative magnitude 0)
  | some fraction =>
      .float (Binary64.ofDecimal negative (Text.digitsValue (whole ++ fraction))
        (-(fraction.length : Int)))

namespace Grammar

def blank : Grammar (List Char) :=
  .run Text.isBlank

def identifier : Grammar String :=
  .named Rule.identifier <|
    .map (fun (c, rest) => String.ofList (c :: rest)) <|
      .seq (.satisfy isNameStart) (.run isNameChar)

/-- Further segments of a path, each after a slash. A slash that no name follows is left. -/
def segments : Grammar (List String) :=
  .many (.dropLeft (.char '/') identifier)

/-- A path that starts with a slash, possibly without segments. -/
def absolutePath : Grammar Path :=
  .map (fun segments => ⟨segments.getD [], true⟩) <|
    .dropLeft (.char '/') <|
      .optional (.map (fun (first, rest) => first :: rest) (.seq identifier segments))

def relativePath : Grammar Path :=
  .map (fun (first, second, rest) => ⟨first :: second :: rest, false⟩) <|
    .seq identifier (.dropLeft (.char '/') (.seq identifier segments))

def path : Grammar Path :=
  .named Rule.path (.choice absolutePath relativePath)

def identifierFilter : Grammar String :=
  .named Rule.identifierFilter <|
    .dropLeft (.char '#') (.map String.ofList (.run1 isNameChar))

def propertyName : Grammar String :=
  .named Rule.propertyName identifier

def primary : Grammar Primary :=
  .oneOf (.map .path path) [.map .identifier identifierFilter, .map .propertyName propertyName]

def propertyPath : Grammar String :=
  .named Rule.propertyPath <|
    .map (fun (text, _) => String.ofList text) <|
      .consumed (.seq identifier (.many (.dropLeft (.char '.') identifier)))

/-- The characters of a string between two quotes. A backslash escapes that quote only. -/
def quoted (quote : Char) : Grammar (List Char) :=
  .dropLeft (.char quote) <|
    .dropRight
      (.many (.choice (.dropLeft (.char '\\') (.char quote)) (.satisfy (· != quote))))
      (.char quote)

def string : Grammar Operand :=
  .map (fun text => .string (String.ofList text)) (.choice (quoted '"') (quoted '\''))

def number : Grammar Operand :=
  .map (fun (sign, whole, fraction) => numberOperand sign.isSome whole fraction) <|
    .seq (.optional (.char '-')) <|
      .seq (.run1 Char.isDigit) (.optional (.dropLeft (.char '.') (.run1 Char.isDigit)))

def boolean : Grammar Operand :=
  .choice
    (.map (fun _ => .boolean true) (.word Char.toLower ['t', 'r', 'u', 'e']))
    (.map (fun _ => .boolean false) (.word Char.toLower ['f', 'a', 'l', 's', 'e']))

def unquoted : Grammar Operand :=
  .map (fun text => .unquoted (String.ofList text)) (.run1 isBareChar)

def operand : Grammar Operand :=
  .named Rule.operand (.oneOf string [number, boolean, unquoted])

def symbol (operator : Operator) : Grammar Operator :=
  .map (fun _ => operator) (.word id operator.symbol.toList)

def operator : Grammar Operator :=
  .oneOf (symbol (.instanceOf false)) (Operator.all.tail.map symbol)

/-- A type test of the object itself. -/
def instanceOfTest : Grammar AttributeTest :=
  .map (fun (operator, operand) => ⟨operator, operand⟩) <|
    .seq (.choice (symbol (.instanceOf false)) (symbol (.instanceOf true)))
      (.dropLeft blank (.dropRight (.choice string unquoted) blank))

def comparison : Grammar AttributeTest :=
  .map (fun (operator, operand) => ⟨operator, operand⟩) <|
    .seq operator (.dropLeft blank (.dropRight operand blank))

def propertyTest : Grammar (String × Option AttributeTest) :=
  .seq (.dropRight propertyPath blank) (.optional comparison)

/-- What stands between brackets: a test of the object itself, of a property, or nothing. -/
def condition : Grammar (Option String × Option AttributeTest) :=
  .choice
    (.map (fun test => (none, some test)) instanceOfTest)
    (.map
      (fun
        | some (path, test) => (some path, test)
        | none => (none, none))
      (.optional propertyTest))

def attributeFilter : Grammar AttributeFilter :=
  .named Rule.attributeFilter <|
    .map (fun (text, path, test) => ⟨path, test, String.ofList text⟩) <|
      .consumed <|
        .dropLeft (.seq (.char '[') blank) (.dropRight condition (.seq blank (.char ']')))

/-- One filter. It may be empty. -/
def filter : Grammar Filter :=
  .named Rule.filter <|
    .map (fun (primary, attributes) => ⟨primary, attributes⟩) <|
      .seq (.optional primary) (.many attributeFilter)

def comma : Grammar Unit :=
  .map (fun _ => ()) (.seq blank (.seq (.char ',') blank))

def selector : Grammar Selector :=
  .map (fun (first, rest) => ⟨first :: rest⟩) <|
    .seq filter (.many (.dropLeft comma filter))

end Grammar

end ObjectQuery.Selector
