import ObjectQuery.Toml.Quoted
import ObjectQuery.Toml.Table
import ObjectQuery.Toml.Token
/-!
# TOML documents

Reads a TOML text line by line into the entries of its root table. A text that breaks a rule of the
format is refused as a whole. Keys of many parts and deeply nested values are refused too, so that
every table has a bounded depth.
-/

namespace ObjectQuery.Toml

def skipSpace (text : List Char) : List Char :=
  text.dropWhile isSpace

/-- The text after white space, line breaks and comments. -/
def skipTrivia (inComment : Bool) : List Char → Option (List Char)
  | [] => some []
  | '\n' :: rest => skipTrivia false rest
  | '\r' :: '\n' :: rest => skipTrivia false rest
  | c :: rest =>
      if inComment then (if isPlain c then skipTrivia true rest else none)
      else if isSpace c then skipTrivia false rest
      else if c == '#' then skipTrivia true rest
      else some (c :: rest)

def endLine (inComment : Bool) : List Char → Option (List Char)
  | [] => some []
  | '\n' :: rest => some rest
  | '\r' :: '\n' :: rest => some rest
  | c :: rest =>
      if inComment then (if isPlain c then endLine true rest else none)
      else if isSpace c then endLine false rest
      else if c == '#' then endLine true rest
      else none

def isKeyChar (c : Char) : Bool :=
  c.isAlphanum || c == '_' || c == '-'

def readKeyPart (text : List Char) : Option (String × List Char) :=
  match text with
  | '"' :: _ => Reader.map String.ofList readLine text
  | '\'' :: _ => Reader.map String.ofList readLine text
  | _ => Reader.map String.ofList (Reader.takeWhile1 isKeyChar) text

/-- The greatest number of parts of a key, and of arrays and inline tables around a value. -/
def maxDepth : Nat := 79

/-- A key of at least one and at most `parts` parts, with white space around its points. -/
def readParts : Nat → Reader (List String)
  | 0, _ => none
  | parts + 1, text =>
      match readKeyPart (skipSpace text) with
      | none => none
      | some (part, rest) =>
          match skipSpace rest with
          | '.' :: rest => Reader.map (part :: ·) (readParts parts) rest
          | rest => some ([part], rest)

def readKey : Reader (List String) :=
  readParts maxDepth

def isTokenChar (c : Char) : Bool :=
  c.isAlphanum || c == '_' || c == '+' || c == '-' || c == '.' || c == ':'

/-- The longest scalar without quotes. A date takes a time of day behind one space. -/
def readToken (text : List Char) : List Char × List Char :=
  let token := text.takeWhile isTokenChar
  let rest := text.dropWhile isTokenChar
  match rest with
  | ' ' :: c :: _ =>
      if isDate token && c.isDigit then
        let behind := rest.drop 1
        (token ++ ' ' :: behind.takeWhile isTokenChar, behind.dropWhile isTokenChar)
      else (token, rest)
  | _ => (token, rest)

def scalar? (token : List Char) : Option Item :=
  match integer? token with
  | some i => some (.integer i)
  | none => if isBoolean token || isFloat token || isTime token then some .present else none

/-- The text after the items of an array and its closing bracket. Each item uses one unit of
fuel. -/
def readItems (read : Reader Item) : Nat → List Char → Option (List Char)
  | 0, _ => none
  | fuel + 1, text =>
      match skipTrivia false text with
      | none => none
      | some (']' :: rest) => some rest
      | some text =>
          match read text with
          | none => none
          | some (_, rest) =>
              match skipTrivia false rest with
              | some (']' :: rest) => some rest
              | some (',' :: rest) => readItems read fuel rest
              | _ => none

/-- The text after the fields of an inline table and its closing brace, at least one field. The
fields before it are those of `item`. Each field uses one unit of fuel. -/
def readFields (read : Reader Item) : Nat → Item → List Char → Option (List Char)
  | 0, _, _ => none
  | fuel + 1, item, text =>
      match readKey text with
      | some (keys, '=' :: rest) =>
          match read (skipSpace rest) with
          | none => none
          | some (value, rest) =>
              match Entries.addDotted keys value item with
              | none => none
              | some item =>
                  match skipSpace rest with
                  | '\x7d' :: rest => some rest
                  | ',' :: rest => readFields read fuel item rest
                  | _ => none
      | _ => none

def readArray (read : Reader Item) (text : List Char) : Option (List Char) :=
  readItems read (text.length + 1) text

def readInlineTable (read : Reader Item) (text : List Char) : Option (List Char) :=
  match skipSpace text with
  | '\x7d' :: rest => some rest
  | text => readFields read (text.length + 1) (.table .header []) text

def readScalar (text : List Char) : Option (Item × List Char) :=
  let (token, rest) := readToken text
  (scalar? token).map fun item => (item, rest)

/-- One value, with arrays and inline tables nested at most `levels` deep. -/
def readNested (levels : Nat) : Reader Item
  | '"' :: rest => Reader.map (fun s => .string (String.ofList s)) readString ('"' :: rest)
  | '\'' :: rest => Reader.map (fun s => .string (String.ofList s)) readString ('\'' :: rest)
  | '[' :: rest =>
      match levels with
      | 0 => none
      | levels + 1 => (readArray (readNested levels) rest).map fun rest => (.present, rest)
  | '\x7b' :: rest =>
      match levels with
      | 0 => none
      | levels + 1 => (readInlineTable (readNested levels) rest).map fun rest => (.present, rest)
  | text => readScalar text

def readValue : Reader Item :=
  readNested maxDepth

inductive Line where
  | header (keys : List String)
  | listHeader (keys : List String)
  | entry (keys : List String) (value : Item)

def readLineOf : Reader Line
  | '[' :: '[' :: rest =>
      match readKey rest with
      | some (keys, ']' :: ']' :: rest) => some (.listHeader keys, rest)
      | _ => none
  | '[' :: rest =>
      match readKey rest with
      | some (keys, ']' :: rest) => some (.header keys, rest)
      | _ => none
  | text =>
      match readKey text with
      | some (keys, '=' :: rest) => Reader.map (.entry keys) readValue (skipSpace rest)
      | _ => none

/-- Adds a line to the root table. Entries go to the table of the latest header. -/
def addLine (current : List String) (root : Item) : Line → Option (List String × Item)
  | .header keys => (Entries.addTable keys root).map fun root => (keys, root)
  | .listHeader keys => (Entries.addToList keys root).map fun root => (keys, root)
  | .entry keys value =>
      (Entries.descend .implied (fun _ => true) (Entries.addDotted keys value) current root).map
        fun root => (current, root)

def readLines : Nat → List String → Item → List Char → Option Item
  | 0, _, _, _ => none
  | fuel + 1, current, root, text =>
      match skipTrivia false text with
      | none => none
      | some [] => some root
      | some text =>
          match readLineOf text with
          | none => none
          | some (line, rest) =>
              match endLine false rest, addLine current root line with
              | some rest, some (current, root) => readLines fuel current root rest
              | _, _ => none

/-- The entries of a document. A byte order mark in front is skipped. -/
def document? (text : String) : Option Entries :=
  let chars :=
    match text.toList with
    | '\uFEFF' :: rest => rest
    | chars => chars
  match readLines (chars.length + 1) [] (.table .header []) chars with
  | some (.table _ entries) => some entries
  | _ => none

end ObjectQuery.Toml
