import ObjectQuery.Text.Characters
import ObjectQuery.Text.Reader
/-!
# JSON syntax

JSON text read into a tree whose strings and numbers are not yet decoded. Text can be well formed
although some of its strings or numbers denote no value, and a reader that skips such a part has no
reason to refuse it.
-/

namespace ObjectQuery.Json

/-- A piece of a quoted string: a character, or a 16-bit code unit given by its number. -/
inductive Piece where
  | char (c : Char)
  | unit (code : Nat)

/-- A number as written. The fraction is empty if there is no decimal point. -/
structure Numeral where
  negative : Bool
  whole : List Char
  fraction : List Char
  exponent : Option Int

inductive Tree where
  | null
  | bool (value : Bool)
  | number (numeral : Numeral)
  | string (pieces : List Piece)
  | array (items : List Tree)
  | object (fields : List (List Piece × Tree))

namespace Tree

def isSpace (c : Char) : Bool :=
  c = ' ' || c = '\t' || c = '\n' || c = '\r'

def skipSpace (text : List Char) : List Char :=
  text.dropWhile isSpace

def escaped? : Char → Option Char
  | '"' => some '"'
  | '\\' => some '\\'
  | '/' => some '/'
  | 'b' => some '\x08'
  | 'f' => some '\x0c'
  | 'n' => some '\n'
  | 'r' => some '\r'
  | 't' => some '\t'
  | _ => none

/-- The rest of a quoted string, after its opening quote. -/
def readString : Reader (List Piece)
  | [] => none
  | '"' :: rest => some ([], rest)
  | '\\' :: 'u' :: a :: b :: c :: d :: rest =>
      match Text.baseValue? 16 [a, b, c, d], readString rest with
      | some code, some (pieces, rest) => some (.unit code :: pieces, rest)
      | _, _ => none
  | '\\' :: c :: rest =>
      match escaped? c, readString rest with
      | some value, some (pieces, rest) => some (.char value :: pieces, rest)
      | _, _ => none
  | c :: rest =>
      if c.toNat < 0x20 then none
      else
        match readString rest with
        | some (pieces, rest) => some (.char c :: pieces, rest)
        | none => none

def readWhole : Reader (List Char)
  | '0' :: rest =>
      match rest with
      | c :: _ => if c.isDigit then none else some (['0'], rest)
      | [] => some (['0'], [])
  | text => Reader.takeWhile1 Char.isDigit text

def readFraction : Reader (List Char)
  | '.' :: rest => Reader.takeWhile1 Char.isDigit rest
  | text => some ([], text)

def readPower : Reader Int
  | '-' :: rest =>
      (Reader.takeWhile1 Char.isDigit rest).map fun (run, rest) =>
        (-(Text.digitsValue run : Int), rest)
  | '+' :: rest =>
      (Reader.takeWhile1 Char.isDigit rest).map fun (run, rest) => (Text.digitsValue run, rest)
  | text =>
      (Reader.takeWhile1 Char.isDigit text).map fun (run, rest) => (Text.digitsValue run, rest)

def readExponent : Reader (Option Int)
  | c :: rest =>
      if c = 'e' ∨ c = 'E' then (readPower rest).map fun (power, rest) => (some power, rest)
      else some (none, c :: rest)
  | [] => some (none, [])

def readNumeral (text : List Char) : Option (Numeral × List Char) := do
  let (negative, text) :=
    match text with
    | '-' :: rest => (true, rest)
    | _ => (false, text)
  let (whole, text) ← readWhole text
  let (fraction, text) ← readFraction text
  let (exponent, text) ← readExponent text
  return (⟨negative, whole, fraction, exponent⟩, text)

mutual

/-- One value. Every step from a value to its parts uses one unit of fuel. -/
def readValue : Nat → Reader Tree
  | 0, _ => none
  | fuel + 1, text =>
      match skipSpace text with
      | '\x7b' :: rest =>
          match skipSpace rest with
          | '\x7d' :: rest => some (.object [], rest)
          | rest =>
              match readFields fuel rest with
              | some (fields, rest) => some (.object fields, rest)
              | none => none
      | '[' :: rest =>
          match skipSpace rest with
          | ']' :: rest => some (.array [], rest)
          | rest =>
              match readItems fuel rest with
              | some (items, rest) => some (.array items, rest)
              | none => none
      | '"' :: rest => Reader.map .string readString rest
      | 't' :: 'r' :: 'u' :: 'e' :: rest => some (.bool true, rest)
      | 'f' :: 'a' :: 'l' :: 's' :: 'e' :: rest => some (.bool false, rest)
      | 'n' :: 'u' :: 'l' :: 'l' :: rest => some (.null, rest)
      | text => Reader.map .number readNumeral text

def readItems : Nat → Reader (List Tree)
  | 0, _ => none
  | fuel + 1, text =>
      match readValue fuel text with
      | none => none
      | some (item, rest) =>
          match skipSpace rest with
          | ',' :: rest =>
              match readItems fuel rest with
              | some (items, rest) => some (item :: items, rest)
              | none => none
          | ']' :: rest => some ([item], rest)
          | _ => none

def readFields : Nat → Reader (List (List Piece × Tree))
  | 0, _ => none
  | fuel + 1, text =>
      match skipSpace text with
      | '"' :: rest =>
          match readString rest with
          | none => none
          | some (name, rest) =>
              match skipSpace rest with
              | ':' :: rest =>
                  match readValue fuel rest with
                  | none => none
                  | some (value, rest) =>
                      match skipSpace rest with
                      | ',' :: rest =>
                          match readFields fuel rest with
                          | some (fields, rest) => some ((name, value) :: fields, rest)
                          | none => none
                      | '\x7d' :: rest => some ([(name, value)], rest)
                      | _ => none
              | _ => none
      | _ => none

end

def ofText? (text : List Char) : Option Tree :=
  match readValue (2 * text.length + 2) text with
  | some (tree, rest) => if (skipSpace rest).isEmpty then some tree else none
  | none => none

end Tree

end ObjectQuery.Json
