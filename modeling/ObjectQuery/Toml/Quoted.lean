import ObjectQuery.Text.Characters
import ObjectQuery.Text.Reader
/-!
# TOML strings

The four forms of quoted strings: basic ones with escapes and literal ones without, each on one line
or on several. A string that ends with three quotes may have up to two quotes before them.
-/

namespace ObjectQuery.Toml

/-- Whether a character may stand in a string or a comment: any but control characters other than
the tab. -/
def isPlain (c : Char) : Bool :=
  c == '\t' || (0x20 ≤ c.toNat && c.toNat != 0x7F)

def isSpace (c : Char) : Bool :=
  c == ' ' || c == '\t'

def startsBreak : List Char → Bool
  | '\n' :: _ => true
  | '\r' :: '\n' :: _ => true
  | _ => false

def escaped? : Char → Option Char
  | 'b' => some '\x08'
  | 't' => some '\t'
  | 'n' => some '\n'
  | 'f' => some '\x0c'
  | 'r' => some '\r'
  | '"' => some '"'
  | '\\' => some '\\'
  | _ => none

/-- The character with a hexadecimal code. Surrogates and larger codes are none. -/
def coded? (digits : List Char) : Option Char :=
  (Text.baseValue? 16 digits).bind fun code =>
    if code < 0xD800 ∨ (0xE000 ≤ code ∧ code < 0x110000) then some (Char.ofNat code) else none

def prepend (c : Option Char) (read : Option (List Char × List Char)) :
    Option (List Char × List Char) :=
  match c, read with
  | some c, some (text, rest) => some (c :: text, rest)
  | _, _ => none

def readBasic : Reader (List Char)
  | '"' :: rest => some ([], rest)
  | '\\' :: 'u' :: a :: b :: c :: d :: rest => prepend (coded? [a, b, c, d]) (readBasic rest)
  | '\\' :: 'U' :: a :: b :: c :: d :: e :: f :: g :: h :: rest =>
      prepend (coded? [a, b, c, d, e, f, g, h]) (readBasic rest)
  | '\\' :: c :: rest => prepend (escaped? c) (readBasic rest)
  | c :: rest => if isPlain c then prepend (some c) (readBasic rest) else none
  | [] => none

def readLiteral : Reader (List Char)
  | '\'' :: rest => some ([], rest)
  | c :: rest => if isPlain c then prepend (some c) (readLiteral rest) else none
  | [] => none

/-- The rest of a basic string on several lines. After a backslash at the end of a line, white space
is skipped up to the next character. -/
def readBasicLines (skipping : Bool) : Reader (List Char)
  | '"' :: '"' :: '"' :: '"' :: '"' :: rest => some (['"', '"'], rest)
  | '"' :: '"' :: '"' :: '"' :: rest => some (['"'], rest)
  | '"' :: '"' :: '"' :: rest => some ([], rest)
  | '\r' :: '\n' :: rest =>
      if skipping then readBasicLines true rest
      else prepend (some '\n') (readBasicLines false rest)
  | '\n' :: rest =>
      if skipping then readBasicLines true rest
      else prepend (some '\n') (readBasicLines false rest)
  | '\\' :: 'u' :: a :: b :: c :: d :: rest =>
      prepend (coded? [a, b, c, d]) (readBasicLines false rest)
  | '\\' :: 'U' :: a :: b :: c :: d :: e :: f :: g :: h :: rest =>
      prepend (coded? [a, b, c, d, e, f, g, h]) (readBasicLines false rest)
  | '\\' :: c :: rest =>
      if startsBreak ((c :: rest).dropWhile isSpace) then readBasicLines true (c :: rest)
      else prepend (escaped? c) (readBasicLines false rest)
  | c :: rest =>
      if skipping && isSpace c then readBasicLines true rest
      else if isPlain c then prepend (some c) (readBasicLines false rest)
      else none
  | [] => none

def readLiteralLines : Reader (List Char)
  | '\'' :: '\'' :: '\'' :: '\'' :: '\'' :: rest => some (['\'', '\''], rest)
  | '\'' :: '\'' :: '\'' :: '\'' :: rest => some (['\''], rest)
  | '\'' :: '\'' :: '\'' :: rest => some ([], rest)
  | '\r' :: '\n' :: rest => prepend (some '\n') (readLiteralLines rest)
  | '\n' :: rest => prepend (some '\n') (readLiteralLines rest)
  | c :: rest => if isPlain c then prepend (some c) (readLiteralLines rest) else none
  | [] => none

/-- The text after a line break that directly follows an opening quote. -/
def skipBreak : List Char → List Char
  | '\n' :: rest => rest
  | '\r' :: '\n' :: rest => rest
  | text => text

def readLine : Reader (List Char)
  | '"' :: rest => readBasic rest
  | '\'' :: rest => readLiteral rest
  | _ => none

def readString : Reader (List Char)
  | '"' :: '"' :: '"' :: rest => readBasicLines false (skipBreak rest)
  | '\'' :: '\'' :: '\'' :: rest => readLiteralLines (skipBreak rest)
  | text => readLine text

def hexDigit (n : Nat) : Char :=
  if n < 10 then Char.ofNat ('0'.toNat + n) else Char.ofNat ('A'.toNat + (n - 10))

def escapeChar (c : Char) : List Char :=
  if c = '"' then ['\\', '"']
  else if c = '\\' then ['\\', '\\']
  else if c = '\x08' then ['\\', 'b']
  else if c = '\t' then ['\\', 't']
  else if c = '\n' then ['\\', 'n']
  else if c = '\x0c' then ['\\', 'f']
  else if c = '\r' then ['\\', 'r']
  else if isPlain c then [c]
  else ['\\', 'u', '0', '0', hexDigit (c.toNat / 16), hexDigit (c.toNat % 16)]

/-- A basic string on one line, with its quotes. Every string has one. A writer that prefers several
lines where a string has line breaks, or a literal string where it has backslashes, writes another
text of the same string. -/
def quote (s : String) : List Char :=
  '"' :: s.toList.flatMap escapeChar ++ ['"']

end ObjectQuery.Toml
