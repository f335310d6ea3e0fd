import ObjectQuery.Peg.Basic
import ObjectQuery.Text.Reader
import Std.Data.DHashMap.Basic
/-!
# Reading with a table

Reads a parsing expression and remembers the result of every named rule at every offset of one
source text, failures included, so that no rule is read twice at one place.
-/

namespace ObjectQuery.Peg

variable {R : Type} {V : R → Type} [DecidableEq R] [Hashable R]

/-- The offset in a source text at which a suffix of it starts, in characters. -/
def offset (source text : List Char) : Nat :=
  source.length - text.length

/-- What is kept of a read: where it stopped and its value, or nothing if it failed. -/
abbrev Entry (α : Type) := Option (Nat × α)

namespace Entry

def ofResult {α : Type} (source : List Char) (result : Option (α × List Char)) : Entry α :=
  result.map fun (value, rest) => (offset source rest, value)

def toResult {α : Type} (source : List Char) (entry : Entry α) : Option (α × List Char) :=
  entry.map fun (stop, value) => (value, source.drop stop)

end Entry

/-- Entries by rule and offset. A table belongs to one source text. -/
abbrev Table (V : R → Type) :=
  Std.DHashMap (R × Nat) fun key => Entry (V key.1)

abbrev TableReader (V : R → Type) (α : Type) :=
  List Char → Table V → Option (α × List Char) × Table V

/-- Repeats a reader as often as it succeeds, as `Reader.many` does. -/
def manyWith {α : Type} (read : TableReader V α) (text : List Char) (table : Table V) :
    Option (List α × List Char) × Table V :=
  match read text table with
  | (none, table) => (some ([], text), table)
  | (some (value, rest), table) =>
      if rest.length < text.length then
        match manyWith read rest table with
        | (some (values, last), table) => (some (value :: values, last), table)
        | (none, table) => (none, table)
      else (none, table)
termination_by text.length

/-- Reads a suffix of a source text with a table for that source. -/
def readWith (source : List Char) {α : Type} : Peg V α → TableReader V α
  | .satisfy test => fun text table => (Reader.satisfy test text, table)
  | .word fold expected => fun text table => (Reader.word fold expected text, table)
  | .run test => fun text table => (some (text.takeWhile test, text.dropWhile test), table)
  | .seq first second => fun text table =>
      match first.readWith source text table with
      | (none, table) => (none, table)
      | (some (x, middle), table) =>
          match second.readWith source middle table with
          | (none, table) => (none, table)
          | (some (y, rest), table) => (some ((x, y), rest), table)
  | .choice first second => fun text table =>
      match first.readWith source text table with
      | (some result, table) => (some result, table)
      | (none, table) => second.readWith source text table
  | .optional item => fun text table =>
      match item.readWith source text table with
      | (some (x, rest), table) => (some (some x, rest), table)
      | (none, table) => (some (none, text), table)
  | .many item => manyWith (item.readWith source)
  | .map f item => fun text table =>
      match item.readWith source text table with
      | (some (x, rest), table) => (some (f x, rest), table)
      | (none, table) => (none, table)
  | .consumed item => fun text table =>
      match item.readWith source text table with
      | (some (x, rest), table) => (some ((Reader.consumed text rest, x), rest), table)
      | (none, table) => (none, table)
  | .named rule body => fun text table =>
      let key := (rule, offset source text)
      match table.get? key with
      | some entry => (Entry.toResult source entry, table)
      | none =>
          match body.readWith source text table with
          | (result, table) => (result, table.insert key (.ofResult source result))

end ObjectQuery.Peg
