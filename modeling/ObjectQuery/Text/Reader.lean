/-!
# Readers

A reader takes a value off the front of a text and leaves the rest, or fails. The text is a list of
characters, so that every position is a suffix and every length counts characters.
-/

namespace ObjectQuery

/-- A function that reads a value and returns it with the unread text. -/
abbrev Reader (α : Type) := List Char → Option (α × List Char)

namespace Reader

def map {α β : Type} (f : α → β) (read : Reader α) : Reader β :=
  fun text => (read text).map fun (value, rest) => (f value, rest)

def satisfy (test : Char → Bool) : Reader Char
  | [] => none
  | c :: rest => if test c then some (c, rest) else none

def takeWhile1 (test : Char → Bool) : Reader (List Char) :=
  fun text =>
    match text.takeWhile test with
    | [] => none
    | c :: run => some (c :: run, text.dropWhile test)

/-- Reads a word, up to a folding of its characters. -/
def word (fold : Char → Char) : List Char → Reader Unit
  | [], text => some ((), text)
  | _ :: _, [] => none
  | c :: expected, d :: rest => if fold d = c then word fold expected rest else none

/-- Repeats a reader as often as it succeeds. A round that reads nothing is a failure, so every
round shortens the text. -/
def many {α : Type} (read : Reader α) (text : List Char) : Option (List α × List Char) :=
  match read text with
  | none => some ([], text)
  | some (value, rest) =>
      if rest.length < text.length then
        match many read rest with
        | some (values, last) => some (value :: values, last)
        | none => none
      else none
termination_by text.length

/-- The part of `text` in front of its suffix `rest`. -/
def consumed (text rest : List Char) : List Char :=
  text.take (text.length - rest.length)

end Reader

end ObjectQuery
