import ObjectQuery.Peg.Basic
import ObjectQuery.Text.Reader
/-!
# Reading parsing expressions

The reader that a parsing expression denotes. Names of rules play no part.
-/

namespace ObjectQuery.Peg

variable {R : Type} {V : R → Type}

/-- Reads the value of an expression off the front of a text. -/
def read {α : Type} : Peg V α → Reader α
  | .satisfy test => Reader.satisfy test
  | .word fold expected => Reader.word fold expected
  | .run test => fun text => some (text.takeWhile test, text.dropWhile test)
  | .seq first second => fun text =>
      match first.read text with
      | none => none
      | some (x, middle) =>
          match second.read middle with
          | none => none
          | some (y, rest) => some ((x, y), rest)
  | .choice first second => fun text =>
      match first.read text with
      | some result => some result
      | none => second.read text
  | .optional item => fun text =>
      match item.read text with
      | some (x, rest) => some (some x, rest)
      | none => some (none, text)
  | .many item => Reader.many item.read
  | .map f item => fun text =>
      match item.read text with
      | some (x, rest) => some (f x, rest)
      | none => none
  | .consumed item => fun text =>
      match item.read text with
      | some (x, rest) => some ((Reader.consumed text rest, x), rest)
      | none => none
  | .named _ body => body.read

end ObjectQuery.Peg
