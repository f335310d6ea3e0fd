import ObjectQuery.Selector.Grammar
import ObjectQuery.Peg.Packrat
/-!
# Reading selectors

A text is a selector if the grammar takes all of it. Otherwise the error names the first character
that the grammar does not take.
-/

namespace ObjectQuery.Selector

/-- A text that is not a selector. The position counts characters from one. -/
structure SyntaxError where
  selector : String
  position : Nat
  deriving DecidableEq

namespace SyntaxError

/-- The error of a selector of which `rest` was not read. -/
def stoppedAt (selector : String) (rest : List Char) : SyntaxError :=
  ⟨selector, selector.toList.length - rest.length + 1⟩

def message (error : SyntaxError) : String :=
  "The selector \"" ++ error.selector ++ "\" could not be parsed. Error at character "
    ++ toString error.position ++ "."

end SyntaxError

def parse (text : String) : Except SyntaxError Selector :=
  match (Grammar.selector.readWith text.toList text.toList ∅).1 with
  | some (selector, []) => .ok selector
  | some (_, c :: rest) => .error (.stoppedAt text (c :: rest))
  | none => .error (.stoppedAt text text.toList)

end ObjectQuery.Selector
