/-!
# Parsing expressions

Expressions over characters with ordered choice and greedy repetition, each typed by the value it
reads. An expression is plain data: how it is read, with or without a table of earlier results, is
defined in other modules. Expressions that are worth remembering carry the name of a rule.
-/

namespace ObjectQuery

/-- A parsing expression for values of a type. `R` holds the names of rules and `V` gives the type
of the values of each rule. -/
inductive Peg {R : Type} (V : R → Type) : Type → Type 1 where
  /-- One character that satisfies a test. -/
  | satisfy (test : Char → Bool) : Peg V Char
  /-- As many characters as `expected` has, which `fold` makes equal to it. -/
  | word (fold : Char → Char) (expected : List Char) : Peg V Unit
  /-- The longest run of characters that satisfy a test, possibly empty. -/
  | run (test : Char → Bool) : Peg V (List Char)
  /-- The first expression, then the second one. -/
  | seq {α β : Type} (first : Peg V α) (second : Peg V β) : Peg V (α × β)
  /-- The first expression, or the second one where the first one fails. -/
  | choice {α : Type} (first second : Peg V α) : Peg V α
  /-- The expression if it succeeds, else nothing. -/
  | optional {α : Type} (item : Peg V α) : Peg V (Option α)
  /-- The expression as often as it succeeds. -/
  | many {α : Type} (item : Peg V α) : Peg V (List α)
  /-- The expression, with its value transformed. -/
  | map {α β : Type} (f : α → β) (item : Peg V α) : Peg V β
  /-- The expression, with the text it takes. -/
  | consumed {α : Type} (item : Peg V α) : Peg V (List Char × α)
  /-- The body of a named rule. -/
  | named (rule : R) (body : Peg V (V rule)) : Peg V (V rule)

namespace Peg

variable {R : Type} {V : R → Type} {α β : Type}

def char (c : Char) : Peg V Char :=
  .satisfy (· == c)

/-- At least one character that satisfies a test. -/
def run1 (test : Char → Bool) : Peg V (List Char) :=
  .map (fun (c, rest) => c :: rest) (.seq (.satisfy test) (.run test))

/-- Two expressions in sequence, of which the second one gives the value. -/
def dropLeft (first : Peg V α) (second : Peg V β) : Peg V β :=
  .map Prod.snd (.seq first second)

/-- Two expressions in sequence, of which the first one gives the value. -/
def dropRight (first : Peg V α) (second : Peg V β) : Peg V α :=
  .map Prod.fst (.seq first second)

def oneOf : Peg V α → List (Peg V α) → Peg V α
  | first, [] => first
  | first, second :: rest => .choice first (oneOf second rest)

end Peg

end ObjectQuery
