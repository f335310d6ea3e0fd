import ObjectQuery.Failure
/-!
# Journals

What operations record while they run. The entries of an evaluation are kept also if it fails.
-/

namespace ObjectQuery

structure Call where
  name : String
  arguments : List Json

inductive JournalEntry where
  | ran (name : String) (arguments : List Json) (contextLength : Nat)
  | popped (call : Option Call)
  | peeked (name : Option String)
  | sawContext (context : List Json)
  | sawConfig (config : Config)
  | took (context : List Json)

/-- A result together with what was recorded on the way to it. -/
structure Report (α : Type) where
  result : Except Failure α
  journal : List JournalEntry

namespace Report

def silent {α : Type} (result : Except Failure α) : Report α :=
  ⟨result, []⟩

def andThen {α β : Type} (report : Report α) (next : α → Except Failure β) : Report β :=
  ⟨report.result.bind next, report.journal⟩

end Report

end ObjectQuery
