import ObjectQuery.Proofs.Evaluation.Filtering
import ObjectQuery.Proofs.Evaluation.Termination
import ObjectQuery.Proofs.Interchange
/-!
# Repetitions and filters

A repeated object neither adds a match nor changes one, unless a test of texts sees the sign of a
zero in it. So `unique` and `filter` can change places.
-/

namespace ObjectQuery.Evaluation

open Builtin

def filtered (config : Config) (text : String) (context : Context) : Except Failure Context :=
  match Selector.parse text with
  | .error error => .error (.selector error)
  | .ok selector => context.matching config selector

variable {config : Config} {text : String} {progress : Progress} {rest : List Call}

def positiveZero : Json :=
  .object [("a", .float (.zero false))]

def negativeZero : Json :=
  .object [("a", .float (.zero true))]

def signed : Filter :=
  ⟨none, [⟨some "a", some ⟨.startsWith false, .string "-"⟩, "[a^='-']"⟩]⟩

end ObjectQuery.Evaluation
