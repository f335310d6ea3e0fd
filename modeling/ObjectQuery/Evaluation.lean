import ObjectQuery.Operation.Registry
/-!
# Evaluation

An evaluation makes the calls of a queue one after another. Operations may queue further calls, so
the configuration bounds how many are made: the bound is checked before each call. Without a bound,
an evaluation need not end.
-/

namespace ObjectQuery

/-- The state between two calls: the frame, the outcome of the latest operation, the number of calls
made, and the journal with its latest entry first. -/
structure Progress where
  frame : Frame
  outcome : Option Outcome
  executed : Nat
  journal : List JournalEntry

/-- The end of an evaluation. The calls made include the one that failed. -/
structure Evaluation where
  result : Except Failure (Context × Option Outcome)
  executed : Nat
  journal : List JournalEntry

namespace Evaluation

def exhausts (config : Config) (executed : Nat) : Option UInt64 :=
  config.maxOperations.filter fun limit => limit.toNat ≤ executed

def start (context : Context) (calls : List Call) : Progress :=
  ⟨⟨context, calls⟩, none, 0, []⟩

def finish (progress : Progress) (result : Except Failure (Context × Option Outcome)) :
    Evaluation :=
  ⟨result, progress.executed, progress.journal.reverse⟩

/-- Makes one call, with the rest of the queue behind it. If the call fails the evaluation ends. -/
def step (registry : Registry) (call : Call) (rest : List Call) (progress : Progress) :
    Except Evaluation Progress :=
  let progress := { progress with executed := progress.executed + 1 }
  match registry.resolve call.name progress.frame.context with
  | .error failure => .error (finish progress (.error failure))
  | .ok operation =>
      let report := operation.run registry.config call.arguments ⟨progress.frame.context, rest⟩
      let progress := { progress with journal := report.journal.reverse ++ progress.journal }
      match report.result with
      | .error failure => .error (finish progress (.error failure))
      | .ok (outcome, frame) => .ok { progress with frame := frame, outcome := outcome }

/-- Makes the next call of the queue. The evaluation ends instead if no call is left or the bound is
reached. -/
def advance (registry : Registry) (progress : Progress) : Except Evaluation Progress :=
  match progress.frame.pending with
  | [] => .error (finish progress (.ok (progress.frame.context, progress.outcome)))
  | call :: rest =>
      match exhausts registry.config progress.executed with
      | some limit => .error (finish progress (.error (.operationLimitExceeded limit)))
      | none => step registry call rest progress

inductive Reaches (registry : Registry) : Progress → Progress → Prop
  | refl (progress : Progress) : Reaches registry progress progress
  | step {first second last : Progress} (made : advance registry first = .ok second)
      (reaches : Reaches registry second last) : Reaches registry first last

theorem Reaches.next {registry : Registry} {first last next : Progress}
    (h : Reaches registry first last) (made : advance registry last = .ok next) :
    Reaches registry first next := by
  induction h with
  | refl => exact .step made (.refl next)
  | step first _ ih => exact .step first (ih made)

def EndsWith (registry : Registry) (first : Progress) (evaluation : Evaluation) : Prop :=
  ∃ last, Reaches registry first last ∧ advance registry last = .error evaluation

/-- What is found of the end of an evaluation. An evaluation without end has none to find. -/
structure Ending (registry : Registry) (first : Progress) where
  found : Option Evaluation
  endsWith : ∀ evaluation ∈ found, EndsWith registry first evaluation

instance (registry : Registry) (first : Progress) : Nonempty (Ending registry first) :=
  ⟨⟨none, nofun⟩⟩

def proceed (registry : Registry) (first : Progress)
    (progress : { progress // Reaches registry first progress }) :
    Id ({ progress // Reaches registry first progress } ⊕ Ending registry first) :=
  match made : advance registry progress with
  | .error evaluation =>
      have ends : EndsWith registry first evaluation := ⟨progress, progress.2, made⟩
      .inr ⟨some evaluation, fun _ same => Option.some.inj same ▸ ends⟩
  | .ok next => .inl ⟨next, progress.2.next made⟩

/-- Makes calls until the evaluation ends, which it need not do. -/
def drain (registry : Registry) (first : Progress) : Option Evaluation :=
  (repeatM (proceed registry first) ⟨first, .refl first⟩).run.found

def run (registry : Registry) (context : Context) (calls : List Call) : Evaluation :=
  match drain registry (start context calls) with
  | some evaluation => evaluation
  | none => ⟨.error .unfinished, 0, []⟩

end Evaluation

end ObjectQuery
