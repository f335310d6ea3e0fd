import ObjectQuery.Operation.Basic
/-!
# Scripted operations

Operations described by data: a list of actions on the frame, then a fixed result. A scripted
operation records that it ran and whatever it looks at.
-/

namespace ObjectQuery

/-- One thing that a scripted operation does to the frame. -/
inductive Action where
  /-- Queues a call ahead of everything pending. -/
  | push (call : Call)
  /-- Does so only if the context has fewer objects than a number. -/
  | pushWhileShorter (length : Nat) (call : Call)
  /-- Removes the next call. -/
  | pop
  /-- Looks at the name of the next call. -/
  | peek
  /-- Looks at the context. -/
  | lookAtContext
  /-- Looks at the configuration. -/
  | lookAtConfig
  /-- Takes all objects out of the context. -/
  | take
  /-- Replaces the context. -/
  | replace (context : Context)
  /-- Adds an object at the end of the context. -/
  | append (object : Json)
  /-- Adds the arguments of the operation at the end of the context. -/
  | appendArguments

namespace Action

def perform (config : Config) (arguments : List Json) (frame : Frame) :
    Action → Frame × List JournalEntry
  | .push call => (frame.push call, [])
  | .pushWhileShorter length call =>
      (if frame.context.length < length then frame.push call else frame, [])
  | .pop => ({ frame with pending := frame.pending.tail }, [.popped frame.pending.head?])
  | .peek => (frame, [.peeked (frame.pending.head?.map (·.name))])
  | .lookAtContext => (frame, [.sawContext frame.context])
  | .lookAtConfig => (frame, [.sawConfig config])
  | .take => (frame.withContext [], [.took frame.context])
  | .replace context => (frame.withContext context, [])
  | .append object => (frame.withContext (frame.context ++ [object]), [])
  | .appendArguments => (frame.withContext (frame.context ++ arguments), [])

def performAll (config : Config) (arguments : List Json) :
    List Action → Frame → Frame × List JournalEntry
  | [], frame => (frame, [])
  | action :: rest, frame =>
      let (frame, entries) := action.perform config arguments frame
      let (frame, later) := performAll config arguments rest frame
      (frame, entries ++ later)

end Action

inductive Ending where
  | silent
  | outcome (outcome : Outcome)
  | misuse (message : String)
  | argumentFault (message : String)

/-- A scripted operation. It accepts contexts of at least `least` and at most `most` objects. -/
structure Script where
  name : String
  priority : Int
  isFinal : Bool
  least : Nat
  most : Option Nat
  actions : List Action
  ending : Ending

namespace Script

def conclude (name : String) (frame : Frame) : Ending → Except Failure (Option Outcome × Frame)
  | .silent => .ok (none, frame)
  | .outcome outcome => .ok (some outcome, frame)
  | .misuse message => .error (.misuse (.other message))
  | .argumentFault message => .error (.invalidArgument name (.other message))

def operation (script : Script) : Operation where
  name := script.name
  priority := script.priority
  isFinal := script.isFinal
  accepts := fun context =>
    script.least ≤ context.length && script.most.all fun most => context.length ≤ most
  run := fun config arguments frame =>
    let (after, entries) := Action.performAll config arguments script.actions frame
    ⟨conclude script.name after script.ending,
      .ran script.name arguments frame.context.length :: entries⟩

end Script

end ObjectQuery
