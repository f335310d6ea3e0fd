import ObjectQuery.Context
import ObjectQuery.Operation.Journal
/-!
# Operations

An operation has a name, a priority among the operations of that name, and a guard on the context.
While it runs it sees the working context and the queue of calls behind it, and may change both.
-/

namespace ObjectQuery

inductive Outcome where
  | objects (context : List Json)
  | object (value : Option Json)
  | count (n : Nat)
  | bool (value : Bool)

namespace Outcome

def kind : Outcome → ResultKind
  | .objects _ => .objects
  | .object _ => .object
  | .count _ => .count
  | .bool _ => .bool

end Outcome

/-- The working state of an evaluation: the context and the calls still to be made. -/
structure Frame where
  context : Context
  pending : List Call

namespace Frame

/-- Queues a call ahead of everything pending. -/
def push (call : Call) (frame : Frame) : Frame :=
  { frame with pending := call :: frame.pending }

def withContext (context : Context) (frame : Frame) : Frame :=
  { frame with context := context }

end Frame

/-- An implementation of an operation. A final operation forces evaluation when it is invoked. -/
structure Operation where
  name : String
  priority : Int
  isFinal : Bool
  accepts : Context → Bool
  run : Config → List Json → Frame → Report (Option Outcome × Frame)

end ObjectQuery
