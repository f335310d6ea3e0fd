import ObjectQuery.Operation.Basic
/-!
# Built-in operations

The ten operations that every query knows. A missing, null or empty selector argument means that
there is none.
-/

namespace ObjectQuery

inductive Builtin where
  | count
  | is
  | get
  | property
  | first
  | last
  | slice
  | unique
  | filter
  | children
  deriving DecidableEq

namespace Builtin

/-- All built-in operations, in the order in which they are registered. -/
def all : List Builtin :=
  [.count, .is, .get, .property, .first, .last, .slice, .unique, .filter, .children]

def name : Builtin → String
  | .count => "count"
  | .is => "is"
  | .get => "get"
  | .property => "property"
  | .first => "first"
  | .last => "last"
  | .slice => "slice"
  | .unique => "unique"
  | .filter => "filter"
  | .children => "children"

def isFinal : Builtin → Bool
  | .count => true
  | .is => true
  | .get => true
  | .property => true
  | _ => false

def selectorArgument (operation : String) (arguments : List Json) :
    Except Failure (Option String) :=
  match arguments.head? with
  | none => .ok none
  | some .null => .ok none
  | some (.string text) => .ok (if text = "" then none else some text)
  | some other => .error (.invalidArgument operation (.notASelector other))

/-- The integer in the argument at a position. A missing or null argument is none. -/
def indexArgument (operation : String) (arguments : List Json) (position : Nat) :
    Except Failure (Option Int64) :=
  match arguments[position]? with
  | none => .ok none
  | some .null => .ok none
  | some (.integer value) =>
      if Json.fitsInt64 value then .ok (some (Int64.ofInt value))
      else .error (.invalidArgument operation (.notAnInteger (.integer value)))
  | some other => .error (.invalidArgument operation (.notAnInteger other))

def pathArgument (operation : String) (arguments : List Json) : Except Failure String :=
  match arguments.head? with
  | some (.string path) =>
      if path = "" then .error (.invalidArgument operation .notAPath) else .ok path
  | _ => .error (.invalidArgument operation .notAPath)

def readSelector (text : String) : Except Failure Selector :=
  match Selector.parse text with
  | .ok selector => .ok selector
  | .error error => .error (.selector error)

def filterCall (selector : String) : Call :=
  ⟨"filter", [.string selector]⟩

/-- Filters first and then makes a call without arguments. -/
def filterThen (name selector : String) (frame : Frame) : Frame :=
  (frame.push ⟨name, []⟩).push (filterCall selector)

/-- The selector of `children` and the calls behind it: its own argument, or else that of a `filter`
that follows directly and is used up. -/
def childrenSelector (arguments : List Json) (pending : List Call) :
    Except Failure (String × List Call) := do
  match ← selectorArgument "children" arguments with
  | some text => return (text, pending)
  | none =>
      match pending with
      | [] => throw (.misuse .childrenAlone)
      | next :: rest =>
          if next.name = "filter" then
            match ← selectorArgument "filter" next.arguments with
            | some text => return (text, rest)
            | none => throw (.misuse .filterWithoutSelector)
          else throw (.misuse .childrenAlone)

def childrenParts (text : String) (selector : Selector) :
    Except Failure (String × List AttributeFilter) :=
  match selector.filters with
  | [] => .error (.misuse .childrenOfNothing)
  | [only] =>
      if only.isEmpty then .error (.misuse .childrenOfNothing)
      else
        match only.propertyName? with
        | some name => .ok (name, only.attributes)
        | none => .error (.misuse (.childrenOfNoName text))
  | _ => .error (.misuse .childrenOfSeveral)

/-- Steps into a property and queues the attribute filters, in source order. Of an empty context
nothing is asked. -/
def runChildren (arguments : List Json) (frame : Frame) :
    Except Failure (Option Outcome × Frame) :=
  if frame.context.isEmpty then .ok (none, frame)
  else do
    let (text, pending) ← childrenSelector arguments frame.pending
    let (name, attributes) ← childrenParts text (← readSelector text)
    return (none,
      { context := frame.context.children name
        pending := attributes.map (fun condition => filterCall condition.text) ++ pending })

/-- The effect of an operation on the frame, and its outcome if it gives one. -/
def run (config : Config) (arguments : List Json) (frame : Frame) :
    Builtin → Except Failure (Option Outcome × Frame)
  | .count => do
      match ← selectorArgument "count" arguments with
      | none => return (some (.count frame.context.length), frame)
      | some text => return (none, filterThen "count" text frame)
  | .is => do
      match ← selectorArgument "is" arguments with
      | none => return (some (.bool !frame.context.isEmpty), frame)
      | some text => return (none, filterThen "is" text frame)
  | .get => do
      match ← indexArgument "get" arguments 0 with
      | none => return (some (.objects frame.context), frame.withContext [])
      | some index => return (some (.object (frame.context.at? index)), frame)
  | .property => do
      let path ← pathArgument "property" arguments
      return (some (.object (frame.context.head?.bind (Json.propertyPath? path))), frame)
  | .first => return (none, frame.withContext (frame.context.take 1))
  | .last => return (none, frame.withContext frame.context.getLast?.toList)
  | .slice => do
      let start ← indexArgument "slice" arguments 0
      let stop ← indexArgument "slice" arguments 1
      return (none, frame.withContext (frame.context.slice start stop))
  | .unique => return (none, frame.withContext frame.context.unique)
  | .filter => do
      match ← selectorArgument "filter" arguments with
      | none => return (none, frame)
      | some text =>
          let kept ← frame.context.matching config (← readSelector text)
          return (none, frame.withContext kept)
  | .children => runChildren arguments frame

def priority : Int := 1

/-- The built-in as an operation, which accepts every context and records nothing. -/
def operation (builtin : Builtin) : Operation where
  name := builtin.name
  priority := priority
  isFinal := builtin.isFinal
  accepts := fun _ => true
  run := fun config arguments frame => .silent (builtin.run config arguments frame)

end Builtin

end ObjectQuery
