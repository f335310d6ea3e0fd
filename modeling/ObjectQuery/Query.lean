import ObjectQuery.Evaluation
/-!
# Queries

A query is a context with a queue of calls that are not made yet. Invoking an operation gives a new
query with a longer queue, unless the operation is final: then the queue is evaluated at once. A
query never changes; what would change it gives a new one.
-/

namespace ObjectQuery

/-- A context, the calls waiting to be made in it, and the operations they may reach. -/
structure Query where
  registry : Registry
  context : Context
  pending : List Call

/-- What an invocation gives: a longer query, or the outcome of a final operation. -/
inductive Invocation where
  | deferred (query : Query)
  | completed (outcome : Outcome)

namespace Invocation

def query (operation : String) : Invocation → Except Failure Query
  | .deferred query => .ok query
  | .completed outcome => .error (.unexpectedOutcome operation .query outcome.kind)

def outcome (operation : String) : Invocation → Except Failure Outcome
  | .completed outcome => .ok outcome
  | .deferred _ => .error (.unexpectedOutcome operation .outcome .query)

end Invocation

def Registry.query (registry : Registry) (context : Context) : Query :=
  ⟨registry, context, []⟩

namespace Query

def evaluate (query : Query) (calls : List Call) : Report (Context × Option Outcome) :=
  let evaluation := Evaluation.run query.registry query.context calls
  ⟨evaluation.result, evaluation.journal⟩

/-- Invokes an operation by name. Whether the name is known shows only in evaluation. -/
def invoke (query : Query) (name : String) (arguments : List Json) : Report Invocation :=
  let calls := query.pending ++ [⟨name, arguments⟩]
  if query.registry.isFinal name then
    (query.evaluate calls).andThen fun (context, outcome) =>
      .ok (.completed (outcome.getD (.objects context)))
  else .silent (.ok (.deferred { query with pending := calls }))

def chain (query : Query) (name : String) (arguments : List Json) : Report Query :=
  (query.invoke name arguments).andThen (Invocation.query name)

def complete (query : Query) (name : String) (arguments : List Json) : Report Outcome :=
  (query.invoke name arguments).andThen (Invocation.outcome name)

def selectorArguments (selector : String) : List Json :=
  if selector = "" then [] else [.string selector]

def filter (query : Query) (selector : String) : Report Query :=
  query.chain "filter" [.string selector]

/-- Steps into a property of every object. An empty selector takes that of the `filter` that follows
directly. -/
def children (query : Query) (selector : String) : Report Query :=
  query.chain "children" (selectorArguments selector)

def first (query : Query) : Report Query :=
  query.chain "first" []

def last (query : Query) : Report Query :=
  query.chain "last" []

def unique (query : Query) : Report Query :=
  query.chain "unique" []

def indexJson (index : Int64) : Json :=
  .integer index.toInt

def sliceArguments (start stop : Option Int64) : List Json :=
  match start, stop with
  | none, none => []
  | some start, none => [indexJson start]
  | none, some stop => [.null, indexJson stop]
  | some start, some stop => [indexJson start, indexJson stop]

def slice (query : Query) (start stop : Option Int64) : Report Query :=
  query.chain "slice" (sliceArguments start stop)

def count (query : Query) : Report Nat :=
  (query.complete "count" []).andThen fun
    | .count n => .ok n
    | other => .error (.unexpectedOutcome "count" .count other.kind)

/-- Whether an object matches a selector, or, for an empty selector, whether there is one. -/
def is (query : Query) (selector : String) : Report Bool :=
  (query.complete "is" (selectorArguments selector)).andThen fun
    | .bool value => .ok value
    | other => .error (.unexpectedOutcome "is" .bool other.kind)

def getAll (query : Query) : Report Context :=
  (query.complete "get" []).andThen fun
    | .objects context => .ok context
    | other => .error (.unexpectedOutcome "get" .objects other.kind)

def get (query : Query) (index : Int64) : Report (Option Json) :=
  (query.complete "get" [indexJson index]).andThen fun
    | .object value => .ok value
    | other => .error (.unexpectedOutcome "get" .object other.kind)

/-- The value at a dotted path of the first object. -/
def property (query : Query) (path : String) : Report (Option Json) :=
  (query.complete "property" [.string path]).andThen fun
    | .object value => .ok value
    | other => .error (.unexpectedOutcome "property" .object other.kind)

/-- The query after its pending calls. A query without any is not evaluated. -/
def materialize (query : Query) : Report Query :=
  if query.pending.isEmpty then .silent (.ok query)
  else
    (query.evaluate query.pending).andThen fun (context, _) =>
      .ok { query with context := context, pending := [] }

def toContext (query : Query) : Report Context :=
  query.materialize.andThen fun query => .ok query.context

/-- A new query over the objects that a query leads to. -/
def wrap (query : Query) : Report Query :=
  query.toContext.andThen fun context => .ok (query.registry.query context)

end Query

end ObjectQuery
