import ObjectQuery.Operation.Builtin
/-!
# Registries

A registry holds the operations that queries may call, together with their configuration. Several
operations may share a name if their priorities differ; a call goes to the one of highest priority
that accepts the context.
-/

namespace ObjectQuery

/-- Operations in descending order of priority, and a configuration. -/
structure Registry where
  operations : List Operation
  config : Config

/-- A registry under construction: operations in the order of their registration. -/
structure Registry.Draft where
  operations : List Operation := []
  config : Config := {}

namespace Registry

namespace Draft

/-- Adds an operation. No two operations share both name and priority. -/
def register (operation : Operation) (draft : Draft) : Except Failure Draft :=
  let clashes (other : Operation) : Bool :=
    other.name == operation.name && other.priority == operation.priority
  if draft.operations.any clashes then
    .error (.duplicatePriority operation.name operation.priority)
  else .ok { draft with operations := draft.operations ++ [operation] }

def registerAll : List Operation → Draft → Except Failure Draft
  | [], draft => .ok draft
  | operation :: rest, draft =>
      match draft.register operation with
      | .error failure => .error failure
      | .ok draft => draft.registerAll rest

def registerBuiltins (draft : Draft) : Except Failure Draft :=
  draft.registerAll (Builtin.all.map Builtin.operation)

/-- Checks the configuration and fixes the order of the operations. -/
def build (draft : Draft) : Except Failure Registry :=
  match draft.config.validate with
  | .error fault => .error (.config fault)
  | .ok () =>
      .ok ⟨draft.operations.mergeSort fun x y => y.priority ≤ x.priority, draft.config⟩

end Draft

def withBuiltins : Except Failure Registry :=
  match ({} : Draft).registerBuiltins with
  | .error failure => .error failure
  | .ok draft => draft.build

/-- The operations of a name, highest priority first. -/
def candidates (registry : Registry) (name : String) : List Operation :=
  registry.operations.filter (·.name == name)

def isFinal (registry : Registry) (name : String) : Bool :=
  (registry.candidates name).any (·.isFinal)

def has (registry : Registry) (name : String) : Bool :=
  !(registry.candidates name).isEmpty

/-- The operation that a call reaches in a context. -/
def resolve (registry : Registry) (name : String) (context : Context) :
    Except Failure Operation :=
  match registry.candidates name with
  | [] => .error (.unknownOperation name)
  | candidates =>
      match candidates.find? (·.accepts context) with
      | some operation => .ok operation
      | none => .error (.noApplicableOperation name)

def priorities (registry : Registry) (name : String) : List Int :=
  (registry.candidates name).map (·.priority)

/-- Puts a name at its place in an ascending list, unless it is there. -/
def insertName (name : String) : List String → List String
  | [] => [name]
  | other :: rest =>
      if name = other then other :: rest
      else if name < other then name :: other :: rest
      else other :: insertName name rest

def operationNames (registry : Registry) : List String :=
  registry.operations.foldr (fun operation names => insertName operation.name names) []

end Registry

end ObjectQuery
