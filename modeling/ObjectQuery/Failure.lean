import ObjectQuery.Config.Basic
import ObjectQuery.Json.Text
import ObjectQuery.Selector.Parse
/-!
# Failures

The causes for which a query fails, and their wording.
-/

namespace ObjectQuery

inductive Misuse where
  | propertyNameOfObject
  | pathOfObject
  | childrenOfNothing
  | childrenOfSeveral
  | childrenOfNoName (selector : String)
  | childrenAlone
  | filterWithoutSelector
  | other (message : String)
  deriving DecidableEq

namespace Misuse

def message : Misuse → String
  | .propertyNameOfObject => "Property Name filter not supported for generic objects."
  | .pathOfObject => "Path filter not supported for generic objects."
  | .childrenOfNothing => "children() needs at least a Property Name filter specified."
  | .childrenOfSeveral =>
      "children() only supports a single filter group right now, i.e. nothing of the form "
        ++ "\"filter1, filter2\"."
  | .childrenOfNoName selector =>
      "children() needs a Property Name filter, got \"" ++ selector ++ "\"."
  | .childrenAlone =>
      "children() needs at least a Property Name filter specified, or must be followed by "
        ++ "filter()."
  | .filterWithoutSelector =>
      "filter() needs arguments if it follows an empty children(): children().filter()."
  | .other message => message

end Misuse

inductive ArgumentFault where
  | notASelector (got : Json)
  | notAnInteger (got : Json)
  | notAPath
  | other (message : String)

namespace ArgumentFault

def message : ArgumentFault → String
  | .notASelector got => "expected a selector string, got " ++ got.compact
  | .notAnInteger got => "expected an integer, got " ++ got.compact
  | .notAPath => "expects a non-empty property path"
  | .other message => message

end ArgumentFault

inductive ResultKind where
  | objects
  | object
  | count
  | bool
  | outcome
  | query
  deriving DecidableEq

namespace ResultKind

def name : ResultKind → String
  | .objects => "objects"
  | .object => "object"
  | .count => "count"
  | .bool => "bool"
  | .outcome => "outcome"
  | .query => "query"

end ResultKind

inductive Failure where
  | unknownOperation (name : String)
  | noApplicableOperation (name : String)
  | duplicatePriority (name : String) (priority : Int)
  | selector (error : Selector.SyntaxError)
  | misuse (cause : Misuse)
  | invalidArgument (operation : String) (fault : ArgumentFault)
  | unexpectedOutcome (operation : String) (expected actual : ResultKind)
  | operationLimitExceeded (limit : UInt64)
  | config (fault : ConfigFault)
  /-- An evaluation without a bound has no end. -/
  | unfinished

namespace Failure

def message : Failure → String
  | .unknownOperation name => "Unknown operation: " ++ name
  | .noApplicableOperation name =>
      "No operation \"" ++ name ++ "\" can evaluate the current context"
  | .duplicatePriority name priority =>
      "Operation \"" ++ name ++ "\" registered twice with priority "
        ++ String.ofList (Json.integerText priority)
  | .selector error => "Selector error: " ++ error.message
  | .misuse cause => cause.message
  | .invalidArgument operation fault =>
      "Invalid argument for " ++ operation ++ "(): " ++ fault.message
  | .unexpectedOutcome operation expected actual =>
      "Operation \"" ++ operation ++ "\" returned " ++ actual.name ++ ", expected "
        ++ expected.name
  | .operationLimitExceeded limit =>
      "Evaluation exceeded the limit of " ++ toString limit.toNat ++ " operations"
  | .config fault => "Invalid configuration: " ++ fault.message
  | .unfinished => "Evaluation did not end"

end Failure

end ObjectQuery
