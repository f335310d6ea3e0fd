/-!
# Configuration

The settings of a query: how much work one evaluation may do, and which properties of an object
hold its identifier and its type names.
-/

namespace ObjectQuery

/-- The settings of a query. Without a bound on operations an evaluation may run forever. -/
structure Config where
  maxOperations : Option UInt64 := some 10000
  identityProperty : String := "__identity"
  typeProperty : String := "__type"
  deriving DecidableEq

inductive ConfigFault where
  | zeroBound
  | emptyIdentityProperty
  | emptyTypeProperty
  deriving DecidableEq

namespace ConfigFault

def message : ConfigFault → String
  | .zeroBound => "max_operations must be positive"
  | .emptyIdentityProperty => "identity_property must not be empty"
  | .emptyTypeProperty => "type_property must not be empty"

end ConfigFault

namespace Config

/-- Accepts a configuration, or names the first of its faults. -/
def validate (config : Config) : Except ConfigFault Unit :=
  if config.maxOperations = some 0 then .error .zeroBound
  else if config.identityProperty = "" then .error .emptyIdentityProperty
  else if config.typeProperty = "" then .error .emptyTypeProperty
  else .ok ()

end Config

end ObjectQuery
