import ObjectQuery.Config.Basic
/-!
# Settings

A configuration given by single settings, each at most once; what is not given has its default.
-/

namespace ObjectQuery

/-- The value of one part of a configuration. -/
inductive Setting where
  | maxOperations (bound : Option UInt64)
  | identityProperty (name : String)
  | typeProperty (name : String)

namespace Setting

def samePart : Setting → Setting → Bool
  | .maxOperations _, .maxOperations _ => true
  | .identityProperty _, .identityProperty _ => true
  | .typeProperty _, .typeProperty _ => true
  | _, _ => false

def apply (config : Config) : Setting → Config
  | .maxOperations bound => { config with maxOperations := bound }
  | .identityProperty name => { config with identityProperty := name }
  | .typeProperty name => { config with typeProperty := name }

end Setting

/-- The configuration with the given settings, if none is given twice. -/
def Config.ofSettings? : List Setting → Option Config
  | [] => some {}
  | setting :: rest =>
      if rest.any setting.samePart then none
      else (ofSettings? rest).map fun config => setting.apply config

end ObjectQuery
