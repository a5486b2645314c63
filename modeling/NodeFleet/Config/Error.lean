/-!
# NodeFleet.Config.Error — what is wrong with a description of a fleet

`ConfigError` is the cause, `ConfigError.message` its wording.
-/

namespace NodeFleet

/-- Why a description of a fleet cannot be used. -/
inductive ConfigError where
  | invalid (reason : String)
  | noCredentials (host : String)
  deriving DecidableEq, Repr, Inhabited

/-- The wording of a fault. -/
def ConfigError.message : ConfigError → String
  | invalid reason => "invalid configuration: " ++ reason
  | noCredentials host => "host " ++ host ++ " has no usable credentials"

end NodeFleet
