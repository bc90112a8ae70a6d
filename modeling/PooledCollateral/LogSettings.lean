/-
PooledCollateral.LogSettings — the settings of logs, from variables.

Two switches are read from words: the console is on unless its variable says
`false` or `0`, and structured logs are on if theirs says `true` or `1`; without
a word they are on inside a container. The words count in any case of letters.
-/
import PooledCollateral.Environment

namespace PooledCollateral

/-- The settings of logs. -/
structure LogSettings where
  /-- The name that every line carries. -/
  serviceName : String
  level : String
  /-- Whether lines go to the console. -/
  console : Bool
  /-- Whether lines are structured. -/
  structured : Bool
  deriving DecidableEq

namespace LogSettings

/-- The name of a service that is given no other. -/
def standardName : String := "collateral-pool"

/-- Whether a word is `false` in any case of letters, or `0`. -/
def isOff (word : String) : Bool := word.toLower = "false" || word = "0"

/-- Whether a word is `true` in any case of letters, or `1`. -/
def isOn (word : String) : Bool := word.toLower = "true" || word = "1"

/-- Whether the environment is that of a container. -/
def inContainer (env : Environment) : Bool :=
  (env.text? "KUBERNETES_SERVICE_HOST").isSome || (env.text? "DOCKER_CONTAINER").isSome

/-- The settings that the environment asks for. -/
def ofEnvironment (env : Environment) : LogSettings where
  serviceName := (env.text? "POOL_SERVICE_NAME").getD standardName
  level := ((env.text? "POOL_LOG_LEVEL").or (env.text? "RUST_LOG")).getD "info"
  console := ((env.text? "POOL_CONSOLE_OUTPUT").map fun word => !isOff word).getD true
  structured := ((env.text? "POOL_JSON_LOGS").map isOn).getD (inContainer env)

/-- The settings for one pool, which carries its own name. -/
def forPool (env : Environment) (pool : String) : LogSettings :=
  { ofEnvironment env with serviceName := standardName ++ "-" ++ pool }

end LogSettings

end PooledCollateral
