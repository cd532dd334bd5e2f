/-
Limits of scripts and runs, as the environment sets them.

Each limit is read from an environment variable whose name begins with a word that the host chooses.
A variable that is not set, or does not hold a number of 64 bits, leaves the limit at its default.
-/
import Conveyor.Decimal.Read
import Conveyor.Json.Value
import Conveyor.Text.Blank

set_option autoImplicit false

namespace Conveyor

/-- The configuration of an engine (`ExecutionConfig`). -/
structure Config where
  /-- The budget of a script, in seconds. -/
  scriptTimeout : Nat := 180
  /-- How long a shutdown waits for runs to end, in seconds. -/
  shutdownGrace : Nat := 30
  /-- The most entries that a run takes from its stack. -/
  maxIterations : Nat := 100000
  logLevel : String := "info"
  deriving DecidableEq

namespace Config

/-- A number of 64 bits, with blanks around it and a plus sign in front of it if need be
(`env_or`). -/
def limit? (raw : String) : Option Nat :=
  let digits := match Text.trim raw.toList with
    | '+' :: cs => cs
    | cs => cs
  (Decimal.natOfText? (String.ofList digits)).filter (· < 2 ^ (64 : Nat))

/-- The configuration of an environment (`ExecutionConfig::default`). -/
def ofEnvironment (scope : String) (env : Named String) : Config :=
  let limit (name : String) (fallback : Nat) : Nat :=
    ((env.get? (scope ++ name)).bind limit?).getD fallback
  { scriptTimeout := limit "SCRIPT_TIMEOUT_SECS" 180
    shutdownGrace := limit "SHUTDOWN_GRACE_SECS" 30
    maxIterations := limit "MAX_STACK_ITERATIONS" 100000
    logLevel := (env.get? (scope ++ "LOG")).getD "info" }

/-- The budget of a script, in milliseconds (`ExecutionConfig::script_timeout`). -/
def scriptTimeoutMillis (c : Config) : Nat := c.scriptTimeout * 1000

/-- How long a shutdown waits for runs to end, in milliseconds
(`ExecutionConfig::shutdown_grace`). -/
def shutdownGraceMillis (c : Config) : Nat := c.shutdownGrace * 1000

/-- A configuration as JSON. -/
def encode (c : Config) : Json :=
  .obj [("execution", .obj [("script_timeout_secs", Json.ofNat c.scriptTimeout),
      ("shutdown_grace_secs", Json.ofNat c.shutdownGrace),
      ("max_iterations", Json.ofNat c.maxIterations)]),
    ("logging", .obj [("level", .str c.logLevel)])]

end Config

end Conveyor
