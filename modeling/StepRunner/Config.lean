import StepRunner.Text.Blank
import StepRunner.Text.Unsigned
import StepRunner.Text.Utf8

namespace StepRunner

structure Config where
  projectRoot : String
  host : String
  /-- The port as it was given. -/
  internalPort : Option String
  connectTimeoutSecs : UInt64
  screenshotOnFailure : Bool
  deriving DecidableEq, Repr

inductive ConfigError where
  | portNotSet
  | badPort (given : String)
  deriving DecidableEq, Repr

def ConfigError.message : ConfigError → String
  | portNotSet => "GAUGE_INTERNAL_PORT not set"
  | badPort given => "GAUGE_INTERNAL_PORT is not a valid port: " ++ given

namespace Config

/-- Screenshots are turned off by `false`, in any case and between any blanks, and by nothing else. -/
def isFalse (text : String) : Bool :=
  (Text.trim text.toList).map Char.toLower = ['f', 'a', 'l', 's', 'e']

/-- The variables that settings are read from. -/
def variableNames : List String :=
  ["GAUGE_PROJECT_ROOT", "GAUGE_RUNNER_HOST", "GAUGE_INTERNAL_PORT",
    "GAUGE_RUNNER_CONNECT_TIMEOUT_SECS", "screenshot_enabled"]

/-- `lookup` gives the bytes of a variable that is set; bytes that are no text count as unset. -/
def ofEnvironment (lookup : String → Option Bytes) : Config :=
  let text? (name : String) : Option String := (lookup name).bind Utf8.decode?
  { projectRoot := (text? "GAUGE_PROJECT_ROOT").getD "."
    host := (text? "GAUGE_RUNNER_HOST").getD "127.0.0.1"
    internalPort := (text? "GAUGE_INTERNAL_PORT").filter (· ≠ "")
    connectTimeoutSecs :=
      .ofNat (((text? "GAUGE_RUNNER_CONNECT_TIMEOUT_SECS").bind fun text =>
        Text.unsigned? UInt64.size text.toList).getD 30)
    screenshotOnFailure := ((text? "screenshot_enabled").map fun text => !isFalse text).getD true }

def port (config : Config) : Except ConfigError Nat :=
  match config.internalPort with
  | none => .error .portNotSet
  | some given =>
    match Text.unsigned? UInt16.size (Text.trim given.toList) with
    | none => .error (.badPort given)
    | some port => .ok port

def address (config : Config) : Except ConfigError String := do
  let port ← config.port
  .ok s!"{config.host}:{port}"

end Config

end StepRunner
