import StepRunner.Connection.IoError
import StepRunner.Text.Located

namespace StepRunner

inductive HookError where
  | assertion (message : String)
  | serialization (fault : Text.Located)
  /-- `causes` are the texts of what caused the error, the nearest first. -/
  | io (e : IoError) (causes : List String)
  | failed (message : String)
  deriving DecidableEq, Repr

namespace HookError

def message : HookError → String
  | assertion message => "Assertion failed: " ++ message
  | serialization fault => "Serialization error: " ++ fault.text
  | io e _ => e.message
  | failed message => message

def causes : HookError → List String
  | serialization fault => [fault.text]
  | io e causes => e.text :: causes
  | assertion _ | failed _ => []

/-- The message, and a line for each cause. -/
def chain (e : HookError) : String :=
  e.message ++ String.join (e.causes.map ("\ncaused by: " ++ ·))

end HookError

end StepRunner
