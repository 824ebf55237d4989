import StepRunner.Bytes

namespace StepRunner

structure ExecutionResult where
  failed : Bool
  /-- Milliseconds. -/
  executionTime : UInt64
  recoverableError : Bool
  errorMessage : Option String
  stackTrace : Option String
  screenshot : Option Bytes
  deriving DecidableEq, Repr

namespace ExecutionResult

def passed (executionTime : UInt64) : ExecutionResult :=
  ⟨false, executionTime, false, none, none, none⟩

def failure (executionTime : UInt64) (message : String) : ExecutionResult :=
  ⟨true, executionTime, false, some message, none, none⟩

def withStackTrace (result : ExecutionResult) (stackTrace : String) : ExecutionResult :=
  { result with stackTrace := some stackTrace }

def withScreenshot (result : ExecutionResult) (screenshot : Bytes) : ExecutionResult :=
  { result with screenshot := some screenshot }

def withRecoverable (result : ExecutionResult) (recoverable : Bool) : ExecutionResult :=
  { result with recoverableError := recoverable }

end ExecutionResult

end StepRunner
