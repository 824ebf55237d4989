import StepRunner.Config
import StepRunner.Loop

namespace StepRunner

structure Runner where
  config : Config
  hooks : HookRegistry
  steps : StepRegistry
  grabber : Option (Action (Option Bytes))

/-- Why a runner could not start, or did not end well. -/
inductive StartError where
  | config (e : ConfigError)
  | protocol (e : ProtocolError)
  deriving DecidableEq, Repr

namespace StartError

def message : StartError → String
  | config e => e.message
  | protocol _ => "Message loop terminated by a protocol fault"

/-- The message, with everything that caused it. -/
def report : StartError → String
  | config e => e.message
  | protocol e => String.intercalate ": " ((protocol e).message :: e.message :: e.causes)

end StartError

namespace Runner

/-- A runner with no hooks and steps. -/
def ofConfig (config : Config) : Runner := ⟨config, .empty, .empty, none⟩

/-- Screenshots are taken only if the settings allow it. -/
def executor (runner : Runner) : Executor :=
  ⟨if runner.config.screenshotOnFailure then runner.grabber else none⟩

def dispatcher (runner : Runner) : Dispatcher :=
  .standard runner.hooks runner.steps runner.executor

end Runner

end StepRunner
