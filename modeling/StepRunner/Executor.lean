import StepRunner.Hook.Registry
import StepRunner.Message.Result
import StepRunner.Step.Registry
import StepRunner.Text.Quoted

namespace StepRunner

structure Failure where
  message : String
  stackTrace : String
  deriving DecidableEq, Repr

namespace Failure

def located (stackTrace location : String) : String := stackTrace ++ "\n    in " ++ location

def ofError (location : String) (e : HookError) : Failure := ⟨e.message, located e.chain location⟩

def ofPanic (location : String) (reason : Panic) : Failure :=
  ⟨reason.message, located ("panicked: " ++ reason.message) location⟩

end Failure

/-- Runs a body and tells its failure, if it fails. -/
def Action.guarded (body : Action (Except HookError Unit)) (location : String) (world : World) :
    Option Failure × World :=
  match body.run world with
  | (.done (.ok ()), world) => (none, world)
  | (.done (.error e), world) => (some (.ofError location e), world)
  | (.panicked reason, world) => (some (.ofPanic location reason), world)

namespace Hook

def location (hook : Hook) : String := "hook " ++ Text.backticks hook.name

def call (hook : Hook) (info : ExecutionInfo) (world : World) : Option Failure × World :=
  (hook.body info).guarded hook.location (world.record (.hookCalled hook.name info))

/-- Calls hooks in turn, up to the first that fails. -/
def callAll (info : ExecutionInfo) : List Hook → World → Option Failure × World
  | [], world => (none, world)
  | hook :: hooks, world =>
    match hook.call info world with
    | (some failure, world) => (some failure, world)
    | (none, world) => callAll info hooks world

end Hook

namespace Step

def location (step : Step) : String := "step " ++ Text.backticks step.text

def call (step : Step) (arguments : List String) (world : World) : Option Failure × World :=
  (step.body arguments).guarded step.location (world.record (.stepCalled step.text arguments))

end Step

structure Executor where
  grabber : Option (Action (Option Bytes))

namespace Executor

/-- A grabber is not guarded: its panic goes on. -/
def grab (executor : Executor) (world : World) : Outcome (Option Bytes) × World :=
  match executor.grabber with
  | none => (.done none, world)
  | some grabber => grabber.run (world.record .grabberCalled)

/-- Milliseconds since the clock showed `started`. -/
def elapsed (started : Nat) (world : World) : UInt64 × World :=
  let (reading, world) := world.now
  (.ofNat (min (reading - started) (UInt64.size - 1)), world)

def report (executor : Executor) (started : Nat) (failure : Option Failure) (world : World) :
    Outcome ExecutionResult × World :=
  let (time, world) := elapsed started world
  match failure with
  | none => (.done (.passed time), world)
  | some failure =>
    let result := (ExecutionResult.failure time failure.message).withStackTrace failure.stackTrace
    match executor.grab world with
    | (.panicked reason, world) => (.panicked reason, world)
    | (.done none, world) => (.done result, world)
    | (.done (some screenshot), world) => (.done (result.withScreenshot screenshot), world)

def executeHooks (executor : Executor) (hooks : HookSet) (info : ExecutionInfo) (world : World) :
    Outcome ExecutionResult × World :=
  let (started, world) := world.now
  let (failure, world) := Hook.callAll info hooks.hooks world
  executor.report started failure world

def executeStep (executor : Executor) (step : Step) (arguments : List String) (world : World) :
    Outcome ExecutionResult × World :=
  let (started, world) := world.now
  let (failure, world) := step.call arguments world
  executor.report started failure world

end Executor

end StepRunner
