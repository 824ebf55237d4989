import StepRunner.Executor
import StepRunner.Message.Payload
import StepRunner.ProtocolError

namespace StepRunner

inductive Processor where
  | hooks (event : LifecycleEvent) (registry : HookRegistry) (executor : Executor)
  | storeInit (scope : Scope)
  | executeStep (steps : StepRegistry) (executor : Executor)
  | validate (steps : StepRegistry)
  | names (steps : StepRegistry)
  | kill

namespace StepRegistry

def notFound (text : String) : String := "Step implementation not found: " ++ text

def wrongCount (text : String) (arity : Nat) (given : UInt64) : String :=
  "Step " ++ Text.backticks text ++
    s!" takes {arity} parameter(s) but {given.toNat} were given"

def validate (steps : StepRegistry) (request : StepValidateRequest) : StepValidateResponse :=
  match steps.get? request.stepText with
  | none => ⟨false, some (notFound request.stepText)⟩
  | some step =>
    if step.arity ≠ request.numberOfParameters.toNat then
      ⟨false, some (wrongCount request.stepText step.arity request.numberOfParameters)⟩
    else ⟨true, none⟩

end StepRegistry

namespace Executor

/-- Runs the step that a request asks for; one that is not registered counts as failed. -/
def runStep (executor : Executor) (steps : StepRegistry) (request : ExecuteStepRequest)
    (world : World) : Outcome ExecutionResult × World :=
  match steps.get? request.parsedStepText with
  | some step => executor.executeStep step request.parameters world
  | none => (.done (.failure 0 (StepRegistry.notFound request.actualStepText)), world)

end Executor

namespace Processor

/-- The type of request that the processor answers. -/
def type : Processor → MessageType
  | hooks event _ _ => .lifecycle event
  | storeInit scope => .storeInit scope
  | executeStep _ _ => .executeStep
  | validate _ => .stepValidateRequest
  | names _ => .stepNamesRequest
  | kill => .killProcess

/-- The answer that reports a result. -/
def status (id : Int64) :
    Outcome ExecutionResult × World → Outcome (Except ProtocolError Message) × World
  | (.done result, world) => (.done (.ok (.executionStatus id result)), world)
  | (.panicked reason, world) => (.panicked reason, world)

/-- What is not the processor's own is refused before anything is done. -/
def process (processor : Processor) (request : Message) (world : World) :
    Outcome (Except ProtocolError Message) × World :=
  let refuse := (.done (.error (.mismatch request)), world)
  if request.type ≠ processor.type then refuse
  else match processor, request.payload with
    | hooks event registry executor, .lifecycle sent info =>
      if sent = event then
        status request.id
          (executor.executeHooks (registry.get event.category) (info.getD .empty) world)
      else refuse
    | storeInit scope, .storeInit sent =>
      if sent = scope then
        status request.id
          (.done (.passed 0), { world with stores := world.stores.apply scope .clear })
      else refuse
    | executeStep steps executor, .executeStep sent =>
      status request.id (executor.runStep steps sent world)
    | validate steps, .stepValidateRequest sent =>
      (.done (.ok ⟨request.id, .stepValidateResponse, .stepValidateResponse (steps.validate sent)⟩),
        world)
    | names steps, .stepNamesRequest =>
      (.done (.ok ⟨request.id, .stepNamesResponse, .stepNamesResponse steps.texts⟩), world)
    | kill, .killProcess => status request.id (.done (.passed 0), world)
    | _, _ => refuse

end Processor

end StepRunner
