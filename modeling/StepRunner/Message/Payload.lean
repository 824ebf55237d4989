import StepRunner.Message.Type
import StepRunner.Message.Context
import StepRunner.Message.Result

namespace StepRunner

structure ExecuteStepRequest where
  /-- As written in the spec. -/
  actualStepText : String
  /-- With a placeholder for each argument. -/
  parsedStepText : String
  parameters : List String
  scenarioFailing : Bool
  deriving DecidableEq, Repr

structure StepValidateRequest where
  stepText : String
  numberOfParameters : UInt64
  deriving DecidableEq, Repr

structure StepValidateResponse where
  isValid : Bool
  errorMessage : Option String
  deriving DecidableEq, Repr

inductive Payload where
  | lifecycle (event : LifecycleEvent) (info : Option ExecutionInfo)
  | executeStep (request : ExecuteStepRequest)
  | stepValidateRequest (request : StepValidateRequest)
  | stepValidateResponse (response : StepValidateResponse)
  | executionStatus (result : ExecutionResult)
  | stepNamesRequest
  | stepNamesResponse (steps : List String)
  | killProcess
  | storeInit (scope : Scope)
  deriving DecidableEq, Repr

namespace Payload

/-- The type of message that the payload is for. -/
def type : Payload → MessageType
  | lifecycle event _ => .lifecycle event
  | executeStep _ => .executeStep
  | stepValidateRequest _ => .stepValidateRequest
  | stepValidateResponse _ => .stepValidateResponse
  | executionStatus _ => .executionStatus
  | stepNamesRequest => .stepNamesRequest
  | stepNamesResponse _ => .stepNamesResponse
  | killProcess => .killProcess
  | storeInit scope => .storeInit scope

def name (payload : Payload) : String := payload.type.payloadName

end Payload

structure Message where
  /-- A response carries the id of its request. -/
  id : Int64
  type : MessageType
  payload : Payload
  deriving DecidableEq, Repr

namespace Message

def Fits (message : Message) : Prop := message.payload.type = message.type

instance (message : Message) : Decidable message.Fits :=
  inferInstanceAs (Decidable (message.payload.type = message.type))

def executionStatus (id : Int64) (result : ExecutionResult) : Message :=
  ⟨id, .executionStatus, .executionStatus result⟩

theorem fits_executionStatus (id : Int64) (result : ExecutionResult) :
    (executionStatus id result).Fits := rfl

end Message

end StepRunner
