import StepRunner.Message.Payload
import StepRunner.Message.Schema

namespace StepRunner

open Wire

/-- The longest time that can be written. -/
def maxTime : Nat := 0x7fffffffffffffff

/-- The highest count that can be written. -/
def maxCount : Nat := 0x7fffffff

namespace SpecInfo

def toFields (spec : SpecInfo) : List Field :=
  [.text 1 spec.name, .text 2 spec.fileName, flag 3 spec.isFailed] ++ spec.tags.map (.text 4)

def ofFields (fields : List Field) : SpecInfo :=
  { name := (text? 1 fields).getD ""
    fileName := (text? 2 fields).getD ""
    isFailed := (flag? 3 fields).getD false
    tags := texts 4 fields }

end SpecInfo

namespace ScenarioInfo

def toFields (scenario : ScenarioInfo) : List Field :=
  [.text 1 scenario.name, flag 2 scenario.isFailed] ++ scenario.tags.map (.text 3)

def ofFields (fields : List Field) : ScenarioInfo :=
  { name := (text? 1 fields).getD ""
    isFailed := (flag? 2 fields).getD false
    tags := texts 3 fields }

end ScenarioInfo

namespace ExecuteStepRequest

def toFields (request : ExecuteStepRequest) : List Field :=
  [.text 1 request.actualStepText, .text 2 request.parsedStepText, flag 3 request.scenarioFailing]
    ++ request.parameters.map fun value => .message 4 [.varint 1 1, .text 2 value]

def ofFields (fields : List Field) : ExecuteStepRequest :=
  { actualStepText := (text? 1 fields).getD ""
    parsedStepText := (text? 2 fields).getD ""
    parameters := (bodies 4 fields).map fun parameter => (text? 2 parameter).getD ""
    scenarioFailing := (flag? 3 fields).getD false }

end ExecuteStepRequest

namespace StepInfo

/-- The step of a context travels as a request of which only the text is filled in. -/
def toFields (step : StepInfo) : List Field :=
  [.message 1 [.text 1 step.stepText, .text 2 ""], flag 2 step.isFailed]

def ofFields (fields : List Field) : StepInfo :=
  { stepText := ((body? 1 fields).bind (text? 1)).getD ""
    isFailed := (flag? 2 fields).getD false }

end StepInfo

namespace ExecutionInfo

def toFields (info : ExecutionInfo) : List Field :=
  info.currentSpec.toList.map (fun spec => .message 1 spec.toFields) ++
    info.currentScenario.toList.map (fun scenario => .message 2 scenario.toFields) ++
    info.currentStep.toList.map (fun step => .message 3 step.toFields) ++
    optionalText 4 info.stacktrace

def ofFields (fields : List Field) : ExecutionInfo :=
  { currentSpec := (body? 1 fields).map SpecInfo.ofFields
    currentScenario := (body? 2 fields).map ScenarioInfo.ofFields
    currentStep := (body? 3 fields).map StepInfo.ofFields
    stacktrace := text? 4 fields }

end ExecutionInfo

namespace ExecutionResult

def toFields (result : ExecutionResult) : List Field :=
  [flag 1 result.failed, flag 2 result.recoverableError] ++
    optionalText 3 result.errorMessage ++
    optionalText 4 result.stackTrace ++
    result.screenshot.toList.map (.octets 5) ++
    [.varint 6 (min result.executionTime.toNat maxTime)]

def ofFields (fields : List Field) : ExecutionResult :=
  { failed := (flag? 1 fields).getD false
    executionTime := .ofNat (Int64.ofNat ((varint? 6 fields).getD 0)).toInt.toNat
    recoverableError := (flag? 2 fields).getD false
    errorMessage := text? 3 fields
    stackTrace := text? 4 fields
    screenshot := octets? 5 fields }

end ExecutionResult

/-- Why fields that could be read are not a message. -/
inductive InvalidMessage where
  | unknownType (number : Int)
  | notForRunners
  | missingPayload (name : String)
  deriving DecidableEq, Repr

def InvalidMessage.message : InvalidMessage → String
  | unknownType number => s!"unknown message type {number}"
  | notForRunners => "message type SuiteExecutionResult is not for runners"
  | missingPayload name => s!"missing {name} payload"

namespace Payload

def toFields : Payload → List Field
  | lifecycle _ info => info.toList.map fun info => .message 1 info.toFields
  | executeStep request => request.toFields
  | stepValidateRequest request =>
    [.text 1 request.stepText, .varint 2 (min request.numberOfParameters.toNat maxCount)]
  | stepValidateResponse response => flag 1 response.isValid :: optionalText 2 response.errorMessage
  | executionStatus result => [.message 1 result.toFields]
  | stepNamesRequest => []
  | stepNamesResponse steps => steps.map (.text 1)
  | killProcess => []
  | storeInit _ => []

/-- The payload of a message of the given type, of which `body` is the payload field. -/
def ofBody? (body : Option (List Field)) : MessageType → Except InvalidMessage Payload
  | .lifecycle event => .ok (lifecycle event ((body.bind (body? 1)).map ExecutionInfo.ofFields))
  | .executeStep => do
    let fields ← required body "executeStepRequest"
    .ok (executeStep (.ofFields fields))
  | .stepValidateRequest => do
    let fields ← required body "stepValidateRequest"
    .ok (stepValidateRequest
      { stepText := (text? 1 fields).getD ""
        numberOfParameters := .ofNat (Int32.ofNat ((varint? 2 fields).getD 0)).toInt.toNat })
  | .stepValidateResponse => do
    let fields ← required body "stepValidateResponse"
    .ok (stepValidateResponse
      { isValid := (flag? 1 fields).getD false
        errorMessage := text? 2 fields })
  | .executionStatus => do
    let fields ← required body "executionStatusResponse"
    let result ← required (body? 1 fields) "executionResult"
    .ok (executionStatus (.ofFields result))
  | .stepNamesRequest => .ok stepNamesRequest
  | .stepNamesResponse => .ok (stepNamesResponse ((body.map (texts 1)).getD []))
  | .killProcess => .ok killProcess
  | .storeInit scope => .ok (storeInit scope)
where
  required (body : Option (List Field)) (name : String) : Except InvalidMessage (List Field) :=
    match body with
    | some fields => .ok fields
    | none => .error (.missingPayload name)

end Payload

/-- The number of the report that the host alone reads. -/
def suiteResultNumber : Int := 15

namespace MessageType

def ofWireNumber (number : Int) : Except InvalidMessage MessageType :=
  match ofNumber? number with
  | some type => .ok type
  | none => .error (if number = suiteResultNumber then .notForRunners else .unknownType number)

end MessageType

/-- Why bytes are not a message. -/
inductive CodecError where
  | undecodable (e : Wire.DecodeError)
  | invalid (reason : InvalidMessage)
  deriving DecidableEq, Repr

def CodecError.message : CodecError → String
  | undecodable e => "Failed to decode message: " ++ e.message
  | invalid reason => "Invalid message: " ++ reason.message

namespace Message

def toFields (message : Message) : List Field :=
  [.varint 1 message.type.number, .varint 2 message.id.toUInt64.toNat,
    .message message.payload.type.payloadTag message.payload.toFields]

def wireNumber (fields : List Field) : Int := (Int32.ofNat ((varint? 1 fields).getD 0)).toInt

def ofFields? (fields : List Field) : Except InvalidMessage Message := do
  let type ← MessageType.ofWireNumber (wireNumber fields)
  let payload ← Payload.ofBody? (body? type.payloadTag fields) type
  .ok ⟨.ofNat ((varint? 2 fields).getD 0), type, payload⟩

/-- Times are capped to 63 bits and counts to 31. -/
def encode (message : Message) : Bytes := Wire.encode message.toFields

def decode (bytes : Bytes) : Except CodecError Message := do
  let fields ← (Wire.decode Shape.layout .message bytes).mapError .undecodable
  (ofFields? fields).mapError .invalid

end Message

end StepRunner
