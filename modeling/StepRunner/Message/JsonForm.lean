import StepRunner.Bytes.Base64
import StepRunner.Json.Parser
import StepRunner.Json.Printer
import StepRunner.Json.Record
import StepRunner.Message.Payload
import StepRunner.Text.Utf8

namespace StepRunner

open Json (Misfit Place Record)

namespace Json

def ofOption {α : Type} (form : α → Json) : Option α → Json
  | some value => form value
  | none => null

def ofStrings (texts : List String) : Json := array (texts.map string)

/-- The entry of a field that is left out when absent. -/
def optionalEntry {α : Type} (name : String) (form : α → Json) : Option α → List (String × Json)
  | some value => [(name, form value)]
  | none => []

def ofNat (n : Nat) : Json := integer n

end Json

namespace SpecInfo

def toJson (spec : SpecInfo) : Json :=
  .object [("name", .string spec.name), ("fileName", .string spec.fileName),
    ("isFailed", .bool spec.isFailed), ("tags", .ofStrings spec.tags)]

def record : Record SpecInfo :=
  ((((Record.pure mk).required "name" Json.asString).defaulting "fileName" Json.asString "").defaulting
    "isFailed" Json.asBool false).defaulting "tags" Json.asStrings []

end SpecInfo

namespace ScenarioInfo

def toJson (scenario : ScenarioInfo) : Json :=
  .object [("name", .string scenario.name), ("isFailed", .bool scenario.isFailed),
    ("tags", .ofStrings scenario.tags)]

def record : Record ScenarioInfo :=
  (((Record.pure mk).required "name" Json.asString).defaulting "isFailed" Json.asBool false).defaulting
    "tags" Json.asStrings []

end ScenarioInfo

namespace StepInfo

def toJson (step : StepInfo) : Json :=
  .object [("stepText", .string step.stepText), ("isFailed", .bool step.isFailed)]

def record : Record StepInfo :=
  ((Record.pure mk).required "stepText" Json.asString).defaulting "isFailed" Json.asBool false

end StepInfo

namespace ExecutionInfo

def toJson (info : ExecutionInfo) : Json :=
  .object [("currentSpec", .ofOption SpecInfo.toJson info.currentSpec),
    ("currentScenario", .ofOption ScenarioInfo.toJson info.currentScenario),
    ("currentStep", .ofOption StepInfo.toJson info.currentStep),
    ("stacktrace", .ofOption .string info.stacktrace)]

def record (place : Place) : Record ExecutionInfo :=
  ((((Record.pure mk).defaulting "currentSpec"
      (Json.asOption (SpecInfo.record.read place "SpecInfo")) none).defaulting "currentScenario"
      (Json.asOption (ScenarioInfo.record.read place "ScenarioInfo")) none).defaulting "currentStep"
      (Json.asOption (StepInfo.record.read place "StepInfo")) none).defaulting "stacktrace"
    (Json.asOption Json.asString) none

def read (place : Place) : Json → Except Misfit ExecutionInfo :=
  (record place).read place "ExecutionInfo"

def ofJson? (json : Json) : Except Misfit ExecutionInfo := read .alone json.canonical

end ExecutionInfo

namespace ExecutionResult

def screenshotText (screenshot : Bytes) : Json := .string (String.ofList (Base64.encode screenshot))

def toJson (result : ExecutionResult) : Json :=
  .object ([("failed", .bool result.failed), ("executionTime", .ofNat result.executionTime.toNat),
    ("recoverableError", .bool result.recoverableError)] ++
    Json.optionalEntry "errorMessage" .string result.errorMessage ++
    Json.optionalEntry "stackTrace" .string result.stackTrace ++
    Json.optionalEntry "screenShot" screenshotText result.screenshot)

def asScreenshot (json : Json) : Except Misfit Bytes := do
  let text ← Json.asString json
  (Base64.decode (Utf8.encode text)).mapError fun fault => .other fault.message

def record : Record ExecutionResult :=
  ((((((Record.pure mk).required "failed" Json.asBool).required "executionTime"
    (Json.asUInt64 "u64")).defaulting "recoverableError" Json.asBool false).defaulting "errorMessage"
    (Json.asOption Json.asString) none).defaulting "stackTrace"
    (Json.asOption Json.asString) none).defaulting "screenShot" (Json.asOption asScreenshot) none

def read (place : Place) : Json → Except Misfit ExecutionResult :=
  record.read place "ExecutionResult"

def ofJson? (json : Json) : Except Misfit ExecutionResult := read .alone json.canonical

end ExecutionResult

namespace MessageType

def toJson (type : MessageType) : Json := .string type.name

def ofName (name : String) : Except Misfit MessageType :=
  match ofName? name with
  | some type => .ok type
  | none => .error (.unknownVariant name (all.map MessageType.name))

/-- A name, or an object whose only key is the name and whose value is null. -/
def ofJson? : Json → Except Misfit MessageType
  | .string name => ofName name
  | .object [(name, value)] => do
    let type ← ofName name
    match value with
    | .null => .ok type
    | _ => Json.misfit value "unit"
  | .object _ => .error .notOneKey
  | json => Json.misfit json "string or map"

end MessageType

namespace Payload

def toJson : Payload → Json
  | lifecycle _ info => .object [("currentExecutionInfo", .ofOption ExecutionInfo.toJson info)]
  | executeStep request =>
    .object [("actualStepText", .string request.actualStepText),
      ("parsedStepText", .string request.parsedStepText),
      ("parameters", .ofStrings request.parameters),
      ("scenarioFailing", .bool request.scenarioFailing)]
  | stepValidateRequest request =>
    .object [("stepText", .string request.stepText),
      ("numberOfParameters", .ofNat request.numberOfParameters.toNat)]
  | stepValidateResponse response =>
    .object (("isValid", .bool response.isValid) ::
      Json.optionalEntry "errorMessage" .string response.errorMessage)
  | executionStatus result => .object [("executionResult", result.toJson)]
  | stepNamesResponse steps => .object [("steps", .ofStrings steps)]
  | stepNamesRequest | killProcess | storeInit _ => .object []

/-- The fields of the payload of a message of a type. -/
def record : MessageType → Record Payload
  | .lifecycle event =>
    (Record.pure (lifecycle event)).defaulting "currentExecutionInfo"
      (Json.asOption (ExecutionInfo.read .inPayload)) none
  | .executeStep =>
    ((((Record.pure fun actual parsed parameters failing =>
      executeStep ⟨actual, parsed, parameters, failing⟩).required "actualStepText"
      Json.asString).required "parsedStepText" Json.asString).defaulting "parameters"
      Json.asStrings []).defaulting "scenarioFailing" Json.asBool false
  | .stepValidateRequest =>
    ((Record.pure fun text count => stepValidateRequest ⟨text, count⟩).required "stepText"
      Json.asString).defaulting "numberOfParameters" (Json.asUInt64 "usize") 0
  | .stepValidateResponse =>
    ((Record.pure fun valid message => stepValidateResponse ⟨valid, message⟩).required "isValid"
      Json.asBool).defaulting "errorMessage" (Json.asOption Json.asString) none
  | .executionStatus =>
    (Record.pure executionStatus).required "executionResult" (ExecutionResult.read .inPayload)
  | .stepNamesRequest => .pure stepNamesRequest
  | .stepNamesResponse => (Record.pure stepNamesResponse).defaulting "steps" Json.asStrings []
  | .killProcess => .pure killProcess
  | .storeInit scope => .pure (storeInit scope)

/-- What error texts call the payload of a message of a type. -/
def recordName : MessageType → String
  | .lifecycle event => event.requestName
  | .executeStep => "ExecuteStepRequest"
  | .stepValidateRequest => "StepValidateRequest"
  | .stepValidateResponse => "StepValidateResponse"
  | .executionStatus => "ExecutionStatusResponse"
  | .stepNamesRequest => "StepNamesRequest"
  | .stepNamesResponse => "StepNamesResponse"
  | .killProcess => "KillProcessRequest"
  | .storeInit _ => "DataStoreInitRequest"

/-- The first entry that is named for a payload, whatever else there is. -/
def ofEntries : List (String × Json) → Except Misfit Payload
  | [] => .error .noPayload
  | (key, value) :: entries =>
    match MessageType.ofPayloadName? key with
    | some type => (record type).read .inPayload (recordName type) value
    | none => ofEntries entries

end Payload

namespace Message

/-- The payload stands under its own name, whether or not that is the type's. -/
def toJson (message : Message) : Json :=
  .object [("messageId", .integer message.id.toInt), ("messageType", message.type.toJson),
    (message.payload.name, message.payload.toJson)]

def text (message : Message) : String := message.toJson.text

def header : Record (Payload → Message) :=
  ((Record.pure mk).required "messageId" Json.asInt64).required "messageType" MessageType.ofJson?

/-- Reads the entries of a message in the order given. -/
def ofEntries (entries : List (String × Json)) : Except Misfit Message := do
  let make ← header.ofEntries entries
  let payload ← Payload.ofEntries entries
  .ok (make payload)

def ofJson? (json : Json) : Except Misfit Message :=
  match json.canonical with
  | .object entries => ofEntries entries
  | json => Json.misfit json "struct Message"

end Message

end StepRunner
