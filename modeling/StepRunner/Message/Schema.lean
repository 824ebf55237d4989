import StepRunner.Wire.Reader
import StepRunner.Message.Type

namespace StepRunner

inductive Shape where
  | message
  | lifecycle (event : LifecycleEvent)
  | executionInfo
  | specInfo
  | scenarioInfo
  | stepInfo
  | executeStep
  | parameter
  | stepValidateRequest
  | stepValidateResponse
  | stepNamesRequest
  | stepNamesResponse
  | executionStatus
  | executionResult
  | killProcess
  | storeInit (scope : Scope)
  deriving DecidableEq, Repr

namespace MessageType

/-- The layout of the payload of a message of this type. -/
def shape : MessageType → Shape
  | lifecycle event => .lifecycle event
  | executeStep => .executeStep
  | stepValidateRequest => .stepValidateRequest
  | stepValidateResponse => .stepValidateResponse
  | executionStatus => .executionStatus
  | stepNamesRequest => .stepNamesRequest
  | stepNamesResponse => .stepNamesResponse
  | killProcess => .killProcess
  | storeInit scope => .storeInit scope

/-- What the wire's error texts call the payload field. -/
def payloadField : MessageType → String
  | lifecycle .executionStarting => "execution_starting_request"
  | lifecycle .executionEnding => "execution_ending_request"
  | lifecycle .specStarting => "spec_execution_starting_request"
  | lifecycle .specEnding => "spec_execution_ending_request"
  | lifecycle .scenarioStarting => "scenario_execution_starting_request"
  | lifecycle .scenarioEnding => "scenario_execution_ending_request"
  | lifecycle .stepStarting => "step_execution_starting_request"
  | lifecycle .stepEnding => "step_execution_ending_request"
  | executeStep => "execute_step_request"
  | stepValidateRequest => "step_validate_request"
  | stepValidateResponse => "step_validate_response"
  | executionStatus => "execution_status_response"
  | stepNamesRequest => "step_names_request"
  | stepNamesResponse => "step_names_response"
  | killProcess => "kill_process_request"
  | storeInit .suite => "suite_data_store_init_request"
  | storeInit .spec => "spec_data_store_init_request"
  | storeInit .scenario => "scenario_data_store_init_request"

end MessageType

namespace Shape

open Wire

def layout : Shape → Layout Shape
  | message =>
    ⟨"Message",
      ⟨1, "message_type", .varint⟩ :: ⟨2, "message_id", .varint⟩ ::
        MessageType.all.map fun type => ⟨type.payloadTag, type.payloadField, .body type.shape⟩⟩
  | lifecycle event => ⟨event.requestName, [⟨1, "current_execution_info", .body executionInfo⟩]⟩
  | executionInfo =>
    ⟨"ExecutionInfo",
      [⟨1, "current_spec", .body specInfo⟩, ⟨2, "current_scenario", .body scenarioInfo⟩,
        ⟨3, "current_step", .body stepInfo⟩, ⟨4, "stacktrace", .text⟩]⟩
  | specInfo =>
    ⟨"SpecInfo",
      [⟨1, "name", .text⟩, ⟨2, "file_name", .text⟩, ⟨3, "is_failed", .varint⟩, ⟨4, "tags", .text⟩]⟩
  | scenarioInfo =>
    ⟨"ScenarioInfo", [⟨1, "name", .text⟩, ⟨2, "is_failed", .varint⟩, ⟨3, "tags", .text⟩]⟩
  | stepInfo => ⟨"StepInfo", [⟨1, "step", .body executeStep⟩, ⟨2, "is_failed", .varint⟩]⟩
  | executeStep =>
    ⟨"ExecuteStepRequest",
      [⟨1, "actual_step_text", .text⟩, ⟨2, "parsed_step_text", .text⟩,
        ⟨3, "scenario_failing", .varint⟩, ⟨4, "parameters", .body parameter⟩]⟩
  | parameter =>
    ⟨"Parameter", [⟨1, "parameter_type", .varint⟩, ⟨2, "value", .text⟩, ⟨3, "name", .text⟩]⟩
  | stepValidateRequest =>
    ⟨"StepValidateRequest", [⟨1, "step_text", .text⟩, ⟨2, "number_of_parameters", .varint⟩]⟩
  | stepValidateResponse =>
    ⟨"StepValidateResponse", [⟨1, "is_valid", .varint⟩, ⟨2, "error_message", .text⟩]⟩
  | stepNamesRequest => ⟨"StepNamesRequest", []⟩
  | stepNamesResponse => ⟨"StepNamesResponse", [⟨1, "steps", .text⟩]⟩
  | executionStatus => ⟨"ExecutionStatusResponse", [⟨1, "execution_result", .body executionResult⟩]⟩
  | executionResult =>
    ⟨"ProtoExecutionResult",
      [⟨1, "failed", .varint⟩, ⟨2, "recoverable_error", .varint⟩, ⟨3, "error_message", .text⟩,
        ⟨4, "stack_trace", .text⟩, ⟨5, "screen_shot", .octets⟩, ⟨6, "execution_time", .varint⟩]⟩
  | killProcess => ⟨"KillProcessRequest", []⟩
  | storeInit .suite => ⟨"SuiteDataStoreInitRequest", []⟩
  | storeInit .spec => ⟨"SpecDataStoreInitRequest", []⟩
  | storeInit .scenario => ⟨"ScenarioDataStoreInitRequest", []⟩

end Shape

end StepRunner
