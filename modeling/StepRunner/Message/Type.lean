import StepRunner.Scope

namespace StepRunner

/-- The moments of a run at which the host has hooks called. -/
inductive LifecycleEvent where
  | executionStarting
  | executionEnding
  | specStarting
  | specEnding
  | scenarioStarting
  | scenarioEnding
  | stepStarting
  | stepEnding
  deriving DecidableEq, Repr

namespace LifecycleEvent

def all : List LifecycleEvent :=
  [executionStarting, executionEnding, specStarting, specEnding, scenarioStarting, scenarioEnding,
    stepStarting, stepEnding]

/-- The name of the event's request. -/
def requestName : LifecycleEvent → String
  | executionStarting => "ExecutionStartingRequest"
  | executionEnding => "ExecutionEndingRequest"
  | specStarting => "SpecExecutionStartingRequest"
  | specEnding => "SpecExecutionEndingRequest"
  | scenarioStarting => "ScenarioExecutionStartingRequest"
  | scenarioEnding => "ScenarioExecutionEndingRequest"
  | stepStarting => "StepExecutionStartingRequest"
  | stepEnding => "StepExecutionEndingRequest"

end LifecycleEvent

inductive MessageType where
  | lifecycle (event : LifecycleEvent)
  | executeStep
  | stepValidateRequest
  | stepValidateResponse
  | executionStatus
  | stepNamesRequest
  | stepNamesResponse
  | killProcess
  | storeInit (scope : Scope)
  deriving DecidableEq, Repr

namespace MessageType

def all : List MessageType :=
  [lifecycle .executionStarting, lifecycle .specStarting, lifecycle .specEnding,
    lifecycle .scenarioStarting, lifecycle .scenarioEnding, lifecycle .stepStarting,
    lifecycle .stepEnding, executeStep, lifecycle .executionEnding, stepValidateRequest,
    stepValidateResponse, executionStatus, stepNamesRequest, stepNamesResponse, killProcess,
    storeInit .suite, storeInit .spec, storeInit .scenario]

theorem mem_all (type : MessageType) : type ∈ all := by
  cases type with
  | lifecycle event => cases event <;> decide
  | storeInit scope => cases scope <;> decide
  | _ => decide

def name : MessageType → String
  | lifecycle .executionStarting => "ExecutionStarting"
  | lifecycle .executionEnding => "ExecutionEnding"
  | lifecycle .specStarting => "SpecExecutionStarting"
  | lifecycle .specEnding => "SpecExecutionEnding"
  | lifecycle .scenarioStarting => "ScenarioExecutionStarting"
  | lifecycle .scenarioEnding => "ScenarioExecutionEnding"
  | lifecycle .stepStarting => "StepExecutionStarting"
  | lifecycle .stepEnding => "StepExecutionEnding"
  | executeStep => "ExecuteStep"
  | stepValidateRequest => "StepValidateRequest"
  | stepValidateResponse => "StepValidateResponse"
  | executionStatus => "ExecutionStatusResponse"
  | stepNamesRequest => "StepNamesRequest"
  | stepNamesResponse => "StepNamesResponse"
  | killProcess => "KillProcessRequest"
  | storeInit .suite => "SuiteDataStoreInit"
  | storeInit .spec => "SpecDataStoreInit"
  | storeInit .scenario => "ScenarioDataStoreInit"

def ofName? (name : String) : Option MessageType := all.find? (·.name = name)

/-- The field that carries the payload of a message of this type. -/
def payloadName : MessageType → String
  | lifecycle .executionStarting => "executionStartingRequest"
  | lifecycle .executionEnding => "executionEndingRequest"
  | lifecycle .specStarting => "specExecutionStartingRequest"
  | lifecycle .specEnding => "specExecutionEndingRequest"
  | lifecycle .scenarioStarting => "scenarioExecutionStartingRequest"
  | lifecycle .scenarioEnding => "scenarioExecutionEndingRequest"
  | lifecycle .stepStarting => "stepExecutionStartingRequest"
  | lifecycle .stepEnding => "stepExecutionEndingRequest"
  | executeStep => "executeStepRequest"
  | stepValidateRequest => "stepValidateRequest"
  | stepValidateResponse => "stepValidateResponse"
  | executionStatus => "executionStatusResponse"
  | stepNamesRequest => "stepNamesRequest"
  | stepNamesResponse => "stepNamesResponse"
  | killProcess => "killProcessRequest"
  | storeInit .suite => "suiteDataStoreInitRequest"
  | storeInit .spec => "specDataStoreInitRequest"
  | storeInit .scenario => "scenarioDataStoreInitRequest"

def ofPayloadName? (name : String) : Option MessageType := all.find? (·.payloadName = name)

/-- The number that stands for the type on the wire. -/
def number : MessageType → Nat
  | lifecycle .executionStarting => 0
  | lifecycle .specStarting => 1
  | lifecycle .specEnding => 2
  | lifecycle .scenarioStarting => 3
  | lifecycle .scenarioEnding => 4
  | lifecycle .stepStarting => 5
  | lifecycle .stepEnding => 6
  | executeStep => 7
  | lifecycle .executionEnding => 8
  | stepValidateRequest => 9
  | stepValidateResponse => 10
  | executionStatus => 11
  | stepNamesRequest => 12
  | stepNamesResponse => 13
  | killProcess => 14
  | storeInit .scenario => 16
  | storeInit .spec => 17
  | storeInit .suite => 18

/-- The tag of the wire field that carries the payload of a message of this type. -/
def payloadTag : MessageType → Nat
  | lifecycle .executionStarting => 3
  | lifecycle .specStarting => 4
  | lifecycle .specEnding => 5
  | lifecycle .scenarioStarting => 6
  | lifecycle .scenarioEnding => 7
  | lifecycle .stepStarting => 8
  | lifecycle .stepEnding => 9
  | executeStep => 10
  | lifecycle .executionEnding => 11
  | stepValidateRequest => 12
  | stepValidateResponse => 13
  | executionStatus => 14
  | stepNamesRequest => 15
  | stepNamesResponse => 16
  | killProcess => 18
  | storeInit .scenario => 19
  | storeInit .spec => 20
  | storeInit .suite => 21

def ofNumber? (number : Int) : Option MessageType := all.find? (·.number = number)

/-- The type of the answer to a request; answers themselves have none. -/
def responseType? : MessageType → Option MessageType
  | lifecycle _ | executeStep | storeInit _ | killProcess => some executionStatus
  | stepValidateRequest => some stepValidateResponse
  | stepNamesRequest => some stepNamesResponse
  | executionStatus | stepValidateResponse | stepNamesResponse => none

theorem ofNumber?_number (type : MessageType) : ofNumber? type.number = some type := by
  cases type with
  | lifecycle event => cases event <;> decide
  | storeInit scope => cases scope <;> decide
  | _ => decide

theorem payloadTag_injective {a b : MessageType} (h : a.payloadTag = b.payloadTag) : a = b := by
  have : ∀ a ∈ all, ∀ b ∈ all, a.payloadTag = b.payloadTag → a = b := by decide
  exact this a (mem_all a) b (mem_all b) h

end MessageType

end StepRunner
