namespace StepRunner

structure SpecInfo where
  name : String
  fileName : String
  isFailed : Bool
  tags : List String
  deriving DecidableEq, Repr

structure ScenarioInfo where
  name : String
  isFailed : Bool
  tags : List String
  deriving DecidableEq, Repr

structure StepInfo where
  stepText : String
  isFailed : Bool
  deriving DecidableEq, Repr

/-- The runner hands these to hooks as it got them. -/
structure ExecutionInfo where
  currentSpec : Option SpecInfo
  currentScenario : Option ScenarioInfo
  currentStep : Option StepInfo
  stacktrace : Option String
  deriving DecidableEq, Repr

namespace ExecutionInfo

/-- The context of a request that carried none. -/
def empty : ExecutionInfo := ⟨none, none, none, none⟩

def specName? (info : ExecutionInfo) : Option String := info.currentSpec.map (·.name)

def scenarioName? (info : ExecutionInfo) : Option String := info.currentScenario.map (·.name)

end ExecutionInfo

end StepRunner
