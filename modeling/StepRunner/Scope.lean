namespace StepRunner

/-- A suite runs specs, and a spec runs scenarios. -/
inductive Scope where
  | suite
  | spec
  | scenario
  deriving DecidableEq, Repr

end StepRunner
