import StepRunner.Hook.Error
import StepRunner.Step.Text
import StepRunner.Text.Quoted
import StepRunner.World

namespace StepRunner

structure Step where
  text : String
  body : List String → Action (Except HookError Unit)

/-- The number of parameters. -/
def Step.arity (step : Step) : Nat := StepText.arity step.text.toList

/-- A step as it shows in logs. -/
def Step.show (step : Step) : String :=
  "StepHandle \x7b text: " ++ Text.quoted step.text ++ ", arity: " ++ toString step.arity ++ " \x7d"

def Step.ofText (text : String) (body : List String → Action (Except HookError Unit)) : Step :=
  ⟨String.ofList (StepText.normalize text.toList), body⟩

/-- Steps in the order they came in. -/
structure StepRegistry where
  steps : List Step
  nodup : (steps.map (·.text)).Nodup

namespace StepRegistry

def empty : StepRegistry := ⟨[], List.nodup_nil⟩

def texts (registry : StepRegistry) : List String := registry.steps.map (·.text)

def get? (registry : StepRegistry) (text : String) : Option Step :=
  registry.steps.find? (·.text = text)

def contains (registry : StepRegistry) (text : String) : Bool := text ∈ registry.texts

def count (registry : StepRegistry) : Nat := registry.steps.length

def register (registry : StepRegistry) (step : Step) : StepRegistry :=
  if h : step.text ∈ registry.texts then registry
  else
    ⟨registry.steps ++ [step], by
      rw [List.map_append, List.nodup_append]
      refine ⟨registry.nodup, by simp, ?_⟩
      intro text htext other hother heq
      simp only [List.map_cons, List.map_nil, List.mem_singleton] at hother
      exact h (hother ▸ heq ▸ htext)⟩

def ofList (steps : List Step) : StepRegistry := steps.foldl register empty

end StepRegistry

end StepRunner
