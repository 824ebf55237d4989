import StepRunner.Hook.Error
import StepRunner.Message.Type
import StepRunner.Text.Quoted
import StepRunner.World

namespace StepRunner

inductive HookCategory where
  | beforeSuite
  | afterSuite
  | beforeSpec
  | afterSpec
  | beforeScenario
  | afterScenario
  | beforeStep
  | afterStep
  deriving DecidableEq, Repr

namespace HookCategory

def all : List HookCategory :=
  [beforeSuite, afterSuite, beforeSpec, afterSpec, beforeScenario, afterScenario, beforeStep, afterStep]

def name : HookCategory → String
  | beforeSuite => "before suite"
  | afterSuite => "after suite"
  | beforeSpec => "before spec"
  | afterSpec => "after spec"
  | beforeScenario => "before scenario"
  | afterScenario => "after scenario"
  | beforeStep => "before step"
  | afterStep => "after step"

end HookCategory

def LifecycleEvent.category : LifecycleEvent → HookCategory
  | executionStarting => .beforeSuite
  | executionEnding => .afterSuite
  | specStarting => .beforeSpec
  | specEnding => .afterSpec
  | scenarioStarting => .beforeScenario
  | scenarioEnding => .afterScenario
  | stepStarting => .beforeStep
  | stepEnding => .afterStep

structure Hook where
  name : String
  body : ExecutionInfo → Action (Except HookError Unit)

/-- A hook as it shows in logs. -/
def Hook.show (hook : Hook) : String := "HookHandle \x7b name: " ++ Text.quoted hook.name ++ " \x7d"

/-- Hooks in the order they came in. -/
structure HookSet where
  hooks : List Hook
  nodup : (hooks.map (·.name)).Nodup

namespace HookSet

def empty : HookSet := ⟨[], List.nodup_nil⟩

def names (set : HookSet) : List String := set.hooks.map (·.name)

def size (set : HookSet) : Nat := set.hooks.length

/-- The set with the hook added, unless its name is taken, and whether it was added. -/
def insert (set : HookSet) (hook : Hook) : HookSet × Bool :=
  if h : hook.name ∈ set.names then (set, false)
  else
    (⟨set.hooks ++ [hook], by
      rw [List.map_append, List.nodup_append]
      refine ⟨set.nodup, by simp, ?_⟩
      intro name hname other hother heq
      simp only [List.map_cons, List.map_nil, List.mem_singleton] at hother
      exact h (hother ▸ heq ▸ hname)⟩, true)

def ofList (hooks : List Hook) : HookSet := hooks.foldl (fun set hook => (set.insert hook).1) empty

end HookSet

structure HookRegistry where
  get : HookCategory → HookSet

namespace HookRegistry

def empty : HookRegistry := ⟨fun _ => .empty⟩

def register (registry : HookRegistry) (category : HookCategory) (hook : Hook) : HookRegistry :=
  ⟨fun c => if c = category then ((registry.get c).insert hook).1 else registry.get c⟩

def ofList (hooks : List (HookCategory × Hook)) : HookRegistry :=
  hooks.foldl (fun registry (category, hook) => registry.register category hook) empty

def count (registry : HookRegistry) : Nat :=
  (HookCategory.all.flatMap fun category => (registry.get category).hooks).length

end HookRegistry

end StepRunner
