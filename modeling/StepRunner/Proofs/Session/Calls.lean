import StepRunner.Executor
import StepRunner.Proofs.Store.History

namespace StepRunner

/-- The moment whose hooks each request has called. -/
def LifecycleEvent.moments : List (LifecycleEvent × HookCategory) :=
  [(.executionStarting, .beforeSuite), (.executionEnding, .afterSuite),
    (.specStarting, .beforeSpec), (.specEnding, .afterSpec),
    (.scenarioStarting, .beforeScenario), (.scenarioEnding, .afterScenario),
    (.stepStarting, .beforeStep), (.stepEnding, .afterStep)]

theorem LifecycleEvent.mem_moments_iff {event : LifecycleEvent} {category : HookCategory} :
    (event, category) ∈ moments ↔ category = event.category := by
  cases event <;> cases category <;> decide

/-- A body that was called, and the accesses it made to the stores. -/
structure Invocation where
  call : Event
  accesses : List Access

/-- The invocation as the journal has it. -/
def Invocation.events (invocation : Invocation) : List Event :=
  invocation.call :: invocation.accesses.map Access.event

/-- The invocations are all that was called and done, and the stores changed by their accesses. -/
structure World.Leads (before : World) (invocations : List Invocation) (after : World) : Prop where
  trace : after.trace = before.trace ++ invocations.flatMap Invocation.events
  stores : before.stores.Undergoes (invocations.flatMap (·.accesses)) after.stores

namespace World.Leads

variable {before middle after : World} {first second : List Invocation}

theorem nil (world : World) : world.Leads [] world := ⟨by simp, .nil _⟩

theorem append (h : before.Leads first middle) (h' : middle.Leads second after) :
    before.Leads (first ++ second) after where
  trace := by rw [h'.trace, h.trace, List.flatMap_append, List.append_assoc]
  stores := by
    rw [List.flatMap_append]
    exact h.stores.append h'.stores

/-- Reading the clock is nothing that was done. -/
theorem of_now (h : before.now.2.Leads first after) : before.Leads first after :=
  ⟨h.trace, h.stores⟩

end World.Leads

/-- The body did not come back well. -/
def Outcome.fails : Outcome (Except HookError Unit) → Bool
  | .done (.ok ()) => false
  | .done (.error _) | .panicked _ => true

namespace Action

theorem exists_leads {α : Type} (action : Action α) (call : Event) (hcall : call.isNote = false)
    (world : World) : ∃ accesses, action.Makes accesses (action.run (world.record call)).1 ∧
      world.Leads [⟨call, accesses⟩] (action.run (world.record call)).2 := by
  obtain ⟨accesses, hmakes, hstores, htrace⟩ := action.exists_makes (world.record call)
  refine ⟨accesses, hmakes, ?_, ?_⟩
  · rw [htrace, World.trace_record _ hcall, List.append_assoc, List.flatMap_singleton]
    rfl
  · rw [List.flatMap_singleton]
    exact hstores

theorem guarded_eq (body : Action (Except HookError Unit)) (location : String) (world : World) :
    (body.guarded location world).1.isSome = (body.run world).1.fails ∧
      (body.guarded location world).2 = (body.run world).2 := by
  rw [guarded]
  rcases body.run world with ⟨(value | reason), after⟩
  · cases value <;> exact ⟨rfl, rfl⟩
  · exact ⟨rfl, rfl⟩

/-- A guard changes nothing about what the body does. -/
theorem exists_leads_guarded (body : Action (Except HookError Unit)) (location : String)
    (call : Event) (hcall : call.isNote = false) (world : World) :
    ∃ accesses outcome, body.Makes accesses outcome ∧
      outcome.fails = (body.guarded location (world.record call)).1.isSome ∧
      world.Leads [⟨call, accesses⟩] (body.guarded location (world.record call)).2 := by
  obtain ⟨accesses, hmakes, hleads⟩ := body.exists_leads call hcall world
  obtain ⟨hfails, hafter⟩ := body.guarded_eq location (world.record call)
  rw [← hafter] at hleads
  exact ⟨accesses, _, hmakes, hfails.symm, hleads⟩

end Action

/-- Hooks called in turn, up to the first that fails, and whether one did. -/
inductive Hook.Calls (info : ExecutionInfo) : List Hook → List Invocation → Bool → Prop
  | nil : Calls info [] [] false
  | stop {hook : Hook} {hooks : List Hook} {accesses : List Access}
      {outcome : Outcome (Except HookError Unit)} (hmakes : (hook.body info).Makes accesses outcome)
      (hfails : outcome.fails = true) :
      Calls info (hook :: hooks) [⟨.hookCalled hook.name info, accesses⟩] true
  | next {hook : Hook} {hooks : List Hook} {accesses : List Access}
      {outcome : Outcome (Except HookError Unit)} {invocations : List Invocation} {failed : Bool}
      (hmakes : (hook.body info).Makes accesses outcome) (hpasses : outcome.fails = false)
      (hrest : Calls info hooks invocations failed) :
      Calls info (hook :: hooks) (⟨.hookCalled hook.name info, accesses⟩ :: invocations) failed

theorem Hook.exists_calls (info : ExecutionInfo) (hooks : List Hook) (world : World) :
    ∃ invocations, Hook.Calls info hooks invocations (Hook.callAll info hooks world).1.isSome ∧
      world.Leads invocations (Hook.callAll info hooks world).2 := by
  induction hooks generalizing world with
  | nil => exact ⟨[], .nil, .nil world⟩
  | cons hook hooks ih =>
    obtain ⟨accesses, outcome, hmakes, hfails, hleads⟩ :=
      (hook.body info).exists_leads_guarded hook.location (.hookCalled hook.name info) rfl world
    have hcall : (hook.body info).guarded hook.location (world.record (.hookCalled hook.name info))
        = hook.call info world := rfl
    rw [hcall] at hfails hleads
    rw [callAll]
    generalize hook.call info world = called at hfails hleads
    obtain ⟨failure, after⟩ := called
    cases failure with
    | some failure => exact ⟨_, .stop hmakes hfails, hleads⟩
    | none =>
      obtain ⟨invocations, hcalls, hrest⟩ := ih after
      exact ⟨_, .next hmakes hfails hcalls, hleads.append hrest⟩

namespace Executor

/-- After a failure the grabber is called, if there is one. -/
inductive Grabs (executor : Executor) : Bool → List Invocation → Prop
  | passed : Grabs executor false []
  | absent (hnone : executor.grabber = none) : Grabs executor true []
  | grabbed {grabber : Action (Option Bytes)} {accesses : List Access}
      {outcome : Outcome (Option Bytes)} (hsome : executor.grabber = some grabber)
      (hmakes : grabber.Makes accesses outcome) :
      Grabs executor true [⟨.grabberCalled, accesses⟩]

variable (executor : Executor) (world : World)

theorem exists_grabs_of_grab : ∃ grabbed, executor.Grabs true grabbed ∧
    world.Leads grabbed (executor.grab world).2 := by
  rw [grab]
  cases hgrabber : executor.grabber with
  | none => exact ⟨[], .absent hgrabber, .nil world⟩
  | some grabber =>
    obtain ⟨accesses, hmakes, hleads⟩ := grabber.exists_leads .grabberCalled rfl world
    exact ⟨_, .grabbed hgrabber hmakes, hleads⟩

theorem exists_grabs_of_report (started : Nat) (failure : Option Failure) :
    ∃ grabbed, executor.Grabs failure.isSome grabbed ∧
      world.Leads grabbed (executor.report started failure world).2 := by
  cases failure with
  | none => exact ⟨[], .passed, .of_now (.nil world.now.2)⟩
  | some failure =>
    obtain ⟨grabbed, hgrabs, hleads⟩ := executor.exists_grabs_of_grab world.now.2
    refine ⟨grabbed, hgrabs, ?_⟩
    have hafter : (executor.report started (some failure) world).2 =
        (executor.grab world.now.2).2 := by
      simp only [report, elapsed]
      rcases executor.grab world.now.2 with ⟨(screenshot | reason), after⟩
      · cases screenshot <;> rfl
      · rfl
    rw [hafter]
    exact hleads.of_now

theorem exists_calls_of_executeHooks (hooks : HookSet) (info : ExecutionInfo) :
    ∃ failed invocations grabbed, Hook.Calls info hooks.hooks invocations failed ∧
      executor.Grabs failed grabbed ∧
      world.Leads (invocations ++ grabbed) (executor.executeHooks hooks info world).2 := by
  obtain ⟨invocations, hcalls, hleads⟩ := Hook.exists_calls info hooks.hooks world.now.2
  obtain ⟨grabbed, hgrabs, hgrab⟩ := executor.exists_grabs_of_report
    (Hook.callAll info hooks.hooks world.now.2).2 world.now.1
    (Hook.callAll info hooks.hooks world.now.2).1
  exact ⟨_, invocations, grabbed, hcalls, hgrabs, (hleads.append hgrab).of_now⟩

theorem exists_makes_of_executeStep (step : Step) (arguments : List String) :
    ∃ accesses outcome grabbed, (step.body arguments).Makes accesses outcome ∧
      executor.Grabs outcome.fails grabbed ∧
      world.Leads (⟨.stepCalled step.text arguments, accesses⟩ :: grabbed)
        (executor.executeStep step arguments world).2 := by
  obtain ⟨accesses, outcome, hmakes, hfails, hleads⟩ :=
    (step.body arguments).exists_leads_guarded step.location (.stepCalled step.text arguments) rfl
      world.now.2
  obtain ⟨grabbed, hgrabs, hgrab⟩ := executor.exists_grabs_of_report
    (step.call arguments world.now.2).2 world.now.1 (step.call arguments world.now.2).1
  refine ⟨accesses, outcome, grabbed, hmakes, ?_, (hleads.append hgrab).of_now⟩
  rw [hfails]
  exact hgrabs

end Executor

end StepRunner
