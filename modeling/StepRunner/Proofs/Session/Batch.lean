import StepRunner.Proofs.Session.Panic
import StepRunner.Proofs.Session.Calls

namespace StepRunner

/-- A body, or a grabber, was called. -/
def Event.isCall : Event → Bool
  | hookCalled _ _ | stepCalled _ _ | grabberCalled => true
  | stored _ _ | noted _ => false

/-- All that was called, in order. -/
def World.calls (world : World) : List Event := world.trace.filter Event.isCall

/-- What a body that did not come back well complains of. -/
def Outcome.complaint? : Outcome (Except HookError Unit) → Option String
  | .done (.ok ()) => none
  | .done (.error e) => some e.message
  | .panicked reason => some reason.message

/-- Of all that an invocation does only the call itself is a call. -/
theorem Invocation.filter_events (invocation : Invocation) :
    invocation.events.filter Event.isCall = [invocation.call].filter Event.isCall := by
  have haccesses : (invocation.accesses.map Access.event).filter Event.isCall = [] := by
    rw [List.filter_map, List.map_eq_nil_iff, List.filter_eq_nil_iff]
    intro access _ hcall
    cases hcall
  rw [events, List.filter_cons, List.filter_cons, haccesses]
  rfl

theorem World.Leads.calls {before after : World} {invocations : List Invocation}
    (h : before.Leads invocations after) :
    after.calls = before.calls ++ (invocations.map Invocation.call).filter Event.isCall := by
  rw [World.calls, h.trace, List.filter_append, List.filter_flatMap]
  simp only [Invocation.filter_events]
  rw [← List.filter_flatMap, ← List.map_eq_flatMap]
  rfl

namespace Action

variable {body : Action (Except HookError Unit)} {location : String} {world left : World}

theorem guarded_of_pass (h : body.run world = (.done (.ok ()), left)) :
    body.guarded location world = (none, left) := by
  rw [guarded, h]

/-- A guarded failure is told with the body's complaint and location. -/
theorem exists_failure_of_fails {ended : Outcome (Except HookError Unit)} (location : String)
    (h : body.run world = (ended, left)) (hfails : ended.fails = true) :
    ∃ failure trace, body.guarded location world = (some failure, left) ∧
      ended.complaint? = some failure.message ∧
      failure.stackTrace = Failure.located trace location := by
  rw [guarded, h]
  cases ended with
  | panicked reason => exact ⟨_, _, rfl, rfl, rfl⟩
  | done value =>
    cases value with
    | error e => exact ⟨_, _, rfl, rfl, rfl⟩
    | ok => cases hfails

end Action

theorem Outcome.eq_ok_of_not_fails {ended : Outcome (Except HookError Unit)}
    (h : ended.fails = false) : ended = .done (.ok ()) := by
  cases ended with
  | panicked reason => cases h
  | done value =>
    cases value with
    | error e => cases h
    | ok => rfl

namespace Hook

/-- How the hook ends if it is called in this world, and the world it leaves. -/
def ends (hook : Hook) (info : ExecutionInfo) (world : World) :
    Outcome (Except HookError Unit) × World :=
  (hook.body info).run (world.record (.hookCalled hook.name info))

/-- Each hook comes back well from the world that the one before it left; the last leaves `left`. -/
inductive AllPass (info : ExecutionInfo) : List Hook → World → (left : World) → Prop
  | nil (world : World) : AllPass info [] world world
  | cons {hook : Hook} {hooks : List Hook} {world middle left : World}
      (hends : hook.ends info world = (.done (.ok ()), middle))
      (hrest : AllPass info hooks middle left) : AllPass info (hook :: hooks) world left

/-- The first hook not to come back well is `failing`, after those of `passed`; it leaves `left`. -/
structure FailsFirst (info : ExecutionInfo) (batch : List Hook) (world : World)
    (passed : List Hook) (failing : Hook) (ended : Outcome (Except HookError Unit))
    (left : World) : Prop where
  split : ∃ skipped, batch = passed ++ failing :: skipped
  ends : ∃ middle, AllPass info passed world middle ∧ failing.ends info middle = (ended, left)
  fails : ended.fails = true

variable {info : ExecutionInfo} {hook : Hook} {hooks : List Hook} {world left : World}

theorem calls_of_ends {ended : Outcome (Except HookError Unit)}
    (h : hook.ends info world = (ended, left)) :
    left.calls = world.calls ++ [.hookCalled hook.name info] := by
  obtain ⟨accesses, -, hleads⟩ :=
    (hook.body info).exists_leads (.hookCalled hook.name info) rfl world
  rw [← ends, h] at hleads
  exact hleads.calls

theorem call_of_pass (h : hook.ends info world = (.done (.ok ()), left)) :
    hook.call info world = (none, left) :=
  Action.guarded_of_pass h

namespace AllPass

theorem calls (h : AllPass info hooks world left) :
    left.calls = world.calls ++ hooks.map fun hook => .hookCalled hook.name info := by
  induction h with
  | nil world => exact (List.append_nil _).symm
  | cons hends _ ih =>
    rw [ih, calls_of_ends hends, List.append_assoc]
    rfl

/-- Calling goes on after hooks that come back well, from the world they leave. -/
theorem callAll_append (h : AllPass info hooks world left) (rest : List Hook) :
    callAll info (hooks ++ rest) world = callAll info rest left := by
  induction h with
  | nil world => rfl
  | cons hends _ ih =>
    rw [List.cons_append, callAll, call_of_pass hends]
    exact ih

theorem callAll (h : AllPass info hooks world left) : callAll info hooks world = (none, left) := by
  have hall := h.callAll_append []
  rw [List.append_nil] at hall
  exact hall

end AllPass

namespace FailsFirst

variable {passed : List Hook} {failing : Hook} {ended : Outcome (Except HookError Unit)}

theorem calls (h : FailsFirst info hooks world passed failing ended left) :
    left.calls =
      world.calls ++ (passed ++ [failing]).map fun hook => .hookCalled hook.name info := by
  obtain ⟨middle, hpassed, hends⟩ := h.ends
  rw [calls_of_ends hends, hpassed.calls, List.append_assoc, List.map_append]
  rfl

theorem exists_failure (h : FailsFirst info hooks world passed failing ended left) :
    ∃ failure trace, callAll info hooks world = (some failure, left) ∧
      ended.complaint? = some failure.message ∧
      failure.stackTrace = Failure.located trace failing.location := by
  obtain ⟨skipped, rfl⟩ := h.split
  obtain ⟨middle, hpassed, hends⟩ := h.ends
  obtain ⟨failure, trace, hguarded, htells⟩ :=
    Action.exists_failure_of_fails failing.location hends h.fails
  have hcall : failing.call info middle = (some failure, left) := hguarded
  refine ⟨failure, trace, ?_, htells⟩
  rw [hpassed.callAll_append, Hook.callAll, hcall]

theorem cons {middle : World} (hends : hook.ends info world = (.done (.ok ()), middle))
    (h : FailsFirst info hooks middle passed failing ended left) :
    FailsFirst info (hook :: hooks) world (hook :: passed) failing ended left := by
  obtain ⟨⟨skipped, rfl⟩, ⟨last, hpassed, hfailing⟩, hfails⟩ := h
  exact ⟨⟨skipped, rfl⟩, ⟨last, .cons hends hpassed, hfailing⟩, hfails⟩

end FailsFirst

theorem allPass_or_failsFirst (info : ExecutionInfo) (hooks : List Hook) (world : World) :
    (∃ left, AllPass info hooks world left) ∨
      ∃ passed failing ended left, FailsFirst info hooks world passed failing ended left := by
  induction hooks generalizing world with
  | nil => exact .inl ⟨world, .nil world⟩
  | cons hook hooks ih =>
    rcases hends : hook.ends info world with ⟨ended, middle⟩
    cases hfails : ended.fails with
    | true => exact .inr ⟨[], hook, ended, middle, ⟨hooks, rfl⟩, ⟨world, .nil world, hends⟩, hfails⟩
    | false =>
      obtain rfl := Outcome.eq_ok_of_not_fails hfails
      rcases ih middle with ⟨left, hall⟩ | ⟨passed, failing, ended, left, hfirst⟩
      · exact .inl ⟨left, .cons hends hall⟩
      · exact .inr ⟨hook :: passed, failing, ended, left, hfirst.cons hends⟩

end Hook

namespace Executor

variable {executor : Executor}

theorem Grabs.calls {grabbed : List Invocation} (h : executor.Grabs true grabbed) :
    (grabbed.map Invocation.call).filter Event.isCall =
      executor.grabber.toList.map fun _ => .grabberCalled := by
  cases h with
  | absent hnone => rw [hnone]; rfl
  | grabbed hsome => rw [hsome]; rfl

variable (executor) in
/-- A failure is reported with what it tells, unless the grabber panics. -/
theorem report_of_failure (started : Nat) (failure : Failure) (world : World) :
    let outcome := executor.report started (some failure) world
    (∃ result, outcome.1 = .done result ∧ result.failed = true ∧
        result.errorMessage = some failure.message ∧
        result.stackTrace = some failure.stackTrace) ∨
      ∃ reason, outcome.1 = .panicked reason ∧ GrabberPanics executor.grabber reason outcome.2 := by
  intro outcome
  cases houtcome : outcome.1 with
  | panicked reason =>
    have hreport : outcome = (.panicked reason, outcome.2) := Prod.ext houtcome rfl
    exact .inr ⟨reason, rfl, grabberPanics_of_report hreport⟩
  | done result =>
    refine .inl ⟨result, rfl, ?_⟩
    simp only [outcome, report] at houtcome
    rcases hgrab : executor.grab (elapsed started world).2 with ⟨(screenshot | reason), after⟩
    · rw [hgrab] at houtcome
      cases screenshot <;> cases houtcome <;> exact ⟨rfl, rfl, rfl⟩
    · rw [hgrab] at houtcome
      cases houtcome

variable {hooks : HookSet} {info : ExecutionInfo} {world left : World}

variable (executor hooks info world) in
theorem executeHooks_eq_report : executor.executeHooks hooks info world =
    executor.report world.now.1 (Hook.callAll info hooks.hooks world.now.2).1
      (Hook.callAll info hooks.hooks world.now.2).2 := rfl

end Executor

namespace Processor

variable {run : Outcome ExecutionResult × World}

theorem status_of_done (id : Int64) {result : ExecutionResult} (h : run.1 = .done result) :
    (status id run).1 = .done (.ok (.executionStatus id result)) := by
  obtain ⟨outcome, after⟩ := run
  subst h
  rfl

theorem status_of_panicked (id : Int64) {reason : Panic} (h : run.1 = .panicked reason) :
    (status id run).1 = .panicked reason := by
  obtain ⟨outcome, after⟩ := run
  subst h
  rfl

end Processor

namespace Dispatcher

theorem dispatch_hooks (hooks : HookRegistry) (steps : StepRegistry) (executor : Executor)
    (id : Int64) (event : LifecycleEvent) (info : Option ExecutionInfo) (world : World) :
    (standard hooks steps executor).dispatch ⟨id, .lifecycle event, .lifecycle event info⟩ world =
      Processor.status id
        (executor.executeHooks (hooks.get event.category) (info.getD .empty) world) := by
  rw [dispatch, handler?_standard]
  exact Processor.process_hooks event hooks executor id info world

end Dispatcher

end StepRunner
