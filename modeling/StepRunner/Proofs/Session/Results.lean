import StepRunner.Proofs.Message.RoundTrip
import StepRunner.Proofs.Session.Batch
import StepRunner.Proofs.Session.Interpreter
import StepRunner.Runner

namespace StepRunner

/-- A guard tells of a failure exactly if the body does not come back well. -/
theorem Action.exists_failure_iff (body : Action (Except HookError Unit)) (location : String)
    (world left : World) :
    (∃ failure, body.guarded location world = (some failure, left)) ↔
      ∃ ended, body.run world = (ended, left) ∧ ended.fails = true := by
  obtain ⟨hfails, hafter⟩ := body.guarded_eq location world
  constructor
  · rintro ⟨failure, hguarded⟩
    rw [hguarded] at hfails hafter
    exact ⟨_, Prod.ext rfl hafter.symm, hfails.symm⟩
  · rintro ⟨ended, hrun, hended⟩
    rw [hrun] at hfails hafter
    obtain ⟨failure, hfailure⟩ := Option.isSome_iff_exists.mp (hfails.trans hended)
    exact ⟨failure, Prod.ext hfailure hafter⟩

theorem Hook.exists_failure_iff (info : ExecutionInfo) (hooks : List Hook) (world left : World) :
    (∃ failure, Hook.callAll info hooks world = (some failure, left)) ↔
      ∃ passed failing ended, FailsFirst info hooks world passed failing ended left := by
  constructor
  · rintro ⟨failure, hcalled⟩
    rcases allPass_or_failsFirst info hooks world with
      ⟨other, hall⟩ | ⟨passed, failing, ended, other, hfirst⟩
    · rw [hall.callAll] at hcalled
      cases hcalled
    · obtain ⟨found, trace, hfound, -⟩ := hfirst.exists_failure
      rw [hfound] at hcalled
      cases hcalled
      exact ⟨passed, failing, ended, hfirst⟩
  · rintro ⟨passed, failing, ended, hfirst⟩
    obtain ⟨failure, trace, hcalled, -⟩ := hfirst.exists_failure
    exact ⟨failure, hcalled⟩

/-- How the step ends if it is called in this world, and the world it leaves. -/
def Step.ends (step : Step) (arguments : List String) (world : World) :
    Outcome (Except HookError Unit) × World :=
  (step.body arguments).run (world.record (.stepCalled step.text arguments))

/-- A hook of the request's moment, or its step, did not come back well and left `left`. -/
inductive Runner.BodyFails (runner : Runner) : Message → World → (left : World) → Prop
  | hook {id : Int64} {event : LifecycleEvent} {info : Option ExecutionInfo} {passed : List Hook}
      {failing : Hook} {ended : Outcome (Except HookError Unit)} {before left : World}
      (hfirst : Hook.FailsFirst (info.getD .empty) (runner.hooks.get event.category).hooks
        before.now.2 passed failing ended left) :
      BodyFails runner ⟨id, .lifecycle event, .lifecycle event info⟩ before left
  | step {id : Int64} {sent : ExecuteStepRequest} {step : Step}
      {ended : Outcome (Except HookError Unit)} {before left : World}
      (hstep : runner.steps.get? sent.parsedStepText = some step)
      (hends : step.ends sent.parameters before.now.2 = (ended, left))
      (hfails : ended.fails = true) :
      BodyFails runner ⟨id, .executeStep, .executeStep sent⟩ before left

namespace Runner

/-- Calls what a request has called, up to the first body that fails. -/
def called (runner : Runner) (request : Message) (before : World) : Option Failure × World :=
  match request.type, request.payload with
  | .lifecycle event, .lifecycle sent info =>
    if sent = event then
      Hook.callAll (info.getD .empty) (runner.hooks.get event.category).hooks before.now.2
    else (none, before)
  | .executeStep, .executeStep sent =>
    match runner.steps.get? sent.parsedStepText with
    | some step => step.call sent.parameters before.now.2
    | none => (none, before)
  | _, _ => (none, before)

variable {runner : Runner} {request : Message} {before left : World}

variable (runner) in
theorem called_lifecycle (id : Int64) (event : LifecycleEvent) (info : Option ExecutionInfo)
    (before : World) :
    runner.called ⟨id, .lifecycle event, .lifecycle event info⟩ before =
      Hook.callAll (info.getD .empty) (runner.hooks.get event.category).hooks before.now.2 :=
  if_pos rfl

theorem called_executeStep {sent : ExecuteStepRequest} {step : Step}
    (h : runner.steps.get? sent.parsedStepText = some step) (id : Int64) (before : World) :
    runner.called ⟨id, .executeStep, .executeStep sent⟩ before =
      step.call sent.parameters before.now.2 := by
  simp only [called, h]

theorem bodyFails_iff : runner.BodyFails request before left ↔
    ∃ failure, runner.called request before = (some failure, left) := by
  constructor
  · intro h
    cases h with
    | hook hfirst =>
      rw [called_lifecycle, Hook.exists_failure_iff]
      exact ⟨_, _, _, hfirst⟩
    | step hstep hends hfails =>
      rw [called_executeStep hstep, Step.call, Action.exists_failure_iff]
      exact ⟨_, hends, hfails⟩
  · obtain ⟨id, type, payload⟩ := request
    rintro ⟨failure, hcalled⟩
    simp only [called] at hcalled
    split at hcalled
    · split at hcalled
      · next hsent =>
        subst hsent
        obtain ⟨passed, failing, ended, hfirst⟩ :=
          (Hook.exists_failure_iff ..).mp ⟨failure, hcalled⟩
        exact .hook hfirst
      · cases hcalled
    · split at hcalled
      · next step hstep =>
        rw [Step.call] at hcalled
        obtain ⟨ended, hends, hfails⟩ := (Action.exists_failure_iff ..).mp ⟨failure, hcalled⟩
        exact .step hstep hends hfails
      · cases hcalled
    · cases hcalled

theorem not_bodyFails_of_called (h : (runner.called request before).1 = none) :
    ¬ ∃ left, runner.BodyFails request before left := by
  rintro ⟨left, hfails⟩
  obtain ⟨failure, hcalled⟩ := bodyFails_iff.mp hfails
  rw [hcalled] at h
  cases h

instance (runner : Runner) (request : Message) (before : World) :
    Decidable (∃ left, runner.BodyFails request before left) :=
  decidable_of_iff ((runner.called request before).1.isSome = true) (by
    simp only [bodyFails_iff, Option.isSome_iff_exists]
    constructor
    · rintro ⟨failure, hfailure⟩
      exact ⟨_, failure, Prod.ext hfailure rfl⟩
    · rintro ⟨left, failure, hcalled⟩
      exact ⟨failure, congrArg Prod.fst hcalled⟩)

/-- Only one body fails a request. -/
theorem BodyFails.eq {other : World} (h : runner.BodyFails request before left)
    (h' : runner.BodyFails request before other) : left = other := by
  obtain ⟨failure, hcalled⟩ := bodyFails_iff.mp h
  obtain ⟨failure', hcalled'⟩ := bodyFails_iff.mp h'
  rw [hcalled] at hcalled'
  exact congrArg Prod.snd hcalled'

end Runner

def Event.isGrab : Event → Bool
  | grabberCalled => true
  | hookCalled _ _ | stepCalled _ _ | stored _ _ | noted _ => false

/-- How many times the grabber was called. -/
def World.grabs (world : World) : Nat := world.calls.countP Event.isGrab

theorem Hook.grabs_of_calls {info : ExecutionInfo} {hooks : List Hook} {world left : World}
    (h : left.calls = world.calls ++ hooks.map fun hook => .hookCalled hook.name info) :
    left.grabs = world.grabs := by
  rw [World.grabs, h, List.countP_append, List.countP_map]
  exact Nat.add_eq_left.mpr (List.countP_eq_zero.mpr fun _ _ => Bool.false_ne_true)

theorem Hook.grabs_callAll (info : ExecutionInfo) (hooks : List Hook) (world : World) :
    (callAll info hooks world).2.grabs = world.grabs := by
  rcases allPass_or_failsFirst info hooks world with
    ⟨left, hall⟩ | ⟨passed, failing, ended, left, hfirst⟩
  · rw [hall.callAll]
    exact grabs_of_calls hall.calls
  · obtain ⟨failure, trace, hcalled, -⟩ := hfirst.exists_failure
    rw [hcalled]
    exact grabs_of_calls hfirst.calls

theorem Step.grabs_call (step : Step) (arguments : List String) (world : World) :
    (step.call arguments world).2.grabs = world.grabs := by
  obtain ⟨accesses, outcome, -, -, hleads⟩ := (step.body arguments).exists_leads_guarded
    step.location (.stepCalled step.text arguments) rfl world
  rw [Step.call, World.grabs, hleads.calls, List.countP_append]
  rfl

theorem Executor.grabs_grab (executor : Executor) (world : World) :
    (executor.grab world).2.grabs = world.grabs + executor.grabber.toList.length := by
  obtain ⟨grabbed, hgrabs, hleads⟩ := executor.exists_grabs_of_grab world
  rw [World.grabs, hleads.calls, hgrabs.calls, List.countP_append]
  cases executor.grabber <;> rfl

theorem Executor.cases_of_report {executor : Executor} {started : Nat} {failure : Option Failure}
    {world after : World} {result : ExecutionResult}
    (h : executor.report started failure world = (.done result, after)) :
    (failure = none ∧ after = world.now.2 ∧ ∃ time, result = .passed time) ∨
      ∃ found time screenshot, failure = some found ∧
        executor.grab world.now.2 = (.done screenshot, after) ∧
        result = ⟨true, time, false, some found.message, some found.stackTrace, screenshot⟩ := by
  cases failure with
  | none =>
    cases h
    exact .inl ⟨rfl, rfl, _, rfl⟩
  | some found =>
    simp only [report, elapsed] at h
    rcases hgrab : executor.grab world.now.2 with ⟨(screenshot | reason), later⟩
    · rw [hgrab] at h
      cases screenshot <;> cases h <;> exact .inr ⟨found, _, _, rfl, rfl, rfl⟩
    · rw [hgrab] at h
      cases h

theorem Processor.exists_result_of_status {id : Int64} {run : Outcome ExecutionResult × World}
    {response : Message} {after : World} (h : status id run = (.done (.ok response), after)) :
    ∃ result, run = (.done result, after) ∧ response = .executionStatus id result := by
  obtain ⟨outcome, later⟩ := run
  cases outcome with
  | done result =>
    cases h
    exact ⟨result, rfl, rfl⟩
  | panicked reason => cases h

namespace Runner

/-- The results that a request can be answered with, and the world it leaves. -/
inductive Gives (runner : Runner) (request : Message) (before : World) :
    ExecutionResult → (after : World) → Prop
  | passed {time : UInt64} {after : World} (hnone : ¬ ∃ left, runner.BodyFails request before left)
      (hgrabs : after.grabs = before.grabs) : Gives runner request before (.passed time) after
  | unknown {message : String} (hnone : ¬ ∃ left, runner.BodyFails request before left) :
      Gives runner request before (.failure 0 message) before
  | failed {time : UInt64} {message trace : String} {screenshot : Option Bytes} {left after : World}
      (hfails : runner.BodyFails request before left) (hgrabs : left.grabs = before.grabs)
      (hgrab : runner.executor.grab left.now.2 = (.done screenshot, after)) :
      Gives runner request before ⟨true, time, false, some message, some trace, screenshot⟩ after

variable {runner : Runner} {request response : Message} {before after : World}
  {result : ExecutionResult}

/-- Hooks and steps are reported alike. -/
theorem gives_of_report {called : Option Failure × World} {started : Nat}
    (hcalled : runner.called request before = called) (hgrabs : called.2.grabs = before.grabs)
    (h : runner.executor.report started called.1 called.2 = (.done result, after)) :
    runner.Gives request before result after := by
  obtain ⟨failure, left⟩ := called
  rcases Executor.cases_of_report h with
    ⟨rfl, rfl, time, rfl⟩ | ⟨found, time, screenshot, rfl, hgrab, rfl⟩
  · exact .passed (not_bodyFails_of_called (congrArg Prod.fst hcalled)) hgrabs
  · exact .failed (bodyFails_iff.mpr ⟨found, hcalled⟩) hgrabs hgrab

/-- An answer is a result, or else no body was called for it. -/
theorem gives_or_idle
    (h : runner.dispatcher.dispatch request before = (.done (.ok response), after)) :
    (∃ result, response = .executionStatus request.id result ∧
        runner.Gives request before result after) ∨
      (response.type ≠ .executionStatus ∧ (¬ ∃ left, runner.BodyFails request before left) ∧
        after = before) := by
  obtain ⟨processor, hprocessor, hserves, hprocess⟩ := Dispatcher.serves_of_dispatch h
  cases hserves with
  | hooks event registry executor id info =>
    cases hprocessor
    rw [Processor.process_hooks, Executor.executeHooks_eq_report] at hprocess
    obtain ⟨result, hreport, rfl⟩ := Processor.exists_result_of_status hprocess
    exact .inl ⟨result, rfl, gives_of_report (runner.called_lifecycle id event info before)
      (Hook.grabs_callAll ..) hreport⟩
  | executeStep steps executor id sent =>
    cases hprocessor
    obtain ⟨result, hrun, rfl⟩ := Processor.exists_result_of_status hprocess
    refine .inl ⟨result, rfl, ?_⟩
    rw [Executor.runStep] at hrun
    cases hstep : runner.steps.get? sent.parsedStepText with
    | none =>
      rw [hstep] at hrun
      cases hrun
      have hcalled : runner.called ⟨id, .executeStep, .executeStep sent⟩ before = (none, before) := by
        simp only [called, hstep]
      exact .unknown (not_bodyFails_of_called (congrArg Prod.fst hcalled))
    | some step =>
      rw [hstep] at hrun
      exact gives_of_report (called_executeStep hstep id before) (step.grabs_call ..) hrun
  | storeInit scope id =>
    rw [Processor.process_storeInit] at hprocess
    cases hprocess
    exact .inl ⟨_, rfl, .passed (not_bodyFails_of_called rfl) rfl⟩
  | kill id =>
    cases hprocess
    exact .inl ⟨_, rfl, .passed (not_bodyFails_of_called rfl) rfl⟩
  | validate steps id sent =>
    cases hprocess
    exact .inr ⟨by simp, not_bodyFails_of_called rfl, rfl⟩
  | names steps id =>
    cases hprocess
    exact .inr ⟨by simp, not_bodyFails_of_called rfl, rfl⟩

end Runner

namespace Runner

/-- What a result tells of the exchange that it is sent in. -/
structure Reports (runner : Runner) (exchange : Exchange) (result : ExecutionResult) : Prop where
  passed : result.failed = false →
    result.errorMessage = none ∧ result.stackTrace = none ∧ result.screenshot = none
  failed : result.failed = true → result.errorMessage ≠ none
  stackTrace : result.stackTrace ≠ none ↔
    ∃ left, runner.BodyFails exchange.request exchange.before left
  screenshot : ∀ bytes, result.screenshot = some bytes ↔
    ∃ left grabber, runner.BodyFails exchange.request exchange.before left ∧
      runner.config.screenshotOnFailure = true ∧ runner.grabber = some grabber ∧
      grabber.run (left.now.2.record .grabberCalled) = (.done (some bytes), exchange.after)
  recoverable : result.recoverableError = false

/-- A body failed in the exchange, and there is a grabber that the settings let take the screen. -/
def TakesScreen (runner : Runner) (exchange : Exchange) : Prop :=
  (∃ left, runner.BodyFails exchange.request exchange.before left) ∧
    runner.config.screenshotOnFailure = true ∧ runner.grabber ≠ none

instance (runner : Runner) (exchange : Exchange) : Decidable (runner.TakesScreen exchange) :=
  inferInstanceAs (Decidable (_ ∧ _ ∧ _))

/-- If the message is a result, it is that of the exchange's request. -/
def Tells (runner : Runner) (exchange : Exchange) (message : Message) : Prop :=
  message.type = .executionStatus → ∃ result,
    message = .executionStatus exchange.request.id result ∧ runner.Reports exchange result

variable {runner : Runner} {exchange : Exchange} {result : ExecutionResult} {message : Message}

theorem grab_eq_some_iff (world after : World) (bytes : Bytes) :
    runner.executor.grab world = (.done (some bytes), after) ↔
      ∃ grabber, runner.config.screenshotOnFailure = true ∧ runner.grabber = some grabber ∧
        grabber.run (world.record .grabberCalled) = (.done (some bytes), after) := by
  rw [Executor.grab, executor]
  cases runner.config.screenshotOnFailure <;> cases runner.grabber <;> simp

theorem length_grabber : runner.executor.grabber.toList.length =
    if runner.config.screenshotOnFailure = true ∧ runner.grabber ≠ none then 1 else 0 := by
  rw [executor]
  cases runner.config.screenshotOnFailure <;> cases runner.grabber <;> simp

theorem Gives.reports
    (h : runner.Gives exchange.request exchange.before result exchange.after) :
    runner.Reports exchange result := by
  obtain ⟨request, before, response, after⟩ := exchange
  cases h with
  | passed hnone | unknown hnone =>
    refine ⟨by simp [ExecutionResult.passed, ExecutionResult.failure],
      by simp [ExecutionResult.passed, ExecutionResult.failure], ?_, ?_, rfl⟩
    · exact iff_of_false (fun h => h rfl) hnone
    · intro bytes
      refine iff_of_false (fun h => by cases h) ?_
      rintro ⟨left, -, hfails, -⟩
      exact hnone ⟨left, hfails⟩
  | @failed time message trace screenshot left _ hfails hgrabs hgrab =>
    refine ⟨by simp, by simp, ?_, ?_, rfl⟩
    · exact iff_of_true (by simp) ⟨left, hfails⟩
    · intro bytes
      constructor
      · rintro rfl
        obtain ⟨grabber, hscreenshots, hgrabber, hrun⟩ := (grab_eq_some_iff ..).mp hgrab
        exact ⟨left, grabber, hfails, hscreenshots, hgrabber, hrun⟩
      · rintro ⟨other, grabber, hother, hscreenshots, hgrabber, hrun⟩
        obtain rfl := hfails.eq hother
        have hgrab' := (grab_eq_some_iff ..).mpr ⟨grabber, hscreenshots, hgrabber, hrun⟩
        rw [hgrab] at hgrab'
        cases hgrab'
        rfl

theorem Gives.grabs (h : runner.Gives exchange.request exchange.before result exchange.after) :
    exchange.after.grabs = exchange.before.grabs + if runner.TakesScreen exchange then 1 else 0 := by
  obtain ⟨request, before, response, after⟩ := exchange
  cases h with
  | passed hnone hgrabs => rw [if_neg fun htakes => hnone htakes.1, Nat.add_zero, hgrabs]
  | unknown hnone => rw [if_neg fun htakes => hnone htakes.1, Nat.add_zero]
  | @failed time message trace screenshot left _ hfails hgrabs hgrab =>
    have htakes : runner.TakesScreen ⟨request, before, response, after⟩ ↔
        runner.config.screenshotOnFailure = true ∧ runner.grabber ≠ none :=
      and_iff_right ⟨left, hfails⟩
    have hgrabbed := runner.executor.grabs_grab left.now.2
    rw [hgrab, length_grabber] at hgrabbed
    simp only [hgrabbed, htakes, ← hgrabs]
    rfl

variable (runner) in
/-- Each answer tells what it should, and the grabber is called for it once or not at all. -/
theorem tells_of_dispatch (h : runner.dispatcher.dispatch exchange.request exchange.before =
    (.done (.ok exchange.response), exchange.after)) :
    runner.Tells exchange exchange.response ∧
      exchange.after.grabs =
        exchange.before.grabs + if runner.TakesScreen exchange then 1 else 0 := by
  rcases gives_or_idle h with ⟨result, hresponse, hgives⟩ | ⟨htype, hnone, hafter⟩
  · exact ⟨fun _ => ⟨result, hresponse, hgives.reports⟩, hgives.grabs⟩
  · refine ⟨fun hstatus => absurd hstatus htype, ?_⟩
    rw [if_neg fun htakes => hnone htakes.1, hafter, Nat.add_zero]

/-- Times alone are capped on the wire. -/
theorem Tells.capped (h : runner.Tells exchange message) : runner.Tells exchange message.capped := by
  intro htype
  obtain ⟨result, rfl, hreports⟩ := h htype
  exact ⟨result.capped, rfl, hreports.passed, hreports.failed, hreports.stackTrace,
    hreports.screenshot, hreports.recoverable⟩

end Runner

end StepRunner
