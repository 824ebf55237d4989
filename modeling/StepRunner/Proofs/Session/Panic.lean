import StepRunner.Proofs.Session.Dispatch

namespace StepRunner

/-- The action does not panic, whatever the world. -/
def Action.Returns {α : Type} (action : Action α) : Prop :=
  ∀ world, ∃ value after, action.run world = (.done value, after)

/-- The grabber, if there is one, panics in some world and leaves `after` behind. -/
def GrabberPanics (grabber? : Option (Action (Option Bytes))) (reason : Panic) (after : World) :
    Prop :=
  ∃ grabber ∈ grabber?, ∃ before, grabber.run before = (.panicked reason, after)

theorem not_grabberPanics {grabber? : Option (Action (Option Bytes))}
    (h : ∀ grabber ∈ grabber?, grabber.Returns) (reason : Panic) (after : World) :
    ¬ GrabberPanics grabber? reason after := by
  rintro ⟨grabber, hgrabber, before, hpanic⟩
  obtain ⟨value, later, hreturns⟩ := h grabber hgrabber before
  rw [hpanic] at hreturns
  cases hreturns

namespace Executor

variable {executor : Executor} {world after : World} {reason : Panic}

theorem grabberPanics_of_grab (h : executor.grab world = (.panicked reason, after)) :
    GrabberPanics executor.grabber reason after := by
  rw [grab] at h
  cases hg : executor.grabber with
  | none =>
    rw [hg] at h
    cases h
  | some grabber =>
    rw [hg] at h
    exact ⟨grabber, rfl, _, h⟩

theorem grabberPanics_of_report {started : Nat} {failure : Option Failure}
    (h : executor.report started failure world = (.panicked reason, after)) :
    GrabberPanics executor.grabber reason after := by
  cases failure with
  | none => cases h
  | some failure =>
    simp only [report] at h
    rcases hgrab : executor.grab (elapsed started world).2 with ⟨outcome, later⟩
    rw [hgrab] at h
    cases outcome with
    | panicked found =>
      cases h
      exact grabberPanics_of_grab hgrab
    | done screenshot => cases screenshot <;> cases h

theorem grabberPanics_of_runStep {steps : StepRegistry} {request : ExecuteStepRequest}
    (h : executor.runStep steps request world = (.panicked reason, after)) :
    GrabberPanics executor.grabber reason after := by
  rw [runStep] at h
  cases hstep : steps.get? request.parsedStepText with
  | none =>
    rw [hstep] at h
    cases h
  | some step =>
    rw [hstep] at h
    exact grabberPanics_of_report h

end Executor

namespace Processor

/-- What takes the screen when the processor reports a failure. -/
def grabber? : Processor → Option (Action (Option Bytes))
  | hooks _ _ executor | executeStep _ executor => executor.grabber
  | storeInit _ | validate _ | names _ | kill => none

variable {processor : Processor} {request : Message} {world after : World} {reason : Panic}

theorem eq_panicked_of_status {id : Int64} {run : Outcome ExecutionResult × World}
    (h : status id run = (.panicked reason, after)) : run = (.panicked reason, after) := by
  obtain ⟨outcome, later⟩ := run
  cases outcome with
  | done result => cases h
  | panicked found =>
    cases h
    rfl

/-- A processor is torn only by its grabber. -/
theorem grabberPanics_of_process (h : processor.process request world = (.panicked reason, after)) :
    processor.Accepts request ∧ GrabberPanics processor.grabber? reason after := by
  by_cases haccepts : processor.Accepts request
  · refine ⟨haccepts, ?_⟩
    cases serves_of_accepts haccepts with
    | hooks event registry executor id info =>
      rw [process_hooks] at h
      exact Executor.grabberPanics_of_report (eq_panicked_of_status h)
    | executeStep steps executor id sent =>
      exact Executor.grabberPanics_of_runStep (eq_panicked_of_status h)
    | storeInit scope id =>
      rw [process_storeInit] at h
      cases h
    | validate | names | kill => cases h
  · rw [process_of_not_accepts haccepts] at h
    cases h

end Processor

namespace Dispatcher

variable {hooks : HookRegistry} {steps : StepRegistry} {executor : Executor}

theorem grabber?_of_processor? {type : MessageType} {processor : Processor}
    (h : processor? hooks steps executor type = some processor)
    {grabber : Action (Option Bytes)} (hgrabber : grabber ∈ processor.grabber?) :
    grabber ∈ executor.grabber := by
  cases type <;> cases h <;> first | exact hgrabber | cases hgrabber

variable {request response : Message} {before after : World}

/-- Dispatching is torn only by the grabber. -/
theorem grabberPanics_of_dispatch {reason : Panic}
    (h : (standard hooks steps executor).dispatch request before = (.panicked reason, after)) :
    GrabberPanics executor.grabber reason after := by
  cases hrefusal : request.refusal? with
  | some e =>
    rw [dispatch_of_refusal? hrefusal] at h
    cases h
  | none =>
    obtain ⟨processor, hprocessor, -, hdispatch⟩ :=
      exists_serves_of_not_refused hooks steps executor hrefusal
    rw [hdispatch] at h
    obtain ⟨-, grabber, hgrabber, hpanics⟩ := Processor.grabberPanics_of_process h
    exact ⟨grabber, grabber?_of_processor? hprocessor hgrabber, hpanics⟩

variable (hooks steps) in
/-- With a grabber that returns, what is not refused is answered. -/
theorem dispatch_of_not_refused (hgrabber : ∀ grabber ∈ executor.grabber, grabber.Returns)
    (h : request.refusal? = none) (world : World) : ∃ response after,
      (standard hooks steps executor).dispatch request world = (.done (.ok response), after) := by
  obtain ⟨hanswer, hfits⟩ := Message.refusal?_eq_none.mp h
  rcases dispatch_cases hooks steps executor request world with
    ⟨hnone, -⟩ | ⟨hmisfit, -⟩ | ⟨reason, after, hd⟩ | ⟨response, after, hd, -⟩
  · exact absurd hnone hanswer
  · exact absurd hfits hmisfit
  · exact absurd (grabberPanics_of_dispatch hd) (not_grabberPanics hgrabber reason after)
  · exact ⟨response, after, hd⟩

end Dispatcher

end StepRunner
