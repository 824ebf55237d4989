import StepRunner.Proofs.Session.Results
import StepRunner.Proofs.Session.Steps

namespace StepRunner

/-- What an executor is asked to run. -/
inductive Job where
  | hooks (set : HookSet) (info : ExecutionInfo)
  | step (step : Step) (arguments : List String)

/-- The job's call, up to the first body that fails. -/
def Job.call : Job → World → Option Failure × World
  | .hooks set info, world => Hook.callAll info set.hooks world
  | .step called arguments, world => called.call arguments world

/-- Called in `world`, a body of the job does not come back well. The world it leaves is `left`. -/
inductive Job.Fails : Job → World → (left : World) → Prop
  | hook {set : HookSet} {info : ExecutionInfo} {passed : List Hook} {failing : Hook}
      {ended : Outcome (Except HookError Unit)} {world left : World}
      (hfirst : Hook.FailsFirst info set.hooks world passed failing ended left) :
      Fails (.hooks set info) world left
  | step {step : Step} {arguments : List String} {ended : Outcome (Except HookError Unit)}
      {world left : World} (hends : step.ends arguments world = (ended, left))
      (hfails : ended.fails = true) : Fails (.step step arguments) world left

theorem Job.fails_iff {job : Job} {world left : World} :
    job.Fails world left ↔ ∃ failure, job.call world = (some failure, left) := by
  constructor
  · intro h
    cases h with
    | hook hfirst =>
      rw [call, Hook.exists_failure_iff]
      exact ⟨_, _, _, hfirst⟩
    | step hends hfails =>
      rw [call, Step.call, Action.exists_failure_iff]
      exact ⟨_, hends, hfails⟩
  · rintro ⟨failure, hcalled⟩
    cases job with
    | hooks set info =>
      obtain ⟨passed, failing, ended, hfirst⟩ :=
        (Hook.exists_failure_iff ..).mp ⟨failure, hcalled⟩
      exact .hook hfirst
    | step step arguments =>
      rw [call, Step.call] at hcalled
      obtain ⟨ended, hends, hfails⟩ := (Action.exists_failure_iff ..).mp ⟨failure, hcalled⟩
      exact .step hends hfails

namespace Executor

def execute (executor : Executor) : Job → World → Outcome ExecutionResult × World
  | .hooks set info, world => executor.executeHooks set info world
  | .step step arguments, world => executor.executeStep step arguments world

/-- After a failure that left `left` the grabber is called, and panics. -/
def Tears (executor : Executor) (left : World) (reason : Panic) (after : World) : Prop :=
  ∃ grabber ∈ executor.grabber,
    grabber.run (left.now.2.record .grabberCalled) = (.panicked reason, after)

variable {executor : Executor} {left after : World} {reason : Panic}

theorem tears_iff_grab :
    executor.Tears left reason after ↔ executor.grab left.now.2 = (.panicked reason, after) := by
  rw [Tears, grab]
  cases hgrabber : executor.grabber with
  | none =>
    constructor
    · rintro ⟨grabber, hmem, -⟩
      cases hmem
    · intro hgrab
      cases hgrab
  | some grabber =>
    constructor
    · rintro ⟨found, hmem, hrun⟩
      cases hmem
      exact hrun
    · intro hgrab
      exact ⟨grabber, rfl, hgrab⟩

variable (executor) in
/-- A failure is reported, or its report is torn. -/
theorem cases_of_report_failure (started : Nat) (failure : Failure) (left : World) :
    (∃ result after, executor.report started (some failure) left = (.done result, after) ∧
        result.failed = true ∧ ∀ reason after, ¬ executor.Tears left reason after) ∨
      ∃ reason after, executor.report started (some failure) left = (.panicked reason, after) ∧
        executor.Tears left reason after := by
  simp only [tears_iff_grab]
  rw [report]
  simp only [elapsed]
  rcases hgrab : executor.grab left.now.2 with ⟨(screenshot | reason), after⟩
  · left
    have hintact (reason : Panic) (later : World) :
        (Outcome.done screenshot, after) ≠ (.panicked reason, later) := by
      intro heq
      cases heq
    cases screenshot with
    | none => exact ⟨_, _, rfl, rfl, hintact⟩
    | some bytes => exact ⟨_, _, rfl, rfl, hintact⟩
  · exact .inr ⟨reason, after, rfl, rfl⟩

theorem execute_eq_report (executor : Executor) (job : Job) (world : World) :
    executor.execute job world =
      executor.report world.now.1 (job.call world.now.2).1 (job.call world.now.2).2 := by
  cases job <;> rfl

/-- The ways a job can go. -/
inductive Ends (executor : Executor) (job : Job) (world : World) :
    Outcome ExecutionResult × World → Prop
  | passed {result : ExecutionResult} {after : World}
      (hnone : ¬ ∃ left, job.Fails world.now.2 left) (hfailed : result.failed = false) :
      Ends executor job world (.done result, after)
  | failed {result : ExecutionResult} {left after : World} (hfails : job.Fails world.now.2 left)
      (hintact : ∀ reason after, ¬ executor.Tears left reason after)
      (hfailed : result.failed = true) : Ends executor job world (.done result, after)
  | torn {reason : Panic} {left after : World} (hfails : job.Fails world.now.2 left)
      (htears : executor.Tears left reason after) :
      Ends executor job world (.panicked reason, after)

theorem ends_execute (executor : Executor) (job : Job) (world : World) :
    executor.Ends job world (executor.execute job world) := by
  rw [execute_eq_report]
  rcases hcalled : job.call world.now.2 with ⟨failure, left⟩
  cases failure with
  | none =>
    refine .passed ?_ rfl
    rintro ⟨other, hfails⟩
    obtain ⟨failure, hfailure⟩ := Job.fails_iff.mp hfails
    rw [hcalled] at hfailure
    cases hfailure
  | some failure =>
    have hfails : job.Fails world.now.2 left := Job.fails_iff.mpr ⟨failure, hcalled⟩
    rcases executor.cases_of_report_failure world.now.1 failure left with
      ⟨result, after, hreport, hfailed, hintact⟩ | ⟨reason, after, hreport, htears⟩
    · rw [hreport]
      exact .failed hfails hintact hfailed
    · rw [hreport]
      exact .torn hfails htears

end Executor

/-- Only one body fails a job. -/
theorem Job.Fails.eq {job : Job} {world left other : World} (h : job.Fails world left)
    (h' : job.Fails world other) : left = other := by
  obtain ⟨failure, hcalled⟩ := Job.fails_iff.mp h
  obtain ⟨failure', hcalled'⟩ := Job.fails_iff.mp h'
  rw [hcalled] at hcalled'
  exact congrArg Prod.snd hcalled'

/-- The request is to run the job: the hooks of a moment, or a step that is registered. -/
inductive Message.Asks (hooks : HookRegistry) (steps : StepRegistry) : Message → Job → Prop
  | lifecycle (id : Int64) (event : LifecycleEvent) (info : Option ExecutionInfo) :
      Asks hooks steps ⟨id, .lifecycle event, .lifecycle event info⟩
        (.hooks (hooks.get event.category) (info.getD .empty))
  | executeStep (id : Int64) {sent : ExecuteStepRequest} {step : Step}
      (hstep : steps.get? sent.parsedStepText = some step) :
      Asks hooks steps ⟨id, .executeStep, .executeStep sent⟩ (.step step sent.parameters)

namespace Dispatcher

variable {hooks : HookRegistry} {steps : StepRegistry} {request : Message} {job : Job}

theorem dispatch_of_asks (h : request.Asks hooks steps job) (executor : Executor) (world : World) :
    (standard hooks steps executor).dispatch request world =
      Processor.status request.id (executor.execute job world) := by
  cases h with
  | lifecycle id event info => exact dispatch_hooks hooks steps executor id event info world
  | executeStep id hstep =>
    rw [dispatch_executeStep, Executor.runStep, hstep]
    rfl

theorem type_of_asks (h : request.Asks hooks steps job) : request.type ≠ .killProcess := by
  cases h with
  | lifecycle | executeStep =>
    intro htype
    cases htype

variable {executor : Executor} {transport : Transport} {frame : Bytes} {source : Source}
  {sink : Sink} {world after : World}

/-- A round in which a job is run to a result: the loop answers with it and goes on. -/
theorem serve_of_result {result : ExecutionResult} (h : request.Asks hooks steps job)
    (hread : transport.readFrame = (.ok (some frame), ⟨source, sink, true⟩))
    (hd : Message.decode frame = .ok request)
    (hrun : executor.execute job world = (.done result, after)) :
    (standard hooks steps executor).serve transport world =
      match Frame.write (Message.executionStatus request.id result).encode sink with
      | (.error _, sink) => ⟨.done (.ok .transportClosed), ⟨source, sink, true⟩, after⟩
      | (.ok (), sink) => (standard hooks steps executor).serve ⟨source, sink, true⟩ after := by
  have hp : (standard hooks steps executor).dispatch request world =
      (.done (.ok (.executionStatus request.id result)), after) := by
    rw [dispatch_of_asks h, hrun]
    rfl
  rw [serve_of_answered hread hd hp]
  rcases Frame.write (Message.executionStatus request.id result).encode sink with ⟨written, later⟩
  cases written with
  | error e => rfl
  | ok _ => exact if_neg (type_of_asks h)

/-- A round in which a job is torn: nothing is written, and the loop does not come back. -/
theorem serve_of_panicked {reason : Panic} (h : request.Asks hooks steps job)
    (hread : transport.readFrame = (.ok (some frame), ⟨source, sink, true⟩))
    (hd : Message.decode frame = .ok request)
    (hrun : executor.execute job world = (.panicked reason, after)) :
    (standard hooks steps executor).serve transport world =
      ⟨.panicked reason, ⟨source, sink, true⟩, after⟩ := by
  have hp : (standard hooks steps executor).dispatch request world = (.panicked reason, after) := by
    rw [dispatch_of_asks h, hrun]
    rfl
  rw [serve_eq, hread]
  simp only [answer, hd, hp]

/-- A request that is torn asks for a job. -/
theorem exists_asks_of_panicked {reason : Panic}
    (h : (standard hooks steps executor).dispatch request world = (.panicked reason, after)) :
    ∃ job, request.Asks hooks steps job := by
  cases hrefusal : request.refusal? with
  | some e =>
    rw [dispatch_of_refusal? hrefusal] at h
    cases h
  | none =>
    obtain ⟨processor, hprocessor, hserves, hdispatch⟩ :=
      exists_serves_of_not_refused hooks steps executor hrefusal
    rw [hdispatch] at h
    cases hserves with
    | hooks event registry executor id info =>
      cases hprocessor
      exact ⟨_, .lifecycle id event info⟩
    | executeStep registered executor id sent =>
      cases hprocessor
      have hrun := Processor.eq_panicked_of_status h
      cases hstep : steps.get? sent.parsedStepText with
      | some step => exact ⟨_, .executeStep id hstep⟩
      | none =>
        rw [Executor.runStep, hstep] at hrun
        cases hrun
    | storeInit scope id =>
      rw [Processor.process_storeInit] at h
      cases h
    | validate | names | kill => cases h

variable (hooks steps executor) in
/-- The frame after `answered` others asks for a job that fails, and its report is torn. -/
def MeetsTear (frames : List Bytes) (answered : Nat) (reason : Panic) (after : World) : Prop :=
  ∃ frame request job before left, frames[answered]? = some frame ∧
    Message.decode frame = .ok request ∧ request.Asks hooks steps job ∧
    job.Fails (World.now before).2 left ∧ executor.Tears left reason after

theorem meetsTear_of_converse {exit : Except ProtocolError LoopExit} {frames : List Bytes}
    {reason : Panic} :
    let session := (standard hooks steps executor).converse exit frames world
    session.result = .panicked reason →
      MeetsTear hooks steps executor frames session.exchanges.length reason session.world := by
  intro session h
  simp only [session] at h ⊢
  induction frames generalizing world with
  | nil => cases h
  | cons frame frames ih =>
    rw [converse] at h ⊢
    cases hd : Message.decode frame with
    | error e =>
      simp only [hd] at h
      cases h
    | ok request =>
      simp only [hd] at h ⊢
      rcases hp : (standard hooks steps executor).dispatch request world with ⟨outcome, after⟩
      simp only [hp] at h ⊢
      cases outcome with
      | panicked found =>
        cases h
        obtain ⟨job, hasks⟩ := exists_asks_of_panicked hp
        rw [dispatch_of_asks hasks] at hp
        have hends := executor.ends_execute job world
        rw [Processor.eq_panicked_of_status hp] at hends
        cases hends with
        | torn hfails htears =>
          exact ⟨frame, request, job, world, _, rfl, hd, hasks, hfails, htears⟩
      | done answered =>
        cases answered with
        | error e => cases h
        | ok response =>
          simp only at h ⊢
          by_cases hkill : request.type = .killProcess
          · rw [if_pos hkill] at h
            cases h
          · rw [if_neg hkill] at h ⊢
            obtain ⟨later, torn, job, before, left, hframe, hmeets⟩ := ih h
            refine ⟨later, torn, job, before, left, ?_, hmeets⟩
            rw [← hframe]
            exact List.getElem?_cons_succ

/-- Serving is torn only where its session is, by a grabber. -/
theorem meetsTear_of_run {source : Source} {reason : Panic} :
    let dispatcher := standard hooks steps executor
    let session := dispatcher.session source.stream world
    (dispatcher.run (.ofParts source sink) world).result = .panicked reason →
      MeetsTear hooks steps executor (Frame.cutAll source.stream.bytes).1 session.exchanges.length
        reason session.world := by
  intro dispatcher session h
  rcases dispatcher.result_run source sink world with hsession | hclosed
  · exact meetsTear_of_converse (hsession.symm.trans h)
  · rw [hclosed] at h
    cases h

end Dispatcher

namespace Executor

/-- **Of all that hooks, steps and grabbers may do, only a panic of the grabber gets out.** It takes
the place of the result, and the loop ends there with nothing written. -/
theorem execute_escapes_iff (executor : Executor) (job : Job) (world : World) :
    (∀ reason after, executor.execute job world = (.panicked reason, after) ↔
      ∃ left, job.Fails world.now.2 left ∧ executor.Tears left reason after) ∧
    ((¬ ∃ left reason after, job.Fails world.now.2 left ∧ executor.Tears left reason after) →
      ∃ result after, executor.execute job world = (.done result, after) ∧
        (result.failed = true ↔ ∃ left, job.Fails world.now.2 left)) ∧
    ∀ (hooks : HookRegistry) (steps : StepRegistry),
      let dispatcher := Dispatcher.standard hooks steps executor
      (∀ request transport frame source sink, request.Asks hooks steps job →
        transport.readFrame = (.ok (some frame), ⟨source, sink, true⟩) →
        Message.decode frame = .ok request →
        dispatcher.serve transport world =
          match executor.execute job world with
          | (.panicked reason, after) => ⟨.panicked reason, ⟨source, sink, true⟩, after⟩
          | (.done result, after) =>
            match Frame.write (Message.executionStatus request.id result).encode sink with
            | (.error _, sink) => ⟨.done (.ok .transportClosed), ⟨source, sink, true⟩, after⟩
            | (.ok (), sink) => dispatcher.serve ⟨source, sink, true⟩ after) ∧
      ∀ source sink reason,
        (dispatcher.run (.ofParts source sink) world).result = .panicked reason →
        let session := dispatcher.session source.stream world
        Dispatcher.MeetsTear hooks steps executor (Frame.cutAll source.stream.bytes).1
          session.exchanges.length reason session.world := by
  have hends := executor.ends_execute job world
  rcases hrun : executor.execute job world with ⟨outcome, after⟩
  rw [hrun] at hends
  refine ⟨?_, ?_, ?_⟩
  · intro reason later
    constructor
    · intro hpanicked
      cases hends with
      | passed | failed => cases hpanicked
      | torn hfails htears =>
        cases hpanicked
        exact ⟨_, hfails, htears⟩
    · rintro ⟨left, hfails, htears⟩
      cases hends with
      | passed hnone => exact absurd ⟨left, hfails⟩ hnone
      | failed hother hintact =>
        rw [hother.eq hfails] at hintact
        exact absurd htears (hintact reason later)
      | torn hother htorn =>
        rw [hother.eq hfails, tears_iff_grab] at htorn
        rw [tears_iff_grab, htorn] at htears
        cases htears
        rfl
  · intro hintact
    cases hends with
    | @passed result _ hnone hfailed =>
      refine ⟨result, after, rfl, fun htrue => ?_, fun hfails => absurd hfails hnone⟩
      rw [hfailed] at htrue
      cases htrue
    | @failed result left _ hfails _ hfailed =>
      exact ⟨result, after, rfl, fun _ => ⟨left, hfails⟩, fun _ => hfailed⟩
    | torn hfails htears => exact absurd ⟨_, _, _, hfails, htears⟩ hintact
  · intro hooks steps dispatcher
    refine ⟨?_, fun source sink reason => Dispatcher.meetsTear_of_run⟩
    intro request transport frame source sink hasks hread hd
    cases outcome with
    | done result => exact Dispatcher.serve_of_result hasks hread hd hrun
    | panicked reason => exact Dispatcher.serve_of_panicked hasks hread hd hrun

/-- The hook fails, and there is no display to take the screen of. -/
example :
    let hook : Hook := ⟨"boot", fun _ => .done (.error (.failed "down"))⟩
    let executor : Executor := ⟨some (.panic (.text "no display"))⟩
    (executor.execute (.hooks (.ofList [hook]) .empty) .fresh).1 =
      .panicked (.text "no display") := rfl

end Executor

end StepRunner
