import StepRunner.Proofs.Session.Batch
import StepRunner.Proofs.Step.Registry

namespace StepRunner

/-- A step as a project registers it. -/
structure Registration where
  text : String
  body : List String → Action (Except HookError Unit)

def Registration.step (registration : Registration) : Step :=
  .ofText registration.text registration.body

namespace Executor

/-- A body was called once and `ended` so; the answer says that, unless the grabber tears it. -/
structure Runs (executor : Executor) (call : Event) (body : Action (Except HookError Unit))
    (id : Int64) (world : World) (outcome : Outcome (Except ProtocolError Message) × World)
    (ended : Outcome (Except HookError Unit)) (left : World) : Prop where
  run : body.run (world.now.2.record call) = (ended, left)
  leads : ∃ accesses, body.Makes accesses ended ∧ world.Leads [⟨call, accesses⟩] left
  grabs : ∃ grabbed, executor.Grabs ended.fails grabbed ∧ left.Leads grabbed outcome.2
  quiet : ended.fails = false ∨ executor.grabber = none → outcome.2 = left.now.2
  answer : (∃ result, outcome.1 = .done (.ok (.executionStatus id result)) ∧
      result.failed = ended.fails ∧ result.errorMessage = ended.complaint?) ∨
    ended.fails = true ∧ ∃ reason, outcome.1 = .panicked reason ∧
      GrabberPanics executor.grabber reason outcome.2

variable (executor : Executor)

theorem report_snd_of_no_grabber (h : executor.grabber = none) (started : Nat)
    (failure : Option Failure) (world : World) :
    (executor.report started failure world).2 = world.now.2 := by
  cases failure with
  | none => rfl
  | some failure =>
    simp only [report, grab, h]
    rfl

theorem exists_runs_of_executeStep (step : Step) (arguments : List String) (id : Int64)
    (world : World) : ∃ ended left,
      executor.Runs (.stepCalled step.text arguments) (step.body arguments) id world
        (Processor.status id (executor.executeStep step arguments world)) ended left := by
  rcases hrun : (step.body arguments).run
    (world.now.2.record (.stepCalled step.text arguments)) with ⟨ended, left⟩
  refine ⟨ended, left, ?_⟩
  obtain ⟨accesses, hmakes, hleads⟩ :=
    (step.body arguments).exists_leads (.stepCalled step.text arguments) rfl world.now.2
  rw [hrun] at hmakes hleads
  have hexecute : executor.executeStep step arguments world =
      executor.report world.now.1 (step.call arguments world.now.2).1
        (step.call arguments world.now.2).2 := rfl
  cases hfails : ended.fails with
  | false =>
    obtain rfl := Outcome.eq_ok_of_not_fails hfails
    have hcall : step.call arguments world.now.2 = (none, left) := Action.guarded_of_pass hrun
    rw [hexecute, hcall]
    exact ⟨hrun, ⟨accesses, hmakes, hleads.of_now⟩, ⟨[], .passed, .of_now (.nil _)⟩, fun _ => rfl,
      .inl ⟨_, rfl, rfl, rfl⟩⟩
  | true =>
    obtain ⟨failure, trace, hguarded, hcomplaint, -⟩ :=
      Action.exists_failure_of_fails step.location hrun hfails
    have hcall : step.call arguments world.now.2 = (some failure, left) := hguarded
    obtain ⟨grabbed, hgrabs, hgrab⟩ :=
      executor.exists_grabs_of_report left world.now.1 (some failure)
    rw [hexecute, hcall]
    refine ⟨hrun, ⟨accesses, hmakes, hleads.of_now⟩, ⟨grabbed, ?_, ?_⟩, ?_, ?_⟩
    · rw [hfails]
      exact hgrabs
    · rw [Processor.status_snd]
      exact hgrab
    · intro hquiet
      rw [Processor.status_snd]
      exact executor.report_snd_of_no_grabber (hquiet.resolve_left (by simp [hfails])) _ _ left
    · rcases executor.report_of_failure world.now.1 failure left with
        ⟨result, hresult, hfailed, hmessage, -⟩ | ⟨reason, hpanicked, hgrabber⟩
      · exact .inl ⟨result, Processor.status_of_done id hresult, hfailed.trans hfails.symm,
          hmessage.trans hcomplaint.symm⟩
      · refine .inr ⟨hfails, reason, Processor.status_of_panicked id hpanicked, ?_⟩
        rw [Processor.status_snd]
        exact hgrabber

end Executor

namespace Dispatcher

section

variable (dispatcher : Dispatcher)

/-- Asked for the steps there are, the dispatcher gives these names, whatever the world. -/
def Lists (names : List String) : Prop :=
  ∀ id world, dispatcher.dispatch ⟨id, .stepNamesRequest, .stepNamesRequest⟩ world =
    (.done (.ok ⟨id, .stepNamesResponse, .stepNamesResponse names⟩), world)

/-- Asked whether there is a step with so many parameters, the dispatcher gives this verdict,
whatever the world. -/
def Judges (text : String) (count : UInt64) (verdict : StepValidateResponse) : Prop :=
  ∀ id world,
    dispatcher.dispatch ⟨id, .stepValidateRequest, .stepValidateRequest ⟨text, count⟩⟩ world =
      (.done (.ok ⟨id, .stepValidateResponse, .stepValidateResponse verdict⟩), world)

/-- There is a step with so many parameters, as the dispatcher judges. -/
def Valid (text : String) (count : UInt64) : Prop :=
  ∃ verdict, dispatcher.Judges text count verdict ∧ verdict.isValid = true

/-- The request runs this body with the parameters sent, whatever the world. -/
def RunsBody (executor : Executor) (sent : ExecuteStepRequest)
    (body : List String → Action (Except HookError Unit)) : Prop :=
  ∀ id world, ∃ ended left,
    executor.Runs (.stepCalled sent.parsedStepText sent.parameters) (body sent.parameters) id world
      (dispatcher.dispatch ⟨id, .executeStep, .executeStep sent⟩ world) ended left

/-- The request is answered with a failure that says there is no such step, and does nothing. -/
def FindsNoStep (sent : ExecuteStepRequest) : Prop :=
  ∀ id world, dispatcher.dispatch ⟨id, .executeStep, .executeStep sent⟩ world =
    (.done (.ok (.executionStatus id
      ⟨true, 0, false, some ("Step implementation not found: " ++ sent.actualStepText), none,
        none⟩)), world)

end

variable (hooks : HookRegistry) (steps : StepRegistry) (executor : Executor)

theorem lists_texts : (standard hooks steps executor).Lists steps.texts := by
  intro id world
  rw [dispatch, handler?_standard]
  rfl

theorem judges_validate (text : String) (count : UInt64) :
    (standard hooks steps executor).Judges text count (steps.validate ⟨text, count⟩) := by
  intro id world
  rw [dispatch, handler?_standard]
  rfl

theorem dispatch_executeStep (id : Int64) (sent : ExecuteStepRequest) (world : World) :
    (standard hooks steps executor).dispatch ⟨id, .executeStep, .executeStep sent⟩ world =
      Processor.status id (executor.runStep steps sent world) := by
  rw [dispatch, handler?_standard]
  rfl

variable {steps} {sent : ExecuteStepRequest}

theorem runsBody_of_get? {step : Step} (h : steps.get? sent.parsedStepText = some step) :
    (standard hooks steps executor).RunsBody executor sent step.body := by
  intro id world
  rw [dispatch_executeStep, Executor.runStep, h, ← StepRegistry.text_of_get? h]
  exact executor.exists_runs_of_executeStep step sent.parameters id world

theorem findsNoStep_of_get? (h : steps.get? sent.parsedStepText = none) :
    (standard hooks steps executor).FindsNoStep sent := by
  intro id world
  rw [dispatch_executeStep, Executor.runStep, h]
  rfl

variable {dispatcher : Dispatcher}

/-- A request is judged in one way. -/
theorem Judges.eq {text : String} {count : UInt64} {verdict other : StepValidateResponse}
    (h : dispatcher.Judges text count verdict) (h' : dispatcher.Judges text count other) :
    verdict = other := by
  have houtcome := (h 0 .fresh).symm.trans (h' 0 .fresh)
  simpa using houtcome

theorem valid_iff_validate (text : String) (count : UInt64) :
    (standard hooks steps executor).Valid text count ↔
      (steps.validate ⟨text, count⟩).isValid = true := by
  have hjudges := judges_validate hooks steps executor text count
  constructor
  · rintro ⟨verdict, hverdict, hvalid⟩
    rw [hjudges.eq hverdict]
    exact hvalid
  · intro hvalid
    exact ⟨_, hjudges, hvalid⟩

/-- Valid is what a step has for parameters. -/
theorem valid_iff_get? (text : String) (count : UInt64) :
    (standard hooks steps executor).Valid text count ↔
      (steps.get? text).isSome = true ∧ count.toNat = StepText.occurrences text.toList := by
  rw [valid_iff_validate, StepRegistry.validate]
  cases hget : steps.get? text with
  | none => simp
  | some step =>
    have harity : step.arity = StepText.occurrences text.toList := by
      rw [Step.arity, StepRegistry.text_of_get? hget, StepText.arity_eq_occurrences]
    simp only [harity, Option.isSome_some, true_and]
    split
    · next hne => simpa using fun heq => hne heq.symm
    · next heq => simpa using (Decidable.not_not.mp heq).symm

theorem FindsNoStep.not_runsBody {body : List String → Action (Except HookError Unit)}
    (h : dispatcher.FindsNoStep sent) : ¬ dispatcher.RunsBody executor sent body := by
  intro hruns
  obtain ⟨ended, left, -, ⟨accesses, -, hcalled⟩, ⟨grabbed, -, hgrabbed⟩, -, -⟩ := hruns 0 .fresh
  have htrace := hgrabbed.trace
  rw [h 0 .fresh, hcalled.trace] at htrace
  simp [World.fresh, World.trace, World.journal, Invocation.events] at htrace

/-- What is listed is executed by the first body that was registered for its text. -/
theorem exists_runsBody_of_mem {registrations : List Registration} {text : String}
    (hmem : text ∈ (StepRegistry.ofList (registrations.map Registration.step)).texts) :
    ∃ registration, registrations.find? (·.step.text = text) = some registration ∧
      ∀ sent, sent.parsedStepText = text →
        (standard hooks (.ofList (registrations.map Registration.step)) executor).RunsBody executor
          sent registration.body := by
  have hget : (StepRegistry.ofList (registrations.map Registration.step)).get? text =
      (registrations.find? (·.step.text = text)).map Registration.step := by
    rw [StepRegistry.get?_ofList, List.find?_map]
    rfl
  cases hfind : registrations.find? (·.step.text = text) with
  | none =>
    rw [hfind] at hget
    exact absurd hmem (StepRegistry.get?_eq_none_iff.mp hget)
  | some registration =>
    rw [hfind] at hget
    refine ⟨registration, rfl, ?_⟩
    rintro sent rfl
    exact runsBody_of_get? hooks executor hget

/-- **A step that is listed is valid with as many parameters as its text has placeholders, and runs
the first body registered for its text.** For others nothing is done. -/
theorem listed_iff_valid_iff_called (hooks : HookRegistry) (registrations : List Registration)
    (executor : Executor) (text : String) (hlength : text.length < UInt64.size) :
    let dispatcher :=
      standard hooks (.ofList (registrations.map Registration.step)) executor
    ∃ names, dispatcher.Lists names ∧ (∀ count, ∃ verdict, dispatcher.Judges text count verdict) ∧
      (text ∈ names ↔ ∃ count, dispatcher.Valid text count) ∧
      (∀ sent, sent.parsedStepText = text →
        (text ∈ names ↔
          ∃ registration ∈ registrations, dispatcher.RunsBody executor sent registration.body) ∧
        (text ∉ names ↔ dispatcher.FindsNoStep sent)) ∧
      (text ∈ names ↔ ∃ registration ∈ registrations, registration.step.text = text) ∧
      (text ∈ names → names.count text = 1 ∧
        (∃ count : UInt64, count.toNat = StepText.occurrences text.toList ∧
          ∀ other, dispatcher.Valid text other ↔ other = count) ∧
        ∃ registration, registrations.find? (·.step.text = text) = some registration ∧
          ∀ sent, sent.parsedStepText = text →
            dispatcher.RunsBody executor sent registration.body) := by
  intro dispatcher
  let steps : StepRegistry := .ofList (registrations.map Registration.step)
  obtain ⟨count, hcount⟩ : ∃ count : UInt64, count.toNat = StepText.occurrences text.toList := by
    refine ⟨.ofNat (StepText.occurrences text.toList), UInt64.toNat_ofNat_of_lt' ?_⟩
    rw [← StepText.arity_eq_occurrences]
    exact Nat.lt_of_le_of_lt (StepText.arity_le_length _) (String.length_toList ▸ hlength)
  have hvalid (other : UInt64) (hmem : text ∈ steps.texts) :
      dispatcher.Valid text other ↔ other = count := by
    have hsome : (steps.get? text).isSome = true := by
      rw [Option.isSome_iff_ne_none, ne_eq, StepRegistry.get?_eq_none_iff]
      exact not_not_intro hmem
    rw [valid_iff_get?, ← hcount, UInt64.toNat_inj]
    exact and_iff_right hsome
  have hnone (hmem : text ∉ steps.texts) (sent : ExecuteStepRequest)
      (hsent : sent.parsedStepText = text) : dispatcher.FindsNoStep sent := by
    apply findsNoStep_of_get?
    rw [hsent]
    exact StepRegistry.get?_eq_none_iff.mpr hmem
  refine ⟨steps.texts, lists_texts hooks steps executor, ?_, ⟨?_, ?_⟩, ?_, ?_, ?_⟩
  · intro other
    exact ⟨_, judges_validate hooks steps executor text other⟩
  · intro hmem
    exact ⟨count, (hvalid count hmem).mpr rfl⟩
  · rintro ⟨other, hother⟩
    have hsome := ((valid_iff_get? hooks executor text other).mp hother).1
    by_cases hmem : text ∈ steps.texts
    · exact hmem
    · rw [StepRegistry.get?_eq_none_iff.mpr hmem] at hsome
      contradiction
  · intro sent hsent
    by_cases hmem : text ∈ steps.texts
    · obtain ⟨registration, hfind, hbody⟩ := exists_runsBody_of_mem hooks executor hmem
      have hrun := hbody sent hsent
      exact ⟨iff_of_true hmem ⟨registration, List.mem_of_find?_eq_some hfind, hrun⟩,
        iff_of_false (not_not_intro hmem) fun hfinds => hfinds.not_runsBody executor hrun⟩
    · have hfinds := hnone hmem sent hsent
      refine ⟨iff_of_false hmem ?_, iff_of_true hmem hfinds⟩
      rintro ⟨registration, -, hrun⟩
      exact hfinds.not_runsBody executor hrun
  · rw [StepRegistry.mem_texts_ofList, List.map_map, List.mem_map]
    rfl
  · intro hmem
    have honce : steps.texts.count text = 1 :=
      (List.Nodup.count steps.nodup).trans (if_pos hmem)
    exact ⟨honce, ⟨count, hcount, fun other => hvalid other hmem⟩,
      exists_runsBody_of_mem hooks executor hmem⟩

/-- Two ways to write one step: the first body is run, and what it stores stays. -/
theorem listed_iff_valid_iff_called_of_two_spellings :
    let saying (arguments : List String) : Action (Except HookError Unit) :=
      .store .suite (.put "said" (.array (arguments.map .string))) fun _ => .done (.ok ())
    let registrations : List Registration :=
      [⟨"say <what>", saying⟩, ⟨"say \x7b\x7d", fun _ => .panic .other⟩,
        ⟨"say", fun _ => .done (.ok ())⟩]
    let dispatcher := standard .empty (.ofList (registrations.map Registration.step)) ⟨none⟩
    let outcome := dispatcher.dispatch
      ⟨7, .executeStep, .executeStep ⟨"say hi", "say \x7b\x7d", ["hi"], false⟩⟩ .fresh
    "say \x7b\x7d".length < UInt64.size ∧
      (∀ other, dispatcher.Valid "say \x7b\x7d" other ↔ other = 1) ∧
      (∃ result, outcome.1 = .done (.ok (.executionStatus 7 result)) ∧ result.failed = false) ∧
      outcome.2.trace = [.stepCalled "say \x7b\x7d" ["hi"],
        .stored .suite (.put "said" (.array [.string "hi"]))] ∧
      outcome.2.stores.suite.get? "said" = some (.array [.string "hi"]) := by
  intro saying registrations dispatcher outcome
  have hlength : "say \x7b\x7d".length < UInt64.size := by decide
  obtain ⟨names, -, -, -, -, hmem, hlisted⟩ :=
    listed_iff_valid_iff_called .empty registrations ⟨none⟩ "say \x7b\x7d" hlength
  have htext : (Registration.step ⟨"say <what>", saying⟩).text = "say \x7b\x7d" := by decide
  obtain ⟨-, ⟨count, hcount, hvalid⟩, registration, hfind, hruns⟩ :=
    hlisted (hmem.mpr ⟨_, List.mem_cons_self, htext⟩)
  obtain rfl : count = 1 := UInt64.toNat_inj.mp hcount
  have hfirst : registration = ⟨"say <what>", saying⟩ := by
    rw [List.find?_cons_of_pos (by simpa using htext)] at hfind
    exact (Option.some.inj hfind).symm
  subst hfirst
  obtain ⟨ended, left, hruns⟩ := hruns ⟨"say hi", "say \x7b\x7d", ["hi"], false⟩ rfl 7 .fresh
  obtain ⟨rfl, rfl⟩ := Prod.mk.inj hruns.run
  have hafter : outcome.2 = _ := hruns.quiet (.inr rfl)
  refine ⟨hlength, hvalid, ?_, ?_, ?_⟩
  · rcases hruns.answer with ⟨result, hresult, hfailed, -⟩ | ⟨hfails, -⟩
    · exact ⟨result, hresult, hfailed⟩
    · cases hfails
  · rw [hafter]
    rfl
  · rw [hafter]
    rfl

end Dispatcher

end StepRunner
