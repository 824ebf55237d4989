import StepRunner.Proofs.Session.Interpreter
import StepRunner.Proofs.Session.Panic
import StepRunner.Proofs.Step.Registry
import StepRunner.Runner

namespace StepRunner

namespace StepRegistry

variable {first second : StepRegistry}

/-- Validation looks at texts only. -/
theorem validate_congr (h : ∀ text, text ∈ first.texts ↔ text ∈ second.texts)
    (request : StepValidateRequest) : first.validate request = second.validate request := by
  have hnone : first.get? request.stepText = none ↔ second.get? request.stepText = none := by
    rw [get?_eq_none_iff, get?_eq_none_iff, h]
  rw [validate, validate]
  cases hfirst : first.get? request.stepText with
  | none => rw [hnone.mp hfirst]
  | some step =>
    cases hsecond : second.get? request.stepText with
    | none => rw [hnone.mpr hsecond] at hfirst; cases hfirst
    | some other =>
      have harity : step.arity = other.arity := by
        rw [Step.arity, Step.arity, text_of_get? hfirst, text_of_get? hsecond]
      simp only [harity]

end StepRegistry

/-- What two answers to one request have in common, whatever the hooks and steps of `first` and
`second` do. -/
structure Exchange.Agrees (first second : StepRegistry) (exchange other : Exchange) : Prop where
  request : exchange.request = other.request
  id : exchange.response.id = other.response.id
  type : exchange.response.type = other.response.type
  storeInit : ∀ scope, exchange.request.type = .storeInit scope →
    exchange.response = other.response
  kill : exchange.request.type = .killProcess → exchange.response = other.response
  names : exchange.request.type = .stepNamesRequest → first.texts = second.texts →
    exchange.response = other.response
  validate : exchange.request.type = .stepValidateRequest →
    (∀ text, text ∈ first.texts ↔ text ∈ second.texts) → exchange.response = other.response

namespace Dispatcher

section

variable {hooks : HookRegistry} {steps : StepRegistry} {executor : Executor}
  {request response : Message} {before after : World}

theorem response_storeInit {scope : Scope} (htype : request.type = .storeInit scope)
    (h : (standard hooks steps executor).dispatch request before = (.done (.ok response), after)) :
    response = .executionStatus request.id (.passed 0) := by
  obtain ⟨processor, hprocessor, hserves, hprocess⟩ := serves_of_dispatch h
  rw [htype] at hprocessor
  cases hprocessor
  cases hserves
  rw [Processor.process_storeInit] at hprocess
  cases hprocess
  rfl

theorem response_kill (htype : request.type = .killProcess)
    (h : (standard hooks steps executor).dispatch request before = (.done (.ok response), after)) :
    response = .executionStatus request.id (.passed 0) := by
  obtain ⟨processor, hprocessor, hserves, hprocess⟩ := serves_of_dispatch h
  rw [htype] at hprocessor
  cases hprocessor
  cases hserves
  cases hprocess
  rfl

theorem response_names (htype : request.type = .stepNamesRequest)
    (h : (standard hooks steps executor).dispatch request before = (.done (.ok response), after)) :
    response = ⟨request.id, .stepNamesResponse, .stepNamesResponse steps.texts⟩ := by
  obtain ⟨processor, hprocessor, hserves, hprocess⟩ := serves_of_dispatch h
  rw [htype] at hprocessor
  cases hprocessor
  cases hserves
  cases hprocess
  rfl

theorem response_validate (htype : request.type = .stepValidateRequest)
    (h : (standard hooks steps executor).dispatch request before = (.done (.ok response), after)) :
    ∃ sent, request.payload = .stepValidateRequest sent ∧ response =
      ⟨request.id, .stepValidateResponse, .stepValidateResponse (steps.validate sent)⟩ := by
  obtain ⟨processor, hprocessor, hserves, hprocess⟩ := serves_of_dispatch h
  rw [htype] at hprocessor
  cases hprocessor
  cases hserves with
  | validate _ id sent =>
    cases hprocess
    exact ⟨sent, rfl, rfl⟩

end

section

variable {hooks hooks' : HookRegistry} {first second : StepRegistry} {executor executor' : Executor}

theorem agrees_of_dispatch {request response response' : Message}
    {before before' after after' : World}
    (h : (standard hooks first executor).dispatch request before = (.done (.ok response), after))
    (h' : (standard hooks' second executor').dispatch request before' =
      (.done (.ok response'), after')) :
    Exchange.Agrees first second ⟨request, before, response, after⟩
      ⟨request, before', response', after'⟩ where
  request := rfl
  id := (answers_of_dispatch h).id.trans (answers_of_dispatch h').id.symm
  type := Option.some.inj ((answers_of_dispatch h).type.symm.trans (answers_of_dispatch h').type)
  storeInit _ htype := (response_storeInit htype h).trans (response_storeInit htype h').symm
  kill htype := (response_kill htype h).trans (response_kill htype h').symm
  names htype htexts := by
    rw [show response = _ from response_names htype h, htexts]
    exact (response_names htype h').symm
  validate htype htexts := by
    obtain ⟨sent, hsent, hresponse⟩ := response_validate htype h
    obtain ⟨sent', hsent', hresponse'⟩ := response_validate htype h'
    obtain rfl : sent = sent' := Payload.stepValidateRequest.inj (hsent.symm.trans hsent')
    rw [show response = _ from hresponse, StepRegistry.validate_congr htexts]
    exact hresponse'.symm

/-- Over the same frames two sessions stay in step, each in worlds of its own. -/
theorem converse_agrees (hgrabber : ∀ grabber ∈ executor.grabber, grabber.Returns)
    (hgrabber' : ∀ grabber ∈ executor'.grabber, grabber.Returns)
    (exit : Except ProtocolError LoopExit) (frames : List Bytes) (world world' : World) :
    let session := (standard hooks first executor).converse exit frames world
    let session' := (standard hooks' second executor').converse exit frames world'
    (∃ exit, session.result = .done exit ∧ session'.result = .done exit) ∧
      List.Forall₂ (Exchange.Agrees first second) session.exchanges session'.exchanges := by
  -- The two worlds drift apart with the first body called, so the induction is for any two.
  induction frames generalizing world world' with
  | nil => exact ⟨⟨exit, rfl, rfl⟩, .nil⟩
  | cons frame frames ih =>
    cases hd : Message.decode frame with
    | error e =>
      simp only [converse, hd]
      exact ⟨⟨_, rfl, rfl⟩, .nil⟩
    | ok request =>
      cases hrefusal : request.refusal? with
      | some e =>
        simp only [converse, hd, dispatch_of_refusal? hrefusal]
        exact ⟨⟨_, rfl, rfl⟩, .nil⟩
      | none =>
        obtain ⟨response, after, hp⟩ :=
          dispatch_of_not_refused hooks first hgrabber hrefusal world
        obtain ⟨response', after', hp'⟩ :=
          dispatch_of_not_refused hooks' second hgrabber' hrefusal world'
        have hagrees := agrees_of_dispatch hp hp'
        simp only [converse, hd, hp, hp']
        by_cases hkill : request.type = .killProcess
        · rw [if_pos hkill, if_pos hkill]
          exact ⟨⟨_, rfl, rfl⟩, .cons hagrees .nil⟩
        · rw [if_neg hkill, if_neg hkill]
          obtain ⟨hexit, hrest⟩ := ih after after'
          exact ⟨hexit, .cons hagrees hrest⟩

end

end Dispatcher

namespace Runner

/-- **What hooks and steps do shows in the results of answers only.** Two runners that are sent the
same end alike, with responses that agree one by one. -/
theorem run_agrees (first second : Runner)
    (hfirst : ∀ grabber ∈ first.executor.grabber, grabber.Returns)
    (hsecond : ∀ grabber ∈ second.executor.grabber, grabber.Returns)
    (source : Source) {sink sink' : Sink} (hsink : sink.Accepting) (hsink' : sink'.Accepting)
    (world world' : World) :
    let served := first.dispatcher.run (.ofParts source sink) world
    let served' := second.dispatcher.run (.ofParts source sink') world'
    let session := first.dispatcher.session source.stream world
    let session' := second.dispatcher.session source.stream world'
    (∃ exit, served.result = .done exit ∧ served'.result = .done exit) ∧
      served.transport.sink.written = sink.written ++ session.written ∧
      served'.transport.sink.written = sink'.written ++ session'.written ∧
      List.Forall₂ (Exchange.Agrees first.steps second.steps)
        session.exchanges session'.exchanges := by
  intro served served' session session'
  obtain ⟨hresult, -, hwritten⟩ := first.dispatcher.run_of_accepting source hsink world
  obtain ⟨hresult', -, hwritten'⟩ := second.dispatcher.run_of_accepting source hsink' world'
  obtain ⟨⟨exit, hexit, hexit'⟩, hagrees⟩ := Dispatcher.converse_agrees hfirst hsecond
    ((Frame.cutAll source.stream.bytes).2.exit source.stream.failure)
    (Frame.cutAll source.stream.bytes).1 world world'
  exact ⟨⟨exit, hresult.trans hexit, hresult'.trans hexit'⟩, hwritten, hwritten', hagrees⟩

/-- A hook that stores a value and fails, against one that panics. -/
theorem run_agrees_of_failing_hooks :
    let config : Config := ⟨".", "127.0.0.1", none, 30, true⟩
    let stores : Hook := ⟨"stores", fun _ =>
      .store .suite (.put "key" .null) fun _ => .done (.error (.failed "stored"))⟩
    let panics : Hook := ⟨"panics", fun _ => .panic .other⟩
    let first : Runner := ⟨config, .ofList [(.beforeSuite, stores)], .empty, some (.done (some [7]))⟩
    let second : Runner := ⟨config, .ofList [(.beforeSuite, panics)], .empty, none⟩
    let source : Source := [.data [4, 8, 0, 16, 1, 4, 8, 12, 16, 2], .data [4, 8, 14, 16, 3]]
    let served := first.dispatcher.run (.ofParts source .unlimited) .fresh
    let served' := second.dispatcher.run (.ofParts source .unlimited) .fresh
    let session := first.dispatcher.session source.stream .fresh
    let session' := second.dispatcher.session source.stream .fresh
    (∀ grabber ∈ first.executor.grabber, grabber.Returns) ∧
      (∀ grabber ∈ second.executor.grabber, grabber.Returns) ∧ Sink.unlimited.Accepting ∧
      served.result = .done (.ok .killed) ∧ served'.result = .done (.ok .killed) ∧
      session.exchanges.map (·.response.id) = [1, 2, 3] ∧
      List.Forall₂ (Exchange.Agrees .empty .empty) session.exchanges session'.exchanges := by
  intro config stores panics first second source served served' session session'
  have hfirst : ∀ grabber ∈ first.executor.grabber, grabber.Returns := by
    intro grabber hgrabber world
    cases hgrabber
    exact ⟨some [7], world, rfl⟩
  have hsecond : ∀ grabber ∈ second.executor.grabber, grabber.Returns := by
    intro grabber hgrabber
    cases hgrabber
  have hframes : Frame.cutAll source.stream.bytes =
      ([[8, 0, 16, 1], [8, 12, 16, 2], [8, 14, 16, 3]], .nothing) := by
    simp only [source]
    cbv
  have hstarting : Message.decode [8, 0, 16, 1] =
      .ok ⟨1, .lifecycle .executionStarting, .lifecycle .executionStarting none⟩ := by cbv
  have hnames : Message.decode [8, 12, 16, 2] =
      .ok ⟨2, .stepNamesRequest, .stepNamesRequest⟩ := by cbv
  have hkill : Message.decode [8, 14, 16, 3] = .ok ⟨3, .killProcess, .killProcess⟩ := by cbv
  have hsession : session.result = .done (.ok .killed) ∧
      session.exchanges.map (·.response.id) = [1, 2, 3] := by
    simp only [session, Dispatcher.session, hframes, Dispatcher.converse, hstarting, hnames, hkill]
    exact ⟨rfl, rfl⟩
  have hkilled : served.result = .done (.ok .killed) :=
    (first.dispatcher.run_of_accepting source Sink.accepting_unlimited .fresh).1.trans hsession.1
  obtain ⟨⟨exit, hexit, hexit'⟩, -, -, hagrees⟩ := run_agrees first second hfirst hsecond source
    Sink.accepting_unlimited Sink.accepting_unlimited .fresh .fresh
  obtain rfl : exit = .ok .killed := Outcome.done.inj (hexit.symm.trans hkilled)
  exact ⟨hfirst, hsecond, Sink.accepting_unlimited, hkilled, hexit', hsession.2, hagrees⟩

end Runner

end StepRunner
