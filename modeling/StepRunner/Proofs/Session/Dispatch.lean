import StepRunner.Dispatcher

namespace StepRunner

/-- Why a request is refused, whatever hooks and steps there are. -/
def Message.refusal? (request : Message) : Option ProtocolError :=
  if request.type.responseType? = none then some (.unsupported request.type)
  else if request.Fits then none
  else some (.mismatch request)

theorem Message.refusal?_eq_none {request : Message} :
    request.refusal? = none ↔ request.type.responseType? ≠ none ∧ request.Fits := by
  rw [refusal?]
  split <;> simp [*]

/-- The message is the answer in kind to a request. -/
structure Message.Answers (response request : Message) : Prop where
  id : response.id = request.id
  type : request.type.responseType? = some response.type
  fits : response.Fits

namespace Processor

/-- The request has the processor's type, and a payload of that type. -/
def Accepts (processor : Processor) (request : Message) : Prop :=
  request.type = processor.type ∧ request.payload.type = processor.type

variable {processor : Processor} {request : Message}

/-- A refused request leaves the world as it was. -/
theorem process_of_not_accepts (h : ¬ processor.Accepts request) (world : World) :
    processor.process request world = (.done (.error (.mismatch request)), world) := by
  obtain ⟨id, sent, payload⟩ := request
  by_cases htype : sent = processor.type
  · have hpayload : payload.type ≠ processor.type := fun hpayload => h ⟨htype, hpayload⟩
    subst htype
    cases processor <;> cases payload <;> simp_all [process, type, Payload.type]
  · unfold process
    exact if_pos htype

/-- The requests of each processor. -/
inductive Serves : Processor → Message → Prop
  | hooks (event : LifecycleEvent) (registry : HookRegistry) (executor : Executor) (id : Int64)
      (info : Option ExecutionInfo) :
      Serves (.hooks event registry executor) ⟨id, .lifecycle event, .lifecycle event info⟩
  | storeInit (scope : Scope) (id : Int64) :
      Serves (.storeInit scope) ⟨id, .storeInit scope, .storeInit scope⟩
  | executeStep (steps : StepRegistry) (executor : Executor) (id : Int64)
      (sent : ExecuteStepRequest) :
      Serves (.executeStep steps executor) ⟨id, .executeStep, .executeStep sent⟩
  | validate (steps : StepRegistry) (id : Int64) (sent : StepValidateRequest) :
      Serves (.validate steps) ⟨id, .stepValidateRequest, .stepValidateRequest sent⟩
  | names (steps : StepRegistry) (id : Int64) :
      Serves (.names steps) ⟨id, .stepNamesRequest, .stepNamesRequest⟩
  | kill (id : Int64) : Serves .kill ⟨id, .killProcess, .killProcess⟩

theorem serves_of_accepts (h : processor.Accepts request) : Serves processor request := by
  obtain ⟨id, sent, payload⟩ := request
  obtain ⟨rfl, hpayload⟩ := h
  cases processor <;> cases payload <;> cases hpayload <;> constructor

theorem process_hooks (event : LifecycleEvent) (registry : HookRegistry) (executor : Executor)
    (id : Int64) (info : Option ExecutionInfo) (world : World) :
    (hooks event registry executor).process ⟨id, .lifecycle event, .lifecycle event info⟩ world =
      status id (executor.executeHooks (registry.get event.category) (info.getD .empty) world) := by
  simp only [process, type, ne_eq, not_true, if_false, if_true]

theorem process_storeInit (scope : Scope) (id : Int64) (world : World) :
    (storeInit scope).process ⟨id, .storeInit scope, .storeInit scope⟩ world =
      (.done (.ok (.executionStatus id (.passed 0))),
        { world with stores := world.stores.apply scope .clear }) := by
  simp only [process, type, ne_eq, not_true, if_false, if_true, status]

theorem status_snd (id : Int64) (run : Outcome ExecutionResult × World) :
    (status id run).2 = run.2 := by
  rcases run with ⟨(result | reason), after⟩ <;> rfl

theorem status_cases (request : Message) (run : Outcome ExecutionResult × World)
    (htype : request.type.responseType? = some .executionStatus) :
    (∃ reason after, status request.id run = (.panicked reason, after)) ∨
      ∃ response after, status request.id run = (.done (.ok response), after) ∧
        response.Answers request := by
  obtain ⟨outcome, after⟩ := run
  cases outcome with
  | panicked reason => exact .inl ⟨reason, after, rfl⟩
  | done result => exact .inr ⟨_, after, rfl, rfl, htype, Message.fits_executionStatus _ _⟩

/-- An accepted request is answered in kind, unless a panic tears through. -/
theorem process_of_accepts (h : processor.Accepts request) (world : World) :
    (∃ reason after, processor.process request world = (.panicked reason, after)) ∨
      ∃ response after, processor.process request world = (.done (.ok response), after) ∧
        response.Answers request := by
  cases serves_of_accepts h with
  | hooks event registry executor id info =>
    rw [process_hooks]
    exact status_cases ⟨id, .lifecycle event, _⟩ _ rfl
  | storeInit scope id => exact .inr ⟨_, _, process_storeInit scope id world, rfl, rfl, rfl⟩
  | executeStep steps executor id sent => exact status_cases ⟨id, .executeStep, _⟩ _ rfl
  | validate | names | kill => exact .inr ⟨_, world, rfl, rfl, rfl, rfl⟩

end Processor

namespace Dispatcher

variable (hooks : HookRegistry) (steps : StepRegistry) (executor : Executor)

/-- The processor for a type of request; answers have none. -/
def processor? : MessageType → Option Processor
  | .lifecycle event => some (.hooks event hooks executor)
  | .storeInit scope => some (.storeInit scope)
  | .executeStep => some (.executeStep steps executor)
  | .stepValidateRequest => some (.validate steps)
  | .stepNamesRequest => some (.names steps)
  | .killProcess => some .kill
  | .stepValidateResponse | .executionStatus | .stepNamesResponse => none

theorem handler?_standard (type : MessageType) :
    (standard hooks steps executor).handler? type =
      (processor? hooks steps executor type).map (·.process) := by
  cases type with
  | lifecycle event => cases event <;> rfl
  | storeInit scope => cases scope <;> rfl
  | _ => rfl

variable {hooks steps executor} {type : MessageType}

theorem type_of_processor? {processor : Processor}
    (h : processor? hooks steps executor type = some processor) : processor.type = type := by
  cases type <;> cases h <;> rfl

theorem exists_processor? {answer : MessageType} (h : type.responseType? = some answer) :
    ∃ processor, processor? hooks steps executor type = some processor := by
  cases type <;> first | exact ⟨_, rfl⟩ | cases h

theorem processor?_of_responseType? (h : type.responseType? = none) :
    processor? hooks steps executor type = none := by
  cases type <;> first | rfl | cases h

variable {request response : Message} {before after : World}

/-- A type without an answer is not supported. -/
theorem dispatch_of_no_answer (h : request.type.responseType? = none) (world : World) :
    (standard hooks steps executor).dispatch request world =
      (.done (.error (.unsupported request.type)), world) := by
  rw [dispatch, handler?_standard, processor?_of_responseType? h]
  rfl

theorem dispatch_of_answer {answer : MessageType} (h : request.type.responseType? = some answer)
    (world : World) : ∃ processor : Processor, processor.type = request.type ∧
      (standard hooks steps executor).dispatch request world = processor.process request world := by
  obtain ⟨processor, hprocessor⟩ := exists_processor? h
  refine ⟨processor, type_of_processor? hprocessor, ?_⟩
  rw [dispatch, handler?_standard, hprocessor]
  rfl

variable (hooks steps executor) in
/-- A request is not supported, or does not fit its type, or is torn by a panic, or is answered in
kind. -/
theorem dispatch_cases (request : Message) (world : World) :
    let outcome := (standard hooks steps executor).dispatch request world
    (request.type.responseType? = none ∧
        outcome = (.done (.error (.unsupported request.type)), world)) ∨
      (¬ request.Fits ∧ outcome = (.done (.error (.mismatch request)), world)) ∨
      (∃ reason after, outcome = (.panicked reason, after)) ∨
      ∃ response after, outcome = (.done (.ok response), after) ∧ response.Answers request := by
  intro outcome
  cases hanswer : request.type.responseType? with
  | none => exact .inl ⟨rfl, dispatch_of_no_answer hanswer world⟩
  | some answer =>
    obtain ⟨processor, htype, hdispatch⟩ := dispatch_of_answer hanswer world
    have houtcome : outcome = processor.process request world := hdispatch
    rw [houtcome]
    by_cases hfits : request.Fits
    · have haccepts : processor.Accepts request := ⟨htype.symm, hfits.trans htype.symm⟩
      exact .inr (.inr (processor.process_of_accepts haccepts world))
    · have hrefuses : ¬ processor.Accepts request :=
        fun haccepts => hfits (haccepts.2.trans haccepts.1.symm)
      exact .inr (.inl ⟨hfits, processor.process_of_not_accepts hrefuses world⟩)

/-- **What is answered is answered in kind.** -/
theorem answers_of_dispatch
    (h : (standard hooks steps executor).dispatch request before = (.done (.ok response), after)) :
    response.Answers request := by
  rcases dispatch_cases hooks steps executor request before with
    ⟨-, hd⟩ | ⟨-, hd⟩ | ⟨reason, later, hd⟩ | ⟨found, later, hd, hanswers⟩
  · rw [hd] at h
    cases h
  · rw [hd] at h
    cases h
  · rw [hd] at h
    cases h
  · rw [hd] at h
    cases h
    exact hanswers

/-- A message that fits its type is only refused for having a type that no processor has. -/
theorem unsupported_of_dispatch {e : ProtocolError} (hfits : request.Fits)
    (h : (standard hooks steps executor).dispatch request before = (.done (.error e), after)) :
    request.type.responseType? = none ∧ e = .unsupported request.type := by
  rcases dispatch_cases hooks steps executor request before with
    ⟨hnone, hd⟩ | ⟨hmisfit, -⟩ | ⟨reason, later, hd⟩ | ⟨found, later, hd, -⟩
  · rw [hd] at h
    cases h
    exact ⟨hnone, rfl⟩
  · exact absurd hfits hmisfit
  · rw [hd] at h
    cases h
  · rw [hd] at h
    cases h

theorem dispatch_of_refusal? {e : ProtocolError} (h : request.refusal? = some e) (world : World) :
    (standard hooks steps executor).dispatch request world = (.done (.error e), world) := by
  rw [Message.refusal?] at h
  split at h
  · next hnone =>
    cases h
    exact dispatch_of_no_answer hnone world
  · next hanswer =>
    split at h
    · cases h
    · next hmisfit =>
      cases h
      obtain ⟨answer, hanswer⟩ := Option.ne_none_iff_exists'.mp hanswer
      obtain ⟨processor, htype, hdispatch⟩ := dispatch_of_answer hanswer world
      rw [hdispatch]
      exact Processor.process_of_not_accepts
        (fun haccepts => hmisfit (haccepts.2.trans haccepts.1.symm)) world

/-- An error is a refusal, whatever the world, and leaves the world as it was. -/
theorem refusal?_of_dispatch {e : ProtocolError}
    (h : (standard hooks steps executor).dispatch request before = (.done (.error e), after)) :
    request.refusal? = some e ∧ after = before := by
  cases hrefusal : request.refusal? with
  | some found =>
    rw [dispatch_of_refusal? hrefusal] at h
    cases h
    exact ⟨rfl, rfl⟩
  | none =>
    obtain ⟨hanswer, hfits⟩ := Message.refusal?_eq_none.mp hrefusal
    exact absurd (unsupported_of_dispatch hfits h).1 hanswer

variable (hooks steps executor) in
/-- What is not refused is a request of the processor for its type. -/
theorem exists_serves_of_not_refused (h : request.refusal? = none) :
    ∃ processor, processor? hooks steps executor request.type = some processor ∧
      processor.Serves request ∧ ∀ world,
        (standard hooks steps executor).dispatch request world = processor.process request world := by
  obtain ⟨hanswer, hfits⟩ := Message.refusal?_eq_none.mp h
  obtain ⟨answer, hanswer⟩ := Option.ne_none_iff_exists'.mp hanswer
  obtain ⟨processor, hprocessor⟩ := exists_processor? hanswer
  have htype := type_of_processor? hprocessor
  refine ⟨processor, hprocessor, Processor.serves_of_accepts ⟨htype.symm, hfits.trans htype.symm⟩, ?_⟩
  intro world
  rw [dispatch, handler?_standard, hprocessor]
  rfl

/-- What is answered was a request of the processor for its type. -/
theorem serves_of_dispatch
    (h : (standard hooks steps executor).dispatch request before = (.done (.ok response), after)) :
    ∃ processor, processor? hooks steps executor request.type = some processor ∧
      processor.Serves request ∧
      processor.process request before = (.done (.ok response), after) := by
  cases hrefusal : request.refusal? with
  | some e =>
    rw [dispatch_of_refusal? hrefusal] at h
    cases h
  | none =>
    obtain ⟨processor, hprocessor, hserves, hdispatch⟩ :=
      exists_serves_of_not_refused hooks steps executor hrefusal
    exact ⟨processor, hprocessor, hserves, (hdispatch before).symm.trans h⟩

end Dispatcher

end StepRunner
