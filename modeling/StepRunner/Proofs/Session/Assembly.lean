import StepRunner.Proofs.Session.Panic

namespace StepRunner

/-- The field that carries the payload of each type of message. -/
def Payload.fieldNames : List (MessageType × String) :=
  [(.lifecycle .executionStarting, "executionStartingRequest"),
    (.lifecycle .executionEnding, "executionEndingRequest"),
    (.lifecycle .specStarting, "specExecutionStartingRequest"),
    (.lifecycle .specEnding, "specExecutionEndingRequest"),
    (.lifecycle .scenarioStarting, "scenarioExecutionStartingRequest"),
    (.lifecycle .scenarioEnding, "scenarioExecutionEndingRequest"),
    (.lifecycle .stepStarting, "stepExecutionStartingRequest"),
    (.lifecycle .stepEnding, "stepExecutionEndingRequest"),
    (.executeStep, "executeStepRequest"), (.stepValidateRequest, "stepValidateRequest"),
    (.stepValidateResponse, "stepValidateResponse"), (.stepNamesRequest, "stepNamesRequest"),
    (.stepNamesResponse, "stepNamesResponse"), (.executionStatus, "executionStatusResponse"),
    (.killProcess, "killProcessRequest"), (.storeInit .suite, "suiteDataStoreInitRequest"),
    (.storeInit .spec, "specDataStoreInitRequest"),
    (.storeInit .scenario, "scenarioDataStoreInitRequest")]

theorem Payload.name_mem_fieldNames (payload : Payload) :
    (payload.type, payload.name) ∈ fieldNames := by
  have hall : ∀ type ∈ MessageType.all, (type, type.payloadName) ∈ fieldNames := by decide
  exact hall payload.type (MessageType.mem_all _)

namespace Processor

variable {processor : Processor} {request response : Message} {world : World}

/-- All that can come of a request at a processor. -/
theorem process_cases (processor : Processor) (request : Message) (world : World) :
    (¬ processor.Accepts request ∧
        processor.process request world = (.done (.error (.mismatch request)), world)) ∨
      (∃ reason after, processor.process request world = (.panicked reason, after) ∧
        processor.Accepts request ∧ GrabberPanics processor.grabber? reason after) ∨
      ∃ response after, processor.process request world = (.done (.ok response), after) ∧
        processor.Accepts request ∧ response.Answers request := by
  by_cases haccepts : processor.Accepts request
  · rcases process_of_accepts haccepts world with
      ⟨reason, after, hpanic⟩ | ⟨response, after, hok, hanswers⟩
    · exact .inr (.inl ⟨reason, after, hpanic, grabberPanics_of_process hpanic⟩)
    · exact .inr (.inr ⟨response, after, hok, haccepts, hanswers⟩)
  · exact .inl ⟨haccepts, process_of_not_accepts haccepts world⟩

theorem process_error {e : ProtocolError}
    (h : (processor.process request world).1 = .done (.error e)) :
    ¬ processor.Accepts request ∧ e = .mismatch request ∧
      (processor.process request world).2 = world := by
  rcases process_cases processor request world with
    ⟨hrefuses, hp⟩ | ⟨reason, after, hp, -⟩ | ⟨response, after, hp, -⟩
  · rw [hp] at h ⊢
    cases h
    exact ⟨hrefuses, rfl, rfl⟩
  · rw [hp] at h
    cases h
  · rw [hp] at h
    cases h

theorem process_ok (h : (processor.process request world).1 = .done (.ok response)) :
    processor.Accepts request ∧ response.Answers request := by
  rcases process_cases processor request world with
    ⟨-, hp⟩ | ⟨reason, after, hp, -⟩ | ⟨found, after, hp, haccepts, hanswers⟩
  · rw [hp] at h
    cases h
  · rw [hp] at h
    cases h
  · rw [hp] at h
    cases h
    exact ⟨haccepts, hanswers⟩

theorem process_refused_iff : (processor.process request world).1 =
    .done (.error (.mismatch request)) ↔ ¬ processor.Accepts request := by
  refine ⟨fun h => (process_error h).1, ?_⟩
  intro h
  rw [process_of_not_accepts h]

/-- What a processor accepts it answers, or its grabber tears the answer. -/
theorem accepts_iff (world : World) : processor.Accepts request ↔
    (∃ response, (processor.process request world).1 = .done (.ok response)) ∨
      ∃ reason, (processor.process request world).1 = .panicked reason ∧
        GrabberPanics processor.grabber? reason (processor.process request world).2 := by
  constructor
  · intro haccepts
    rcases process_cases processor request world with
      ⟨hrefuses, -⟩ | ⟨reason, after, hp, -, hpanics⟩ | ⟨response, after, hp, -⟩
    · exact absurd haccepts hrefuses
    · rw [hp]
      exact .inr ⟨reason, rfl, hpanics⟩
    · exact .inl ⟨response, congrArg Prod.fst hp⟩
  · rintro (⟨response, hok⟩ | ⟨reason, hpanic, -⟩)
    · exact (process_ok hok).1
    · exact (grabberPanics_of_process (Prod.ext hpanic rfl)).1

end Processor

namespace Dispatcher

/-- No later registration is for the type. -/
def IsLast (processors : List (MessageType × Processor)) (type : MessageType)
    (processor : Processor) : Prop :=
  ∃ earlier later, processors = earlier ++ (type, processor) :: later ∧
    ∀ entry ∈ later, entry.1 ≠ type

section

variable {type : MessageType} {processor : Processor} {processors : List (MessageType × Processor)}

theorem forall_ne_or_isLast (processors : List (MessageType × Processor)) (type : MessageType) :
    (∀ entry ∈ processors, entry.1 ≠ type) ∨
      ∃ processor, IsLast processors type processor := by
  induction processors with
  | nil => exact .inl (by simp)
  | cons first processors ih =>
    rcases ih with hnone | ⟨processor, earlier, later, rfl, hlater⟩
    · by_cases hfirst : first.1 = type
      · exact .inr ⟨first.2, [], processors, by rw [← hfirst]; rfl, hnone⟩
      · exact .inl (List.forall_mem_cons.mpr ⟨hfirst, hnone⟩)
    · exact .inr ⟨processor, first :: earlier, later, rfl, hlater⟩

theorem not_forall_ne_of_isLast (h : IsLast processors type processor) :
    ¬ ∀ entry ∈ processors, entry.1 ≠ type := by
  obtain ⟨earlier, later, rfl, -⟩ := h
  intro hnone
  exact hnone (type, processor) (by simp) rfl

/-- Registrations for other types leave a type's handler alone. -/
theorem handler?_foldl_of_ne (h : ∀ entry ∈ processors, entry.1 ≠ type) (dispatcher : Dispatcher) :
    (processors.foldl (fun dispatcher (entry : MessageType × Processor) =>
      dispatcher.register entry.1 entry.2.process) dispatcher).handler? type =
        dispatcher.handler? type := by
  induction processors generalizing dispatcher with
  | nil => rfl
  | cons entry processors ih =>
    obtain ⟨hentry, hrest⟩ := List.forall_mem_cons.mp h
    rw [List.foldl_cons, ih hrest]
    exact if_neg (Ne.symm hentry)

theorem handler?_ofList_of_ne (h : ∀ entry ∈ processors, entry.1 ≠ type) :
    (ofList processors).handler? type = none :=
  handler?_foldl_of_ne h empty

theorem handler?_ofList_of_isLast (h : IsLast processors type processor) :
    (ofList processors).handler? type = some processor.process := by
  obtain ⟨earlier, later, rfl, hlater⟩ := h
  rw [ofList, List.foldl_append, List.foldl_cons]
  exact (handler?_foldl_of_ne hlater _).trans (if_pos rfl)

variable {request : Message}

theorem dispatch_ofList_of_ne (h : ∀ entry ∈ processors, entry.1 ≠ request.type) (world : World) :
    (ofList processors).dispatch request world =
      (.done (.error (.unsupported request.type)), world) := by
  rw [dispatch, handler?_ofList_of_ne h]

theorem dispatch_ofList_of_isLast (h : IsLast processors request.type processor) (world : World) :
    (ofList processors).dispatch request world = processor.process request world := by
  rw [dispatch, handler?_ofList_of_isLast h]

/-- Without a processor a request is not supported, and no processor says so of its own. -/
theorem unsupported_ofList_iff (processors : List (MessageType × Processor)) (request : Message)
    (world : World) :
    ((ofList processors).dispatch request world).1 = .done (.error (.unsupported request.type)) ↔
      ∀ entry ∈ processors, entry.1 ≠ request.type := by
  rcases forall_ne_or_isLast processors request.type with hnone | ⟨last, hlast⟩
  · rw [dispatch_ofList_of_ne hnone]
    exact iff_of_true rfl hnone
  · refine iff_of_false ?_ (not_forall_ne_of_isLast hlast)
    intro h
    rw [dispatch_ofList_of_isLast hlast] at h
    cases (Processor.process_error h).2.1

theorem world_of_error_ofList {world : World} {e : ProtocolError}
    (h : ((ofList processors).dispatch request world).1 = .done (.error e)) :
    ((ofList processors).dispatch request world).2 = world := by
  rcases forall_ne_or_isLast processors request.type with hnone | ⟨last, hlast⟩
  · rw [dispatch_ofList_of_ne hnone]
  · rw [dispatch_ofList_of_isLast hlast] at h ⊢
    exact (Processor.process_error h).2.2

theorem answers_of_ofList {world : World} {response : Message}
    (h : ((ofList processors).dispatch request world).1 = .done (.ok response)) :
    response.Answers request := by
  rcases forall_ne_or_isLast processors request.type with hnone | ⟨last, hlast⟩
  · rw [dispatch_ofList_of_ne hnone] at h
    cases h
  · rw [dispatch_ofList_of_isLast hlast] at h
    exact (Processor.process_ok h).2

end

/-- **The last processor registered for a type decides about its requests,** and refuses those that
are not its own before it does anything. -/
theorem dispatch_ofList (processors : List (MessageType × Processor)) (request : Message)
    (world : World) :
    let outcome := (ofList processors).dispatch request world
    (outcome.1 = .done (.error (.unsupported request.type)) ↔
        ∀ entry ∈ processors, entry.1 ≠ request.type) ∧
      (∀ processor, IsLast processors request.type processor →
        (∃ name, (request.payload.type, name) ∈ Payload.fieldNames ∧
          (outcome.1 = .done (.error (.payloadMismatch request.id request.type name)) ↔
            ¬ processor.Accepts request)) ∧
        (processor.Accepts request ↔
          (∃ response, outcome.1 = .done (.ok response)) ∨
            ∃ reason, outcome.1 = .panicked reason ∧
              GrabberPanics processor.grabber? reason outcome.2) ∧
        ((∀ grabber ∈ processor.grabber?, grabber.Returns) →
          ((∃ response, outcome.1 = .done (.ok response)) ↔ processor.Accepts request)) ∧
        ∀ reason, outcome.1 = .panicked reason →
          processor.Accepts request ∧ GrabberPanics processor.grabber? reason outcome.2) ∧
      (∀ e, outcome.1 = .done (.error e) → outcome.2 = world) ∧
      ∀ response, outcome.1 = .done (.ok response) →
        response.id = request.id ∧ response.Fits := by
  intro outcome
  refine ⟨unsupported_ofList_iff processors request world, ?_,
    fun e he => world_of_error_ofList he, ?_⟩
  · intro processor hlast
    have hdecides : outcome = processor.process request world :=
      dispatch_ofList_of_isLast hlast world
    rw [hdecides]
    refine ⟨⟨_, request.payload.name_mem_fieldNames, Processor.process_refused_iff⟩,
      Processor.accepts_iff world, ?_, ?_⟩
    · intro hgrabber
      rw [Processor.accepts_iff world]
      refine (or_iff_left ?_).symm
      rintro ⟨reason, -, hpanics⟩
      exact not_grabberPanics hgrabber reason _ hpanics
    · intro reason hpanic
      exact Processor.grabberPanics_of_process (Prod.ext hpanic rfl)
  · intro response hresponse
    have hanswers : response.Answers request := answers_of_ofList hresponse
    exact ⟨hanswers.id, hanswers.fits⟩

/-- Where the processor for kills was put in place of that for names, no names are told. -/
example : ((ofList [(.stepNamesRequest, .names .empty), (.stepNamesRequest, .kill)]).dispatch
    ⟨7, .stepNamesRequest, .stepNamesRequest⟩ .fresh).1 =
      .done (.error (.payloadMismatch 7 .stepNamesRequest "stepNamesRequest")) := rfl

end Dispatcher

end StepRunner
