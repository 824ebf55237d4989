import StepRunner.Proofs.Message.Decoding
import StepRunner.Proofs.Session.Dispatch
import StepRunner.Proofs.Session.Interpreter

namespace StepRunner

namespace Dispatcher

/-- The frame after `answered` others holds a message of a type that has no answer. -/
def MeetsAnswer (frames : List Bytes) (answered : Nat) (type : MessageType) : Prop :=
  ∃ frame message, frames[answered]? = some frame ∧ Message.decode frame = .ok message ∧
    message.type = type ∧ type.responseType? = none

/-- How a session over frames comes to an error: by what follows the frames, or by the frame after
those answered. -/
inductive Fails (frames : List Bytes) (answered : Nat) (exit : Except ProtocolError LoopExit) :
    ProtocolError → Prop
  | exit {e : ProtocolError} (h : exit = .error e) : Fails frames answered exit e
  | codec {frame : Bytes} {e : CodecError} (hframe : frames[answered]? = some frame)
    (hd : Message.decode frame = .error e) : Fails frames answered exit (.codec e)
  | unsupported {type : MessageType} (h : MeetsAnswer frames answered type) :
    Fails frames answered exit (.unsupported type)

theorem Fails.cons {frame : Bytes} {frames : List Bytes} {answered : Nat}
    {exit : Except ProtocolError LoopExit} {e : ProtocolError} (h : Fails frames answered exit e) :
    Fails (frame :: frames) (answered + 1) exit e := by
  cases h with
  | exit h => exact .exit h
  | codec hframe hd => exact .codec (by rwa [List.getElem?_cons_succ]) hd
  | unsupported h =>
    obtain ⟨found, message, hfound, hmessage⟩ := h
    exact .unsupported ⟨found, message, by rwa [List.getElem?_cons_succ], hmessage⟩

variable (hooks : HookRegistry) (steps : StepRegistry) (executor : Executor)

theorem fails_of_converse {exit : Except ProtocolError LoopExit} {frames : List Bytes}
    {world : World} {e : ProtocolError}
    (h : ((standard hooks steps executor).converse exit frames world).result = .done (.error e)) :
    Fails frames ((standard hooks steps executor).converse exit frames world).exchanges.length
      exit e := by
  induction frames generalizing world with
  | nil => exact .exit (Outcome.done.inj h)
  | cons frame frames ih =>
    rw [converse] at h ⊢
    cases hd : Message.decode frame with
    | error fault =>
      simp only [hd] at h ⊢
      cases h
      exact .codec rfl hd
    | ok request =>
      simp only [hd] at h ⊢
      rcases hp : (standard hooks steps executor).dispatch request world with ⟨outcome, after⟩
      cases outcome with
      | panicked reason => simp [hp] at h
      | done result =>
        cases result with
        | error refusal =>
          obtain ⟨hnone, rfl⟩ := unsupported_of_dispatch (Message.fits_of_decode hd) hp
          simp only [hp] at h ⊢
          cases h
          exact .unsupported ⟨frame, request, rfl, hd, rfl, hnone⟩
        | ok response =>
          simp only [hp] at h ⊢
          by_cases hk : request.type = .killProcess
          · rw [if_pos hk] at h
            cases h
          · rw [if_neg hk] at h ⊢
            exact (ih h).cons

theorem exists_fault_of_exit {tail : Frame.Tail} {failure : Option IoError} {e : ProtocolError}
    (h : tail.exit failure = .error e) : ∃ fault, e = .transport fault := by
  cases tail with
  | nothing => cases h
  | short => cases h
  | bad fault => exact ⟨fault, (Except.error.inj h).symm⟩

/-- Serving ends in an error only where its session does. -/
theorem fails_of_run {source : Source} {sink : Sink} {world : World} {e : ProtocolError}
    (h : ((standard hooks steps executor).run (.ofParts source sink) world).result =
      .done (.error e)) :
    (∃ fault, e = .transport fault) ∨ (∃ fault, e = .codec fault) ∨
      ∃ type, e = .unsupported type ∧ MeetsAnswer (Frame.cutAll source.stream.bytes).1
        ((standard hooks steps executor).session source.stream world).exchanges.length type := by
  rcases (standard hooks steps executor).result_run source sink world with hsession | hclosed
  · cases fails_of_converse hooks steps executor (hsession.symm.trans h) with
    | exit hexit => exact .inl (exists_fault_of_exit hexit)
    | codec hframe hd => exact .inr (.inl ⟨_, rfl⟩)
    | unsupported hmeets => exact .inr (.inr ⟨_, rfl, hmeets⟩)
  · rw [hclosed] at h
    cases h

theorem mem_answers_of_responseType? {type : MessageType} (h : type.responseType? = none) :
    type ∈ [MessageType.stepValidateResponse, .executionStatus, .stepNamesResponse] := by
  cases type <;> first | decide | cases h

/-- **What is decoded fits its type,** so that serving never ends in a mismatch, and in an
unsupported type only at a frame that holds an answer. -/
theorem run_refuses_only_answers (source : Source) (sink : Sink) (world : World) :
    let dispatcher := standard hooks steps executor
    let result := (dispatcher.run (.ofParts source sink) world).result
    let answered := (dispatcher.session source.stream world).exchanges.length
    (∀ bytes message, Message.decode bytes = .ok message → message.Fits) ∧
      (∀ id type found, result ≠ .done (.error (.payloadMismatch id type found))) ∧
      ∀ type, result = .done (.error (.unsupported type)) →
        type ∈ [MessageType.stepValidateResponse, .executionStatus, .stepNamesResponse] ∧
        ∃ frame message, (Frame.cutAll source.stream.bytes).1[answered]? = some frame ∧
          Message.decode frame = .ok message ∧ message.type = type := by
  intro dispatcher result answered
  refine ⟨fun bytes message => Message.fits_of_decode, ?_, ?_⟩
  · intro id type found h
    rcases fails_of_run hooks steps executor h with ⟨_, he⟩ | ⟨_, he⟩ | ⟨_, he, -⟩ <;> cases he
  · intro type h
    rcases fails_of_run hooks steps executor h with ⟨_, he⟩ | ⟨_, he⟩ | ⟨_, he, hmeets⟩
    · cases he
    · cases he
    · cases he
      obtain ⟨frame, message, hframe, hmessage, htype, hnone⟩ := hmeets
      exact ⟨mem_answers_of_responseType? hnone, frame, message, hframe, hmessage, htype⟩

/-- A frame that holds the names of steps, which only a runner sends. -/
theorem run_refuses_only_answers_of_names :
    let source : Source := [.data [4, 8, 13, 16, 1]]
    let message : Message := ⟨1, .stepNamesResponse, .stepNamesResponse []⟩
    let result := ((standard .empty .empty ⟨none⟩).run (.ofParts source .unlimited) .fresh).result
    Message.decode [8, 13, 16, 1] = .ok message ∧ message.Fits ∧
      result = .done (.error (.unsupported .stepNamesResponse)) ∧
      ∃ frame message, (Frame.cutAll source.stream.bytes).1[0]? = some frame ∧
        Message.decode frame = .ok message ∧ message.type = .stepNamesResponse := by
  intro source message result
  have hdecode : Message.decode [8, 13, 16, 1] = .ok message := by
    simp only [message]
    cbv
  obtain ⟨hfits, -, hunsupported⟩ :=
    run_refuses_only_answers .empty .empty ⟨none⟩ source .unlimited .fresh
  have hresult : result = .done (.error (.unsupported .stepNamesResponse)) :=
    (run_of_accepting _ source Sink.accepting_unlimited .fresh).1.trans (by
      simp only [source]
      cbv)
  obtain ⟨-, hframe⟩ := hunsupported _ hresult
  have hanswered : ((standard .empty .empty ⟨none⟩).session source.stream .fresh).exchanges = [] := by
    simp only [source]
    cbv
  rw [hanswered] at hframe
  exact ⟨hdecode, hfits _ _ hdecode, hresult, hframe⟩

end Dispatcher

end StepRunner
