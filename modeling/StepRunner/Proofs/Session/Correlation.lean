import StepRunner.Proofs.Connection.Framing
import StepRunner.Proofs.Message.RoundTrip
import StepRunner.Proofs.Session.Dispatch
import StepRunner.Proofs.Session.Interpreter

namespace StepRunner

theorem Message.Answers.capped {response request : Message} (h : response.Answers request) :
    response.capped.Answers request :=
  ⟨h.id, h.type, (Payload.type_capped _).trans h.fits⟩

/-- The frame brings the response of the exchange to its request. -/
structure Exchange.SentAs (exchange : Exchange) (frame : Frame.Whole) : Prop where
  decoded : Message.decode frame.payload = .ok exchange.response.capped
  answers : exchange.response.capped.Answers exchange.request

namespace Dispatcher

/-- One exchange for each frame, up to a kill that is answered or to the first frame that is not. -/
inductive Handles (dispatcher : Dispatcher) : List Bytes → World → List Exchange → Prop
  | stop {frames : List Bytes} {world : World}
      (h : ∀ frame ∈ frames.head?, ∀ request response after, Message.decode frame = .ok request →
        dispatcher.dispatch request world ≠ (.done (.ok response), after)) :
      Handles dispatcher frames world []
  | kill {frame : Bytes} {frames : List Bytes} {request response : Message} {before after : World}
      (hd : Message.decode frame = .ok request)
      (hp : dispatcher.dispatch request before = (.done (.ok response), after))
      (hk : request.type = .killProcess) :
      Handles dispatcher (frame :: frames) before [⟨request, before, response, after⟩]
  | next {frame : Bytes} {frames : List Bytes} {request response : Message} {before after : World}
      {exchanges : List Exchange} (hd : Message.decode frame = .ok request)
      (hp : dispatcher.dispatch request before = (.done (.ok response), after))
      (hk : request.type ≠ .killProcess) (h : Handles dispatcher frames after exchanges) :
      Handles dispatcher (frame :: frames) before (⟨request, before, response, after⟩ :: exchanges)

section

variable {dispatcher : Dispatcher} {frames : List Bytes} {world : World}

theorem dispatch_of_handles {exchanges : List Exchange}
    (h : dispatcher.Handles frames world exchanges) :
    ∀ exchange ∈ exchanges, dispatcher.dispatch exchange.request exchange.before =
      (.done (.ok exchange.response), exchange.after) := by
  induction h with
  | stop => simp
  | kill hd hp hk => simpa using hp
  | next hd hp hk h ih => exact List.forall_mem_cons.mpr ⟨hp, ih⟩

theorem handles_of_refused {frame : Bytes} {request : Message}
    (hd : Message.decode frame = .ok request)
    (hp : ∀ response after,
      dispatcher.dispatch request world ≠ (.done (.ok response), after)) :
    dispatcher.Handles (frame :: frames) world [] := by
  refine .stop ?_
  intro first hfirst sent response after hsent
  obtain rfl : frame = first := Option.some.inj hfirst
  obtain rfl : request = sent := Except.ok.inj (hd.symm.trans hsent)
  exact hp response after

/-- A session leaves out no request that is handled. -/
theorem handles_converse (exit : Except ProtocolError LoopExit) :
    dispatcher.Handles frames world (dispatcher.converse exit frames world).exchanges := by
  induction frames generalizing world with
  | nil => exact .stop (by simp)
  | cons frame frames ih =>
    rw [converse]
    cases hd : Message.decode frame with
    | error e => exact .stop (by simp [hd])
    | ok request =>
      rcases hp : dispatcher.dispatch request world with ⟨outcome, after⟩
      cases outcome with
      | panicked reason =>
        simp only [hp]
        exact handles_of_refused hd (by simp [hp])
      | done result =>
        cases result with
        | error e =>
          simp only [hp]
          exact handles_of_refused hd (by simp [hp])
        | ok response =>
          simp only [hp]
          by_cases hk : request.type = .killProcess
          · rw [if_pos hk]
            exact .kill hd hp hk
          · rw [if_neg hk]
            exact .next hd hp hk ih

end

variable (hooks : HookRegistry) (steps : StepRegistry) (executor : Executor)

/-- Responses that can be written are written as one frame each. -/
theorem exists_frames_sent {exchanges : List Exchange}
    (hdispatch : ∀ exchange ∈ exchanges,
      (standard hooks steps executor).dispatch exchange.request exchange.before =
        (.done (.ok exchange.response), exchange.after))
    (hlength : ∀ exchange ∈ exchanges, exchange.response.encode.length < Nat.pow 2 63) :
    ∃ frames : List Frame.Whole,
      (exchanges.flatMap fun exchange => Frame.encode exchange.response.encode) =
        frames.flatMap Frame.Whole.bytes ∧
      List.Forall₂ Exchange.SentAs exchanges frames := by
  induction exchanges with
  | nil => exact ⟨[], rfl, .nil⟩
  | cons exchange exchanges ih =>
    obtain ⟨hfirst, hothers⟩ := List.forall_mem_cons.mp hdispatch
    obtain ⟨hlt, hlts⟩ := List.forall_mem_cons.mp hlength
    obtain ⟨frames, hbytes, hsent⟩ := ih hothers hlts
    have hanswers := answers_of_dispatch hfirst
    let frame := Frame.Whole.ofPayload exchange.response.encode exchange.response.encode_ne_nil
      (Nat.lt_trans hlt (by decide))
    have hframe : exchange.SentAs frame :=
      ⟨Message.decode_encode_of_fits hanswers.fits hlt, hanswers.capped⟩
    refine ⟨frame :: frames, ?_, .cons hframe hsent⟩
    rw [List.flatMap_cons, List.flatMap_cons, hbytes]
    rfl

/-- **Every request that is handled gets one response, in kind and in turn,** and the written bytes
are those as frames, in one way only. -/
theorem run_answers_in_order (source : Source) {sink : Sink} (hsink : sink.Accepting)
    (world : World) :
    let dispatcher := standard hooks steps executor
    let exchanges := (dispatcher.session source.stream world).exchanges
    let written := (dispatcher.run (.ofParts source sink) world).transport.sink.written
    (∀ exchange ∈ exchanges, exchange.response.encode.length < Nat.pow 2 63) →
      dispatcher.Handles (Frame.cutAll source.stream.bytes).1 world exchanges ∧
      ∃ frames : List Frame.Whole,
        written = sink.written ++ frames.flatMap Frame.Whole.bytes ∧
        (∀ others : List Frame.Whole,
          written = sink.written ++ others.flatMap Frame.Whole.bytes → others = frames) ∧
        List.Forall₂ Exchange.SentAs exchanges frames := by
  intro dispatcher exchanges written hlength
  have hhandles : dispatcher.Handles (Frame.cutAll source.stream.bytes).1 world exchanges :=
    handles_converse _
  obtain ⟨frames, hbytes, hsent⟩ :=
    exists_frames_sent hooks steps executor (dispatch_of_handles hhandles) hlength
  have hwritten : written = sink.written ++ frames.flatMap Frame.Whole.bytes := by
    rw [← hbytes]
    exact (dispatcher.run_of_accepting source hsink world).2.2
  refine ⟨hhandles, frames, hwritten, ?_, hsent⟩
  intro others hothers
  rw [hwritten] at hothers
  exact (Frame.Whole.eq_of_flatMap_eq (List.append_cancel_left hothers)).symm

/-- Step names are asked for under a negative id, and a kill follows. -/
theorem run_answers_in_order_of_names :
    let source : Source := [.data [15, 8, 12, 16, 255, 255, 255, 255], .data [255, 255, 255, 255,
      255, 1, 122, 0, 4, 8, 14, 16, 3]]
    let dispatcher := standard .empty .empty ⟨none⟩
    let exchanges := (dispatcher.session source.stream .fresh).exchanges
    Sink.unlimited.Accepting ∧
      exchanges.map (·.response) =
        [⟨-1, .stepNamesResponse, .stepNamesResponse []⟩, .executionStatus 3 (.passed 0)] ∧
      (∀ exchange ∈ exchanges, exchange.response.encode.length < Nat.pow 2 63) ∧
      ∃ frames : List Frame.Whole,
        (dispatcher.run (.ofParts source .unlimited) .fresh).transport.sink.written =
          frames.flatMap Frame.Whole.bytes ∧
        List.Forall₂ Exchange.SentAs exchanges frames := by
  intro source dispatcher exchanges
  have hresponses : exchanges.map (·.response) =
      [⟨-1, .stepNamesResponse, .stepNamesResponse []⟩, .executionStatus 3 (.passed 0)] := by
    simp only [exchanges, dispatcher, source]
    cbv
  have hlength : ∀ exchange ∈ exchanges, exchange.response.encode.length < Nat.pow 2 63 := by
    have h : ∀ response ∈ exchanges.map (·.response), response.encode.length < Nat.pow 2 63 := by
      rw [hresponses]
      decide
    exact List.forall_mem_map.mp h
  obtain ⟨-, frames, hwritten, -, hsent⟩ :=
    run_answers_in_order .empty .empty ⟨none⟩ source Sink.accepting_unlimited .fresh hlength
  exact ⟨Sink.accepting_unlimited, hresponses, hlength, frames, hwritten, hsent⟩

end Dispatcher

end StepRunner
