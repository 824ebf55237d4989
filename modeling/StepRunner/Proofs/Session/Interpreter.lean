import Mathlib.Data.List.OfFn
import Mathlib.Data.List.Permutation
import StepRunner.Loop
import StepRunner.Proofs.Connection.Cutting
import StepRunner.Proofs.Connection.Delivery

namespace StepRunner

/-- A request that was handled, between the worlds before and after it. -/
structure Exchange where
  request : Message
  before : World
  response : Message
  after : World

structure Session where
  exchanges : List Exchange
  result : Outcome (Except ProtocolError LoopExit)
  world : World

/-- How a session ends that has answered all its frames, by what comes after them. -/
def Frame.Tail.exit (failure : Option IoError) : Frame.Tail → Except ProtocolError LoopExit
  | .nothing => .ok (if failure.isSome then .transportClosed else .hostClosed)
  | .short => .ok .transportClosed
  | .bad fault => .error (.transport fault)

namespace Session

/-- The session with an exchange before it. -/
def cons (exchange : Exchange) (session : Session) : Session :=
  { session with exchanges := exchange :: session.exchanges }

/-- The responses as they go over the connection. -/
def written (session : Session) : Bytes :=
  session.exchanges.flatMap fun exchange => Frame.encode exchange.response.encode

/-- Sends the responses of exchanges; the first that cannot be sent ends the session after its
exchange. -/
def deliverAll (result : Outcome (Except ProtocolError LoopExit)) (world : World) :
    List Exchange → Sink → Outcome (Except ProtocolError LoopExit) × Sink × World
  | [], sink => (result, sink, world)
  | exchange :: exchanges, sink =>
    match Frame.write exchange.response.encode sink with
    | (.error _, sink) => (.done (.ok .transportClosed), sink, exchange.after)
    | (.ok (), sink) => deliverAll result world exchanges sink

def deliver (session : Session) (sink : Sink) :
    Outcome (Except ProtocolError LoopExit) × Sink × World :=
  deliverAll session.result session.world session.exchanges sink

theorem deliver_cons (exchange : Exchange) (session : Session) (sink : Sink) :
    (session.cons exchange).deliver sink =
      match Frame.write exchange.response.encode sink with
      | (.error _, sink) => (.done (.ok .transportClosed), sink, exchange.after)
      | (.ok (), sink) => session.deliver sink := rfl

theorem written_cons (exchange : Exchange) (session : Session) :
    (session.cons exchange).written =
      Frame.encode exchange.response.encode ++ session.written := List.flatMap_cons

/-- A sink that takes everything is sent every response. -/
theorem deliver_of_accepting (session : Session) {sink : Sink} (h : sink.Accepting) :
    ∃ later, session.deliver sink = (session.result, later, session.world) ∧
      later.written = sink.written ++ session.written := by
  rcases session with ⟨exchanges, result, world⟩
  induction exchanges generalizing sink with
  | nil => exact ⟨sink, rfl, by simp [written]⟩
  | cons exchange exchanges ih =>
    obtain ⟨middle, hwrite, hwritten, hmiddle⟩ :=
      Frame.write_of_accepting h exchange.response.encode
    obtain ⟨later, hdeliver, hlater⟩ := ih hmiddle
    refine ⟨later, ?_, ?_⟩
    · rw [← hdeliver]
      exact (deliver_cons exchange ⟨exchanges, result, world⟩ sink).trans (by rw [hwrite])
    · rw [hlater, hwritten, List.append_assoc]
      exact congrArg _ (written_cons exchange ⟨exchanges, result, world⟩).symm

/-- However the sink behaves, it only decides whether the session comes to its end. -/
theorem result_deliver (session : Session) (sink : Sink) :
    (session.deliver sink).1 = session.result ∨
      (session.deliver sink).1 = .done (.ok .transportClosed) := by
  rcases session with ⟨exchanges, result, world⟩
  induction exchanges generalizing sink with
  | nil => exact .inl rfl
  | cons exchange exchanges ih =>
    rw [show (⟨exchange :: exchanges, result, world⟩ : Session) =
      Session.cons exchange ⟨exchanges, result, world⟩ from rfl, deliver_cons]
    rcases Frame.write exchange.response.encode sink with ⟨written, later⟩
    cases written with
    | error e => exact .inr rfl
    | ok _ => exact ih later

end Session

/-- What serving came to, apart from what its source has left. -/
def Served.outcome (served : Served) : Outcome (Except ProtocolError LoopExit) × Sink × World :=
  (served.result, served.transport.sink, served.world)

namespace Dispatcher

/-- Decodes and dispatches frames in turn, until one fails or a kill was answered. -/
def converse (dispatcher : Dispatcher) (exit : Except ProtocolError LoopExit) :
    List Bytes → World → Session
  | [], world => ⟨[], .done exit, world⟩
  | frame :: frames, world =>
    match Message.decode frame with
    | .error e => ⟨[], .done (.error (.codec e)), world⟩
    | .ok request =>
      match dispatcher.dispatch request world with
      | (.panicked reason, after) => ⟨[], .panicked reason, after⟩
      | (.done (.error e), after) => ⟨[], .done (.error e), after⟩
      | (.done (.ok response), after) =>
        (if request.type = .killProcess then ⟨[], .done (.ok .killed), after⟩
          else dispatcher.converse exit frames after).cons ⟨request, world, response, after⟩

/-- The session that a stream amounts to. -/
def session (dispatcher : Dispatcher) (stream : Stream) (world : World) : Session :=
  dispatcher.converse ((Frame.cutAll stream.bytes).2.exit stream.failure)
    (Frame.cutAll stream.bytes).1 world

/-- One round of the loop. -/
theorem serve_eq (dispatcher : Dispatcher) (transport : Transport) (world : World) :
    dispatcher.serve transport world =
      match transport.readFrame with
      | (.ok none, transport) => ⟨.done (.ok .hostClosed), transport, world⟩
      | (.error (.io _), transport) => ⟨.done (.ok .transportClosed), transport, world⟩
      | (.error (.invalid fault), transport) =>
        ⟨.done (.error (.transport fault)), transport, world⟩
      | (.ok (some frame), afterRead) =>
        match dispatcher.answer frame world with
        | (.panicked reason, world) => ⟨.panicked reason, afterRead, world⟩
        | (.done (.error e), world) => ⟨.done (.error e), afterRead, world⟩
        | (.done (.ok answer), world) =>
          match afterRead.writeFrame answer.response.encode with
          | (.error _, transport) => ⟨.done (.ok .transportClosed), transport, world⟩
          | (.ok (), afterWrite) =>
            if answer.isLast then ⟨.done (.ok .killed), afterWrite, world⟩
            else dispatcher.serve afterWrite world := by
  rw [serve]
  split
  · next h => simp only [h]
  · next h => simp only [h]
  · next h => simp only [h]
  · next frame afterRead h =>
    simp only [h]
    rcases dispatcher.answer frame world with ⟨outcome, after⟩
    cases outcome with
    | panicked reason => rfl
    | done result =>
      cases result with
      | error e => rfl
      | ok answer =>
        dsimp only
        split
        · next hw => simp only [hw]
        · next hw => simp only [hw]

section

variable {stream : Stream} {payload rest : Bytes}

theorem session_of_stop {tail : Frame.Tail} (dispatcher : Dispatcher) (world : World)
    (h : Frame.cut stream.bytes = .stop tail rest) :
    dispatcher.session stream world = ⟨[], .done (tail.exit stream.failure), world⟩ := by
  rw [session, Frame.cutAll_of_stop h, converse]

theorem session_of_undecodable {e : CodecError} (dispatcher : Dispatcher) (world : World)
    (h : Frame.cut stream.bytes = .frame payload rest) (hd : Message.decode payload = .error e) :
    dispatcher.session stream world = ⟨[], .done (.error (.codec e)), world⟩ := by
  simp only [session, Frame.cutAll_of_frame h, converse, hd]

variable {request : Message} {before after : World}

theorem session_of_panicked {dispatcher : Dispatcher} {reason : Panic}
    (h : Frame.cut stream.bytes = .frame payload rest) (hd : Message.decode payload = .ok request)
    (hp : dispatcher.dispatch request before = (.panicked reason, after)) :
    dispatcher.session stream before = ⟨[], .panicked reason, after⟩ := by
  simp only [session, Frame.cutAll_of_frame h, converse, hd, hp]

theorem session_of_refused {dispatcher : Dispatcher} {e : ProtocolError}
    (h : Frame.cut stream.bytes = .frame payload rest) (hd : Message.decode payload = .ok request)
    (hp : dispatcher.dispatch request before = (.done (.error e), after)) :
    dispatcher.session stream before = ⟨[], .done (.error e), after⟩ := by
  simp only [session, Frame.cutAll_of_frame h, converse, hd, hp]

theorem session_of_answered {dispatcher : Dispatcher} {response : Message}
    (h : Frame.cut stream.bytes = .frame payload rest) (hd : Message.decode payload = .ok request)
    (hp : dispatcher.dispatch request before = (.done (.ok response), after)) :
    dispatcher.session stream before =
      (if request.type = .killProcess then ⟨[], .done (.ok .killed), after⟩
        else dispatcher.session ⟨rest, stream.failure⟩ after).cons
          ⟨request, before, response, after⟩ := by
  simp only [session, Frame.cutAll_of_frame h, converse, hd, hp]

end

/-- Where no frame can be read, serving ends and writes nothing. -/
theorem serve_of_stop {source : Source} {tail : Frame.Tail} {rest : Bytes}
    (dispatcher : Dispatcher) (sink : Sink) (world : World)
    (h : Frame.cut source.stream.bytes = .stop tail rest) :
    ∃ later, dispatcher.serve ⟨source, sink, true⟩ world =
      ⟨.done (tail.exit source.stream.failure), ⟨later, sink, true⟩, world⟩ := by
  have hfinds := Frame.finds_cut source
  rw [h] at hfinds
  refine ⟨(Frame.read source).2, ?_⟩
  have hread : (⟨source, sink, true⟩ : Transport).readFrame =
      ((Frame.read source).1, ⟨(Frame.read source).2, sink, true⟩) := rfl
  rw [serve_eq, hread]
  cases tail with
  | nothing =>
    rw [show (Frame.read source).1 = _ from hfinds]
    cases source.stream.failure <;> rfl
  | short =>
    obtain ⟨e, -, he⟩ := hfinds
    rw [he]
    rfl
  | bad fault =>
    obtain ⟨later, hbad, -⟩ := hfinds
    rw [hbad]
    rfl

theorem readFrame_of_frame {source : Source} {payload rest : Bytes}
    (h : Frame.cut source.stream.bytes = .frame payload rest) :
    ∃ later, later.stream = ⟨rest, source.stream.failure⟩ ∧ ∀ sink,
      (⟨source, sink, true⟩ : Transport).readFrame = (.ok (some payload), ⟨later, sink, true⟩) := by
  have hfinds := Frame.finds_cut source
  rw [h] at hfinds
  obtain ⟨later, hread, hlater⟩ := hfinds
  refine ⟨later, hlater, ?_⟩
  intro sink
  simp [Transport.readFrame, hread]

/-- Where a request is answered, serving goes on if the answer can be written. -/
theorem serve_of_answered {dispatcher : Dispatcher} {transport : Transport} {payload : Bytes}
    {later : Source} {sink : Sink} {request response : Message} {before after : World}
    (hread : transport.readFrame = (.ok (some payload), ⟨later, sink, true⟩))
    (hd : Message.decode payload = .ok request)
    (hp : dispatcher.dispatch request before = (.done (.ok response), after)) :
    dispatcher.serve transport before =
      match Frame.write response.encode sink with
      | (.error _, sink) => ⟨.done (.ok .transportClosed), ⟨later, sink, true⟩, after⟩
      | (.ok (), sink) =>
        if request.type = .killProcess then ⟨.done (.ok .killed), ⟨later, sink, true⟩, after⟩
        else dispatcher.serve ⟨later, sink, true⟩ after := by
  have hwrite : (⟨later, sink, true⟩ : Transport).writeFrame response.encode =
      ((Frame.write response.encode sink).1,
        ⟨later, (Frame.write response.encode sink).2, true⟩) := rfl
  rw [serve_eq, hread]
  simp only [answer, hd, hp, hwrite, decide_eq_true_eq]
  rcases Frame.write response.encode sink with ⟨written, sink⟩
  cases written <;> rfl

/-- **The loop is its session, delivered.** The sink only decides how many of the responses are
sent. -/
theorem serve_eq_deliver (dispatcher : Dispatcher) (source : Source) (sink : Sink) (world : World) :
    (dispatcher.serve ⟨source, sink, true⟩ world).outcome =
        (dispatcher.session source.stream world).deliver sink ∧
      (dispatcher.serve ⟨source, sink, true⟩ world).transport.isOpen = true := by
  induction hn : source.stream.bytes.length using Nat.strongRecOn
    generalizing source sink world with
  | ind n ih =>
    cases hcut : Frame.cut source.stream.bytes with
    | stop tail rest =>
      obtain ⟨later, hserve⟩ := dispatcher.serve_of_stop sink world hcut
      rw [hserve, session_of_stop dispatcher world hcut]
      exact ⟨rfl, rfl⟩
    | frame payload rest =>
      obtain ⟨later, hlater, hread⟩ := readFrame_of_frame hcut
      cases hd : Message.decode payload with
      | error e =>
        rw [serve_eq, hread, session_of_undecodable dispatcher world hcut hd]
        simp only [answer, hd]
        exact ⟨rfl, trivial⟩
      | ok request =>
        rcases hp : dispatcher.dispatch request world with ⟨outcome, after⟩
        cases outcome with
        | panicked reason =>
          rw [serve_eq, hread, session_of_panicked hcut hd hp]
          simp only [answer, hd, hp]
          exact ⟨rfl, trivial⟩
        | done result =>
          cases result with
          | error e =>
            rw [serve_eq, hread, session_of_refused hcut hd hp]
            simp only [answer, hd, hp]
            exact ⟨rfl, trivial⟩
          | ok response =>
            rw [serve_of_answered (hread sink) hd hp, session_of_answered hcut hd hp,
              Session.deliver_cons]
            rcases Frame.write response.encode sink with ⟨written, sink⟩
            cases written with
            | error e => exact ⟨rfl, rfl⟩
            | ok _ =>
              dsimp only
              by_cases hkill : request.type = .killProcess
              · rw [if_pos hkill, if_pos hkill]
                exact ⟨rfl, rfl⟩
              · have hlt : later.stream.bytes.length < n := by
                  rw [hlater, ← hn]
                  exact Frame.length_rest_lt hcut
                have hrest := ih _ hlt later sink after rfl
                rw [hlater] at hrest
                rw [if_neg hkill, if_neg hkill]
                exact hrest

theorem run_eq_serve (dispatcher : Dispatcher) (transport : Transport) (world : World) :
    (dispatcher.run transport world).result = (dispatcher.serve transport world).result ∧
      (dispatcher.run transport world).world = (dispatcher.serve transport world).world ∧
      (dispatcher.run transport world).transport.sink.written =
        (dispatcher.serve transport world).transport.sink.written := by
  rw [run]
  split
  · exact ⟨rfl, rfl, Sink.written_flush _⟩
  · exact ⟨rfl, rfl, rfl⟩

theorem isOpen_run {dispatcher : Dispatcher} {transport : Transport} {world : World}
    {exit : Except ProtocolError LoopExit}
    (h : (dispatcher.run transport world).result = .done exit) :
    (dispatcher.run transport world).transport.isOpen = false := by
  rw [(run_eq_serve dispatcher transport world).1] at h
  rw [run, h]
  rfl

theorem result_run (dispatcher : Dispatcher) (source : Source) (sink : Sink) (world : World) :
    (dispatcher.run (.ofParts source sink) world).result =
        (dispatcher.session source.stream world).result ∨
      (dispatcher.run (.ofParts source sink) world).result = .done (.ok .transportClosed) := by
  have hserve : (dispatcher.serve ⟨source, sink, true⟩ world).result = _ :=
    congrArg Prod.fst (dispatcher.serve_eq_deliver source sink world).1
  rw [(run_eq_serve dispatcher (.ofParts source sink) world).1]
  rw [Transport.ofParts, hserve]
  exact (dispatcher.session source.stream world).result_deliver sink

theorem run_of_accepting (dispatcher : Dispatcher) (source : Source) {sink : Sink}
    (hsink : sink.Accepting) (world : World) :
    let session := dispatcher.session source.stream world
    let served := dispatcher.run (.ofParts source sink) world
    served.result = session.result ∧ served.world = session.world ∧
      served.transport.sink.written = sink.written ++ session.written := by
  intro session served
  obtain ⟨hresult, hworld, hwritten⟩ := run_eq_serve dispatcher (.ofParts source sink) world
  have hserve := (dispatcher.serve_eq_deliver source sink world).1
  obtain ⟨later, hdeliver, hlater⟩ := session.deliver_of_accepting hsink
  rw [hdeliver] at hserve
  simp only [Served.outcome, Prod.mk.injEq] at hserve
  obtain ⟨hr, hs, hw⟩ := hserve
  refine ⟨hresult.trans hr, hworld.trans hw, ?_⟩
  exact hwritten.trans ((congrArg Sink.written hs).trans hlater)

/-- **Serving over any reader and any writer that takes everything is the session of the stream,**
with the connection closed unless a panic tears through. -/
theorem run_eq_session (dispatcher : Dispatcher) (source : Source) {sink : Sink}
    (hsink : sink.Accepting) (world : World) :
    let session := dispatcher.session source.stream world
    let served := dispatcher.run (.ofParts source sink) world
    served.result = session.result ∧ served.world = session.world ∧
      served.transport.sink.written = sink.written ++ session.written ∧
      ∀ exit, served.result = .done exit → served.transport.isOpen = false := by
  obtain ⟨hresult, hworld, hwritten⟩ := run_of_accepting dispatcher source hsink world
  exact ⟨hresult, hworld, hwritten, fun exit => isOpen_run⟩

/-- A kill in two pieces around an interruption; the reset after it is never met. -/
theorem run_eq_session_of_kill :
    let source : Source := [.data [4, 8], .fails (.ofKind .interrupted), .data [],
      .data [14, 16, 3], .fails (.ofKind .connectionReset)]
    let sink : Sink := { Sink.unlimited with
      script := [.accepts 1, .fails (.ofKind .interrupted)]
      chunk := some 2 }
    let served := (standard .empty .empty ⟨none⟩).run (.ofParts source sink) .fresh
    sink.Accepting ∧ served.result = .done (.ok .killed) ∧
      served.transport.sink.written = [14, 8, 11, 16, 3, 114, 8, 10, 6, 8, 0, 16, 0, 48, 0] ∧
      served.transport.isOpen = false := by
  intro source sink served
  have hsink : sink.Accepting :=
    ⟨by simp [sink, WriteAnswer.Continues, IoError.ofKind], by simp [sink], rfl,
      by simp [sink, Sink.unlimited], rfl⟩
  obtain ⟨hresult, -, hwritten, hclosed⟩ :=
    run_eq_session (standard .empty .empty ⟨none⟩) source hsink .fresh
  have hkilled : served.result = .done (.ok .killed) := hresult.trans (by cbv)
  exact ⟨hsink, hkilled, hwritten.trans (by cbv), hclosed _ hkilled⟩

end Dispatcher

end StepRunner
