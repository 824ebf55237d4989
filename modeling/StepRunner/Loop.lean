import StepRunner.Connection.Transport
import StepRunner.Dispatcher

namespace StepRunner

/-- How a loop ends that meets no fault. -/
inductive LoopExit where
  | hostClosed
  | killed
  | transportClosed
  deriving DecidableEq, Repr

def LoopExit.name : LoopExit → String
  | hostClosed => "HostClosed"
  | killed => "Killed"
  | transportClosed => "TransportClosed"

/-- The answer to one frame, and whether it is the last. -/
structure Answer where
  response : Message
  isLast : Bool

structure Served where
  result : Outcome (Except ProtocolError LoopExit)
  transport : Transport
  world : World

namespace Dispatcher

def answer (dispatcher : Dispatcher) (frame : Bytes) (world : World) :
    Outcome (Except ProtocolError Answer) × World :=
  match Message.decode frame with
  | .error e => (.done (.error (.codec e)), world)
  | .ok request =>
    match dispatcher.dispatch request world with
    | (.panicked reason, world) => (.panicked reason, world)
    | (.done (.error e), world) => (.done (.error e), world)
    | (.done (.ok response), world) => (.done (.ok ⟨response, request.type = .killProcess⟩), world)

/-- Answers frame after frame. A fault ends the loop without an answer to its frame. -/
def serve (dispatcher : Dispatcher) (transport : Transport) (world : World) : Served :=
  match hread : transport.readFrame with
  | (.ok none, transport) => ⟨.done (.ok .hostClosed), transport, world⟩
  | (.error (.io _), transport) => ⟨.done (.ok .transportClosed), transport, world⟩
  | (.error (.invalid fault), transport) => ⟨.done (.error (.transport fault)), transport, world⟩
  | (.ok (some frame), afterRead) =>
    match dispatcher.answer frame world with
    | (.panicked reason, world) => ⟨.panicked reason, afterRead, world⟩
    | (.done (.error e), world) => ⟨.done (.error e), afterRead, world⟩
    | (.done (.ok answer), world) =>
      match hwrite : afterRead.writeFrame answer.response.encode with
      | (.error _, transport) => ⟨.done (.ok .transportClosed), transport, world⟩
      | (.ok (), afterWrite) =>
        if answer.isLast then ⟨.done (.ok .killed), afterWrite, world⟩
        else
          have : afterWrite.source.size < transport.source.size := by
            have hsource := afterRead.source_writeFrame answer.response.encode
            have hsize := @Transport.size_readFrame_lt transport frame (by rw [hread])
            rw [hwrite] at hsource
            rw [hread] at hsize
            rw [hsource]
            exact hsize
          dispatcher.serve afterWrite world
termination_by transport.source.size

/-- Serves and then closes the connection, unless a panic tears through. -/
def run (dispatcher : Dispatcher) (transport : Transport) (world : World) : Served :=
  let served := dispatcher.serve transport world
  match served.result with
  | .done _ => { served with transport := served.transport.close }
  | .panicked _ => served

end Dispatcher

end StepRunner
