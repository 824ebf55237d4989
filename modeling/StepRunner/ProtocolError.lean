import StepRunner.Connection.Frame
import StepRunner.Message.Codec
import StepRunner.Text.Quoted

namespace StepRunner

inductive ProtocolError where
  | unsupported (type : MessageType)
  | payloadMismatch (id : Int64) (type : MessageType) (found : String)
  | transport (fault : FrameFault)
  | codec (e : CodecError)
  deriving DecidableEq, Repr

namespace ProtocolError

def mismatch (request : Message) : ProtocolError :=
  .payloadMismatch request.id request.type request.payload.name

def message : ProtocolError → String
  | unsupported type => "No processor registered for message type " ++ type.name
  | payloadMismatch id type found =>
    s!"Message {id.toInt} of type {type.name} carries unexpected payload " ++ Text.backticks found
  | transport fault => "Transport error: " ++ fault.message
  | codec e => "Codec error: " ++ e.message

/-- The texts of what caused the fault, the nearest first. -/
def causes : ProtocolError → List String
  | unsupported _ | payloadMismatch _ _ _ => []
  | transport fault => [fault.message]
  | codec (.undecodable e) => [(CodecError.undecodable e).message, e.message]
  | codec (.invalid reason) => [(CodecError.invalid reason).message]

end ProtocolError

end StepRunner
