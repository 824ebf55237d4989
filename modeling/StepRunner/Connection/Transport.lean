import StepRunner.Connection.Frame

namespace StepRunner

structure Transport where
  source : Source
  sink : Sink
  isOpen : Bool
  deriving DecidableEq, Repr

namespace Transport

def ofParts (source : Source) (sink : Sink) : Transport := ⟨source, sink, true⟩

/-- Nothing comes from a closed connection. -/
def readFrame (t : Transport) : Except FrameError (Option Bytes) × Transport :=
  if t.isOpen then
    let (result, source) := Frame.read t.source
    (result, { t with source })
  else (.ok none, t)

def writeFrame (payload : Bytes) (t : Transport) : Except IoError Unit × Transport :=
  if t.isOpen then
    let (result, sink) := Frame.write payload t.sink
    (result, { t with sink })
  else (.error (.ofKind .notConnected), t)

/-- Flushes, whatever comes of it, and closes. -/
def close (t : Transport) : Transport := { t with sink := t.sink.flush.2, isOpen := false }

theorem size_readFrame_lt {t : Transport} {payload : Bytes}
    (h : t.readFrame.1 = .ok (some payload)) : t.readFrame.2.source.size < t.source.size := by
  simp only [readFrame] at h ⊢
  split at h
  · next ho => simpa [ho] using Frame.size_read_lt h
  · simp at h

theorem source_writeFrame (payload : Bytes) (t : Transport) :
    (t.writeFrame payload).2.source = t.source := by
  simp only [writeFrame]
  split <;> rfl

end Transport

end StepRunner
