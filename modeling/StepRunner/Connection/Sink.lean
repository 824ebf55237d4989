import StepRunner.Bytes
import StepRunner.Connection.IoError

namespace StepRunner

inductive WriteAnswer where
  /-- Takes at most `n` of the bytes offered. -/
  | accepts (n : Nat)
  | fails (e : IoError)
  deriving DecidableEq, Repr

/-- Answers writes by its script, and after that in one way for good. -/
structure Sink where
  script : List WriteAnswer
  /-- The most it takes at once, after the script. -/
  chunk : Option Nat
  /-- How much it takes in all, after the script. -/
  room : Option Nat
  /-- How it fails once there is no room; without this it takes nothing and does not fail. -/
  whenFull : Option IoError
  flushScript : List (Option IoError)
  flushFailure : Option IoError
  /-- What each write took, the latest first. -/
  pieces : List Bytes
  deriving DecidableEq, Repr

namespace Sink

/-- All it has taken, in order. -/
def written (sink : Sink) : Bytes := sink.pieces.reverse.flatten

/-- Takes everything. -/
def unlimited : Sink := ⟨[], none, none, none, [], none, []⟩

def writeZero : IoError := ⟨.writeZero, "failed to write whole buffer"⟩

def accept (taken : Bytes) (sink : Sink) : Except IoError Nat × Sink :=
  (.ok taken.length, { sink with pieces := taken :: sink.pieces })

/-- The number of bytes taken of a write that offers some, or why it failed. -/
def write (sink : Sink) (offered : Bytes) : Except IoError Nat × Sink :=
  match sink.script with
  | .accepts n :: script => accept (offered.take n) { sink with script }
  | .fails e :: script => (.error e, { sink with script })
  | [] =>
    let atOnce := match sink.chunk with
      | some n => offered.take n
      | none => offered
    match sink.room, sink.whenFull with
    | none, _ => sink.accept atOnce
    | some 0, some e => (.error e, sink)
    | some room, _ =>
      let taken := atOnce.take room
      accept taken { sink with room := some (room - taken.length) }

/-- Writes all of `data` in as many writes as it takes, of which `n` bounds the number. -/
def writeAllIn : Nat → Bytes → Sink → Except IoError Unit × Sink
  | _, [], sink => (.ok (), sink)
  | 0, _, sink => (.error writeZero, sink)
  | n + 1, data, sink =>
    match sink.write data with
    | (.ok 0, sink) => (.error writeZero, sink)
    | (.ok taken, sink) => writeAllIn n (data.drop taken) sink
    | (.error e, sink) => if e.kind = .interrupted then writeAllIn n data sink else (.error e, sink)

def writeAll (data : Bytes) (sink : Sink) : Except IoError Unit × Sink :=
  sink.writeAllIn (sink.script.length + data.length + 1) data

def flush (sink : Sink) : Except IoError Unit × Sink :=
  let answer (failure : Option IoError) : Except IoError Unit :=
    match failure with
    | some e => .error e
    | none => .ok ()
  match sink.flushScript with
  | failure :: flushScript => (answer failure, { sink with flushScript })
  | [] => (answer sink.flushFailure, sink)

theorem written_accept (taken : Bytes) (sink : Sink) :
    (sink.accept taken).2.written = sink.written ++ taken := by
  simp [accept, written]

end Sink

end StepRunner
