import StepRunner.Bytes.Varint
import StepRunner.Connection.Source
import StepRunner.Connection.Sink

namespace StepRunner

inductive FrameFault where
  | longPrefix
  | badPrefix
  | tooLarge (length : Nat)
  | empty
  deriving DecidableEq, Repr

def FrameFault.reason : FrameFault → String
  | longPrefix => "length prefix too long"
  | badPrefix => "bad length prefix: failed to decode Protobuf message: invalid varint"
  | tooLarge length => s!"frame of {length} bytes exceeds limit"
  | empty => "empty frame"

def FrameFault.message (fault : FrameFault) : String := "Invalid frame: " ++ fault.reason

inductive FrameError where
  | io (e : IoError)
  | invalid (fault : FrameFault)
  deriving DecidableEq, Repr

def FrameError.message : FrameError → String
  | io e => e.message
  | invalid fault => fault.message

namespace Frame

/-- The most bytes a payload may have. -/
def maxLength : Nat := 64 * 1024 * 1024

def maxPrefix : Nat := 10

def closedInPrefix : IoError := ⟨.unexpectedEof, "stream closed inside length prefix"⟩

/-- The rest of a length prefix, of which `left` more bytes are allowed. -/
def readPrefix : (left : Nat) → Source → Except FrameError Bytes × Source
  | 0, source => (.error (.invalid .longPrefix), source)
  | left + 1, source =>
    match source.next with
    | (.ended, source) => (.error (.io closedInPrefix), source)
    | (.failed e, source) => (.error (.io e), source)
    | (.byte b, source) =>
      if b.toNat < 128 then (.ok [b], source)
      else match readPrefix left source with
        | (.ok bytes, source) => (.ok (b :: bytes), source)
        | (.error e, source) => (.error e, source)

/-- The length that a prefix states. -/
def lengthOf (lengthPrefix : Bytes) : Except FrameFault Nat :=
  match Varint.decode lengthPrefix with
  | none => .error .badPrefix
  | some (length, _) =>
    if maxLength < length then .error (.tooLarge length)
    else if length = 0 then .error .empty
    else .ok length

def readPayload (lengthPrefix : Bytes) (source : Source) :
    Except FrameError (Option Bytes) × Source :=
  match lengthOf lengthPrefix with
  | .error fault => (.error (.invalid fault), source)
  | .ok length =>
    match source.take length with
    | (.ok payload, source) => (.ok (some payload), source)
    | (.error e, source) => (.error (.io e), source)

/-- The next payload; none if the stream ends before another frame begins. -/
def read (source : Source) : Except FrameError (Option Bytes) × Source :=
  match source.next with
  | (.ended, source) => (.ok none, source)
  | (.failed e, source) => (.error (.io e), source)
  | (.byte b, source) =>
    if b.toNat < 128 then readPayload [b] source
    else match readPrefix (maxPrefix - 1) source with
      | (.ok bytes, source) => readPayload (b :: bytes) source
      | (.error e, source) => (.error e, source)

def encode (payload : Bytes) : Bytes := Varint.encode payload.length ++ payload

/-- Writes a payload as one frame, and flushes. -/
def write (payload : Bytes) (sink : Sink) : Except IoError Unit × Sink :=
  match sink.writeAll (encode payload) with
  | (.ok (), sink) => sink.flush
  | (.error e, sink) => (.error e, sink)

theorem size_readPrefix_le (left : Nat) (source : Source) :
    (readPrefix left source).2.size ≤ source.size := by
  induction left generalizing source with
  | zero => simp [readPrefix]
  | succ left ih =>
    have h := source.size_next_le
    simp only [readPrefix]
    split
    · next hn => rw [hn] at h; exact h
    · next hn => rw [hn] at h; exact h
    · next hn =>
      rw [hn] at h
      have hi := ih (by assumption)
      split
      · exact h
      · split
        · next hp => rw [hp] at hi; exact Nat.le_trans hi h
        · next hp => rw [hp] at hi; exact Nat.le_trans hi h

theorem size_readPayload_le (lengthPrefix : Bytes) (source : Source) :
    (readPayload lengthPrefix source).2.size ≤ source.size := by
  simp only [readPayload]
  split
  · exact Nat.le_refl _
  · next length _ =>
    have h := source.size_take_le length
    split <;> next ht => rw [ht] at h; exact h

/-- A payload is at least one byte. -/
theorem size_read_lt {source : Source} {payload : Bytes} (h : (read source).1 = .ok (some payload)) :
    (read source).2.size < source.size := by
  simp only [read] at h ⊢
  split at h
  · simp at h
  · simp at h
  · next b rest hn =>
    have hlt := @Source.size_next_lt source b (by rw [hn])
    rw [hn] at hlt
    split at h
    · next hb =>
      simp only [hb, ite_true]
      exact Nat.lt_of_le_of_lt (size_readPayload_le ..) hlt
    · next hb =>
      simp only [hb, ite_false]
      have hp := size_readPrefix_le (maxPrefix - 1) rest
      split at h
      · next hr =>
        rw [hr] at hp
        exact Nat.lt_of_le_of_lt (Nat.le_trans (size_readPayload_le ..) hp) hlt
      · simp at h

end Frame

end StepRunner
