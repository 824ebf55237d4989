import StepRunner.Bytes
import StepRunner.Connection.IoError

namespace StepRunner

inductive ReadEvent where
  | data (bytes : Bytes)
  | fails (e : IoError)
  /-- One read meets the end of the stream, whatever comes later. -/
  | ends
  deriving DecidableEq, Repr

/-- What successive reads meet; after the last event that is the end of the stream. -/
abbrev Source := List ReadEvent

inductive ByteRead where
  | byte (b : UInt8)
  | ended
  | failed (e : IoError)
  deriving DecidableEq, Repr

namespace Source

def next : Source → ByteRead × Source
  | [] => (.ended, [])
  | .data [] :: source => next source
  | .data (b :: bytes) :: source => (.byte b, .data bytes :: source)
  | .fails e :: source => if e.kind = .interrupted then next source else (.failed e, source)
  | .ends :: source => (.ended, source)

def shortRead : IoError := ⟨.unexpectedEof, "failed to fill whole buffer"⟩

/-- Exactly `n` bytes. Those read before a failure are lost. -/
def take : Nat → Source → Except IoError Bytes × Source
  | 0, source => (.ok [], source)
  | n + 1, source =>
    match source.next with
    | (.ended, source) => (.error shortRead, source)
    | (.failed e, source) => (.error e, source)
    | (.byte b, source) =>
      match take n source with
      | (.ok bytes, source) => (.ok (b :: bytes), source)
      | (.error e, source) => (.error e, source)

/-- The bytes yet to come and the events they come in. -/
def size : Source → Nat
  | [] => 0
  | .data bytes :: source => bytes.length + 1 + size source
  | .fails _ :: source => 1 + size source
  | .ends :: source => 1 + size source

theorem size_next_le (source : Source) : source.next.2.size ≤ source.size := by
  induction source with
  | nil => simp [next, size]
  | cons event source ih =>
    cases event with
    | data bytes =>
      cases bytes with
      | nil => simp [next, size]; omega
      | cons b bytes => simp [next, size]
    | fails e =>
      simp only [next, size]
      split
      · omega
      · simp
    | ends => simp [next, size]

theorem size_next_lt {source : Source} {b : UInt8} (h : source.next.1 = .byte b) :
    source.next.2.size < source.size := by
  induction source with
  | nil => simp [next] at h
  | cons event source ih =>
    cases event with
    | data bytes =>
      cases bytes with
      | nil =>
        have := ih (by simpa [next] using h)
        simp only [next, size]
        omega
      | cons b bytes => simp [next, size]
    | fails e =>
      simp only [next] at h ⊢
      split at h
      · next hi =>
        have := ih h
        simp only [hi, if_true, size]
        omega
      · simp at h
    | ends => simp [next] at h

theorem size_take_le (n : Nat) (source : Source) : (source.take n).2.size ≤ source.size := by
  induction n generalizing source with
  | zero => simp [take]
  | succ n ih =>
    have h := size_next_le source
    simp only [take]
    split
    · next hn => rw [hn] at h; exact h
    · next hn => rw [hn] at h; exact h
    · next hn =>
      rw [hn] at h
      have hi := ih (by assumption)
      split
      · next ht => rw [ht] at hi; exact Nat.le_trans hi h
      · next ht => rw [ht] at hi; exact Nat.le_trans hi h

end Source

end StepRunner
