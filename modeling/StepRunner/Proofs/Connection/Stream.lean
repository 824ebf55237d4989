import StepRunner.Connection.Source

namespace StepRunner

structure Stream where
  bytes : Bytes
  /-- What the read after the last byte fails with; without it that read meets the end. -/
  failure : Option IoError
  deriving DecidableEq, Repr

/-- What a reader meets that has read all the bytes. -/
def ByteRead.ofFailure : Option IoError → ByteRead
  | none => .ended
  | some e => .failed e

namespace Source

def stream : Source → Stream
  | [] | .ends :: _ => ⟨[], none⟩
  | .data bytes :: source => ⟨bytes ++ (stream source).bytes, (stream source).failure⟩
  | .fails e :: source => if e.kind = .interrupted then stream source else ⟨[], some e⟩

theorem next_of_stream_cons {source : Source} {b : UInt8} {bytes : Bytes} {failure : Option IoError}
    (h : source.stream = ⟨b :: bytes, failure⟩) :
    ∃ later, source.next = (.byte b, later) ∧ later.stream = ⟨bytes, failure⟩ := by
  induction source with
  | nil => simp [stream] at h
  | cons event source ih =>
    cases event with
    | data piece =>
      cases piece with
      | nil => exact ih h
      | cons c piece =>
        simp only [stream, List.cons_append, Stream.mk.injEq, List.cons.injEq] at h
        obtain ⟨⟨rfl, rfl⟩, rfl⟩ := h
        exact ⟨.data piece :: source, rfl, rfl⟩
    | fails e =>
      by_cases hi : e.kind = .interrupted
      · rw [next, if_pos hi]
        exact ih (by simpa [stream, hi] using h)
      · simp [stream, hi] at h
    | ends => simp [stream] at h

theorem next_of_stream_nil {source : Source} {failure : Option IoError}
    (h : source.stream = ⟨[], failure⟩) : source.next.1 = ByteRead.ofFailure failure := by
  induction source with
  | nil =>
    simp only [stream, Stream.mk.injEq, true_and] at h
    rw [← h]
    rfl
  | cons event source ih =>
    cases event with
    | data piece =>
      cases piece with
      | nil => exact ih h
      | cons c piece => simp [stream] at h
    | fails e =>
      by_cases hi : e.kind = .interrupted
      · rw [next, if_pos hi]
        exact ih (by simpa [stream, hi] using h)
      · simp only [stream, hi, if_false, Stream.mk.injEq, true_and] at h
        rw [next, if_neg hi, ← h]
        rfl
    | ends =>
      simp only [stream, Stream.mk.injEq, true_and] at h
      rw [← h]
      rfl

theorem take_of_le {source : Source} {bytes : Bytes} {failure : Option IoError} {n : Nat}
    (h : source.stream = ⟨bytes, failure⟩) (hn : n ≤ bytes.length) :
    ∃ later, source.take n = (.ok (bytes.take n), later) ∧
      later.stream = ⟨bytes.drop n, failure⟩ := by
  induction n generalizing source bytes with
  | zero => exact ⟨source, rfl, h⟩
  | succ n ih =>
    cases bytes with
    | nil => simp at hn
    | cons b bytes =>
      obtain ⟨middle, hnext, hm⟩ := next_of_stream_cons h
      obtain ⟨later, htake, hl⟩ := ih hm (by simpa using hn)
      refine ⟨later, ?_, hl⟩
      simp [take, hnext, htake]

theorem take_of_lt {source : Source} {bytes : Bytes} {failure : Option IoError} {n : Nat}
    (h : source.stream = ⟨bytes, failure⟩) (hn : bytes.length < n) :
    (source.take n).1 = .error (failure.getD shortRead) := by
  induction n generalizing source bytes with
  | zero => simp at hn
  | succ n ih =>
    cases bytes with
    | nil =>
      have hnext : source.next = (ByteRead.ofFailure failure, source.next.2) :=
        Prod.ext (next_of_stream_nil h) rfl
      rw [take, hnext]
      cases failure <;> rfl
    | cons b bytes =>
      obtain ⟨middle, hnext, hm⟩ := next_of_stream_cons h
      have htake : middle.take n = (.error (failure.getD shortRead), (middle.take n).2) :=
        Prod.ext (ih hm (by simpa using hn)) rfl
      rw [take, hnext]
      dsimp only
      rw [htake]

end Source

end StepRunner
