import StepRunner.Connection.Frame

namespace StepRunner

/-- The write is to be repeated with what is left. -/
def WriteAnswer.Continues : WriteAnswer → Prop
  | .accepts n => 0 < n
  | .fails e => e.kind = .interrupted

namespace Sink

structure Accepting (sink : Sink) : Prop where
  script : ∀ answer ∈ sink.script, answer.Continues
  chunk : sink.chunk ≠ some 0
  room : sink.room = none
  flushScript : ∀ failure ∈ sink.flushScript, failure = none
  flushFailure : sink.flushFailure = none

theorem accepting_unlimited : unlimited.Accepting :=
  ⟨by simp [unlimited], by simp [unlimited], rfl, by simp [unlimited], rfl⟩

@[simp] theorem written_flush (sink : Sink) : sink.flush.2.written = sink.written := by
  rw [flush]
  split <;> rfl

theorem flush_of_accepting {sink : Sink} (h : sink.Accepting) :
    sink.flush.1 = .ok () ∧ sink.flush.2.Accepting := by
  rw [flush]
  cases hs : sink.flushScript with
  | nil => exact ⟨by simp [h.flushFailure], h⟩
  | cons failure script =>
    have hf : failure = none := h.flushScript failure (by simp [hs])
    refine ⟨by simp [hf], ?_⟩
    exact ⟨h.script, h.chunk, h.room, fun f hm => h.flushScript f (by simp [hs, hm]),
      h.flushFailure⟩

/-- A write took something, or was interrupted and came nearer to the end of the script. -/
def Moves (sink : Sink) (data : Bytes) : Except IoError Nat × Sink → Prop
  | (.ok n, later) => 0 < n ∧ n ≤ data.length ∧ later.written = sink.written ++ data.take n ∧
      later.script.length ≤ sink.script.length ∧ later.Accepting
  | (.error e, later) => e.kind = .interrupted ∧ later.written = sink.written ∧
      later.script.length < sink.script.length ∧ later.Accepting

theorem moves_accept {sink before : Sink} {data : Bytes} {n : Nat} (hd : data ≠ []) (hn : 0 < n)
    (hw : before.written = sink.written) (hs : before.script.length ≤ sink.script.length)
    (h : before.Accepting) : sink.Moves data (before.accept (data.take n)) := by
  have hpos : 0 < data.length := List.length_pos_iff.mpr hd
  have hlen : (data.take n).length = min n data.length := List.length_take
  have htake : data.take (data.take n).length = data.take n := by
    rw [hlen, List.take_eq_take_min, Nat.min_assoc, Nat.min_self, ← List.take_eq_take_min]
  refine ⟨by omega, by omega, ?_, hs, ?_⟩
  · rw [htake, ← hw]
    exact written_accept (data.take n) before
  · exact ⟨h.script, h.chunk, h.room, h.flushScript, h.flushFailure⟩

theorem moves_write {sink : Sink} (h : sink.Accepting) {data : Bytes} (hd : data ≠ []) :
    sink.Moves data (sink.write data) := by
  cases hs : sink.script with
  | nil =>
    cases hc : sink.chunk with
    | none =>
      have hpos : 0 < data.length := List.length_pos_iff.mpr hd
      simpa [write, hs, hc, h.room] using moves_accept hd hpos rfl (Nat.le_refl _) h
    | some n =>
      have hn : 0 < n := Nat.pos_of_ne_zero fun h0 => h.chunk (by rw [hc, h0])
      simpa [write, hs, hc, h.room] using moves_accept hd hn rfl (Nat.le_refl _) h
  | cons answer script =>
    have ha : answer.Continues := h.script answer (by simp [hs])
    have later : { sink with script }.Accepting :=
      ⟨fun a hm => h.script a (by simp [hs, hm]), h.chunk, h.room, h.flushScript, h.flushFailure⟩
    cases answer with
    | accepts n =>
      rw [write, hs]
      exact moves_accept hd ha rfl (by simp [hs]) later
    | fails e =>
      rw [write, hs]
      exact ⟨ha, rfl, by simp [hs], later⟩

theorem writeAllIn_of_accepting {sink : Sink} (h : sink.Accepting) {n : Nat} (data : Bytes)
    (hn : sink.script.length + data.length < n) :
    ∃ later, sink.writeAllIn n data = (.ok (), later) ∧
      later.written = sink.written ++ data ∧ later.Accepting := by
  induction n generalizing sink data with
  | zero => omega
  | succ n ih =>
    cases data with
    | nil => exact ⟨sink, rfl, by simp, h⟩
    | cons b data =>
      have hm := moves_write h (List.cons_ne_nil b data)
      simp only [writeAllIn]
      cases hw : sink.write (b :: data) with
      | mk result middle =>
        rw [hw] at hm
        cases result with
        | error e =>
          obtain ⟨he, hwritten, hscript, hmiddle⟩ := hm
          obtain ⟨later, hall, hl, hla⟩ := ih hmiddle (b :: data) (by omega)
          exact ⟨later, by simp [he, hall], by rw [hl, hwritten], hla⟩
        | ok taken =>
          obtain ⟨hpos, hle, hwritten, hscript, hmiddle⟩ := hm
          obtain ⟨later, hall, hl, hla⟩ := ih hmiddle ((b :: data).drop taken)
            (by rw [List.length_drop]; omega)
          refine ⟨later, ?_, ?_, hla⟩
          · cases taken with
            | zero => omega
            | succ taken => exact hall
          · rw [hl, hwritten, List.append_assoc, List.take_append_drop]

end Sink

namespace Frame

theorem write_of_accepting {sink : Sink} (h : sink.Accepting) (payload : Bytes) :
    ∃ later, write payload sink = (.ok (), later) ∧
      later.written = sink.written ++ encode payload ∧ later.Accepting := by
  obtain ⟨middle, hall, hwritten, hmiddle⟩ :=
    Sink.writeAllIn_of_accepting h (encode payload) (Nat.lt_succ_self _)
  obtain ⟨hflush, hlater⟩ := Sink.flush_of_accepting hmiddle
  refine ⟨middle.flush.2, ?_, by rw [Sink.written_flush, hwritten], hlater⟩
  rw [write, Sink.writeAll, hall]
  exact Prod.ext hflush rfl

end Frame

end StepRunner
