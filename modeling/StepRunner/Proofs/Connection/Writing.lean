import StepRunner.Connection.Frame
import StepRunner.Proofs.Connection.Delivery

namespace StepRunner

/-- How writing all of some data comes out. -/
inductive WriteEnd where
  | whole
  | broken (e : IoError)
  /-- Every further write is interrupted. -/
  | endless

/-- What the writer is told. -/
def WriteEnd.Reports (ending : WriteEnd) (result : Except IoError Unit) : Prop :=
  match ending with
  | whole => result = .ok ()
  | broken e => result = .error e
  | endless => ∃ e, result = .error e

namespace Sink

/-- Every write is interrupted, and the next one after it. -/
def Stalled (sink : Sink) : Prop :=
  ∀ data, ∃ e, sink.write data = (.error e, sink) ∧ e.kind = .interrupted

/-- Writing all of some data, answer by answer; `taken` is what arrives. -/
inductive Writes : Sink → (data taken : Bytes) → WriteEnd → Sink → Prop
  | whole (sink : Sink) : Writes sink [] [] .whole sink
  | takes {sink middle later : Sink} {data taken : Bytes} {n : Nat} {ending : WriteEnd}
      (hwrite : sink.write data = (.ok n, middle)) (hn : 0 < n)
      (hrest : Writes middle (data.drop n) taken ending later) :
      Writes sink data (data.take n ++ taken) ending later
  | takesNothing {sink later : Sink} {data : Bytes} (hdata : data ≠ [])
      (hwrite : sink.write data = (.ok 0, later)) : Writes sink data [] (.broken writeZero) later
  | interrupted {sink middle later : Sink} {data taken : Bytes} {e : IoError} {ending : WriteEnd}
      (hdata : data ≠ []) (hwrite : sink.write data = (.error e, middle))
      (he : e.kind = .interrupted) (hrest : Writes middle data taken ending later) :
      Writes sink data taken ending later
  | fails {sink later : Sink} {data : Bytes} {e : IoError} (hdata : data ≠ [])
      (hwrite : sink.write data = (.error e, later)) (he : e.kind ≠ .interrupted) :
      Writes sink data [] (.broken e) later
  | stalled {sink : Sink} {data : Bytes} (hdata : data ≠ []) (h : sink.Stalled) :
      Writes sink data [] .endless sink

/-- A write takes the front of what it is offered, or fails, by the script or in the same way for
good. -/
def Answers (sink : Sink) (data : Bytes) : Except IoError Nat × Sink → Prop
  | (.ok n, later) => n ≤ data.length ∧ later.written = sink.written ++ data.take n ∧
      later.script.length ≤ sink.script.length
  | (.error e, later) => later.written = sink.written ∧
      (later.script.length < sink.script.length ∨
        later = sink ∧ ∀ other, sink.write other = (.error e, sink))

theorem answers_accept {sink before : Sink} {data : Bytes} (n : Nat)
    (hwritten : before.written = sink.written) (hscript : before.script.length ≤ sink.script.length) :
    sink.Answers data (before.accept (data.take n)) := by
  have htake : data.take (data.take n).length = data.take n := by
    rw [List.length_take, List.take_eq_take_min, Nat.min_assoc, Nat.min_self,
      ← List.take_eq_take_min]
  refine ⟨List.length_take_le' n data, ?_, hscript⟩
  rw [htake, ← hwritten]
  exact written_accept (data.take n) before

/-- What is taken of an offer at once, if there is room for it. -/
def front (sink : Sink) (offered : Bytes) : Bytes :=
  match sink.chunk with
  | some n => offered.take n
  | none => offered

theorem exists_front_eq_take (sink : Sink) (offered : Bytes) :
    ∃ n, sink.front offered = offered.take n := by
  rw [front]
  cases sink.chunk with
  | none => exact ⟨offered.length, List.take_length.symm⟩
  | some n => exact ⟨n, rfl⟩

/-- A write after the script. -/
theorem write_of_script_nil {sink : Sink} (h : sink.script = []) (offered : Bytes) :
    sink.write offered =
      match sink.room, sink.whenFull with
      | none, _ => sink.accept (sink.front offered)
      | some 0, some e => (.error e, sink)
      | some room, _ =>
        accept ((sink.front offered).take room)
          { sink with room := some (room - ((sink.front offered).take room).length) } := by
  rw [write, h]
  rfl

theorem answers_write (sink : Sink) (data : Bytes) : sink.Answers data (sink.write data) := by
  cases hs : sink.script with
  | cons answer script =>
    cases answer with
    | accepts n =>
      rw [write, hs]
      exact answers_accept n rfl (by simp [hs])
    | fails e =>
      rw [write, hs]
      exact ⟨rfl, .inl (by simp [hs])⟩
  | nil =>
    obtain ⟨n, hfront⟩ := sink.exists_front_eq_take data
    have hroom (room : Nat) : sink.Answers data (accept ((sink.front data).take room)
        { sink with room := some (room - ((sink.front data).take room).length) }) := by
      rw [hfront, List.take_take]
      exact answers_accept _ rfl (Nat.le_refl _)
    rw [write_of_script_nil hs]
    split
    · rw [hfront]
      exact answers_accept n rfl (Nat.le_refl _)
    · next e hr hf =>
      have hfail (other : Bytes) : sink.write other = (.error e, sink) := by
        simp only [write_of_script_nil hs, hr, hf]
      exact ⟨rfl, .inr ⟨rfl, hfail⟩⟩
    · exact hroom _

theorem answers_of_write {sink later : Sink} {data : Bytes} {result : Except IoError Nat}
    (h : sink.write data = (result, later)) : sink.Answers data (result, later) := by
  rw [← h]
  exact answers_write sink data

theorem writeAllIn_of_stalled {sink : Sink} (h : sink.Stalled) {data : Bytes} (hdata : data ≠ [])
    (n : Nat) : sink.writeAllIn n data = (.error writeZero, sink) := by
  obtain ⟨b, data, rfl⟩ := List.exists_cons_of_ne_nil hdata
  obtain ⟨e, hwrite, he⟩ := h (b :: data)
  induction n with
  | zero => rfl
  | succ n ih =>
    simp only [writeAllIn, hwrite, he, if_true]
    exact ih

/-- Enough tries are as good as any number of them. -/
theorem exists_writes_of_lt {n : Nat} {sink : Sink} {data : Bytes}
    (hn : sink.script.length + data.length < n) :
    ∃ taken ending, sink.Writes data taken ending (sink.writeAllIn n data).2 ∧
      ending.Reports (sink.writeAllIn n data).1 := by
  induction n generalizing sink data with
  | zero => omega
  | succ n ih =>
    cases data with
    | nil => exact ⟨[], .whole, .whole sink, rfl⟩
    | cons b data =>
      have hdata : b :: data ≠ [] := List.cons_ne_nil b data
      rcases hwrite : sink.write (b :: data) with ⟨result, middle⟩
      have hanswers := answers_of_write hwrite
      simp only [writeAllIn, hwrite]
      -- Each try makes the data or the script shorter, but for an interruption that never ends.
      cases result with
      | ok taken =>
        cases taken with
        | zero => exact ⟨[], .broken writeZero, .takesNothing hdata hwrite, rfl⟩
        | succ taken =>
          obtain ⟨hle, -, hscript⟩ := hanswers
          have hlt : middle.script.length + ((b :: data).drop (taken + 1)).length < n := by
            rw [List.length_drop]
            omega
          obtain ⟨rest, ending, hrest, hreports⟩ := ih hlt
          exact ⟨_, ending, .takes hwrite (Nat.succ_pos taken) hrest, hreports⟩
      | error e =>
        dsimp only
        by_cases he : e.kind = .interrupted
        · rw [if_pos he]
          rcases hanswers.2 with hscript | ⟨rfl, hsame⟩
          · have hlt : middle.script.length + (b :: data).length < n := by omega
            obtain ⟨rest, ending, hrest, hreports⟩ := ih hlt
            exact ⟨rest, ending, .interrupted hdata hwrite he hrest, hreports⟩
          · have hstalled : middle.Stalled := fun other => ⟨e, hsame other, he⟩
            rw [writeAllIn_of_stalled hstalled hdata]
            exact ⟨[], .endless, .stalled hdata hstalled, writeZero, rfl⟩
        · rw [if_neg he]
          exact ⟨[], .broken e, .fails hdata hwrite he, rfl⟩

theorem exists_writes (sink : Sink) (data : Bytes) :
    ∃ taken ending, sink.Writes data taken ending (sink.writeAll data).2 ∧
      ending.Reports (sink.writeAll data).1 :=
  exists_writes_of_lt (Nat.lt_succ_self _)

section

variable {sink later : Sink} {data taken : Bytes} {ending : WriteEnd}

/-- What arrives is the front of the data. -/
theorem Writes.isPrefix (h : sink.Writes data taken ending later) : taken <+: data := by
  induction h with
  | whole | takesNothing | fails | stalled => exact List.nil_prefix
  | @takes _ _ _ data _ n _ _ _ _ ih =>
    have hfront := (List.prefix_append_right_inj (data.take n)).mpr ih
    rwa [List.take_append_drop] at hfront
  | interrupted _ _ _ _ ih => exact ih

theorem Writes.written (h : sink.Writes data taken ending later) :
    later.written = sink.written ++ taken := by
  induction h with
  | whole | stalled => exact (List.append_nil _).symm
  | takes hwrite _ _ ih => rw [ih, (answers_of_write hwrite).2.1, List.append_assoc]
  | takesNothing _ hwrite => simpa using (answers_of_write hwrite).2.1
  | interrupted _ hwrite _ _ ih => rw [ih, (answers_of_write hwrite).1]
  | fails _ hwrite => rw [(answers_of_write hwrite).1, List.append_nil]

theorem Writes.eq_of_whole (h : sink.Writes data taken .whole later) : taken = data := by
  generalize hending : WriteEnd.whole = ending at h
  induction h with
  | whole => rfl
  | takes _ _ _ ih => rw [ih hending, List.take_append_drop]
  | takesNothing | fails | stalled => cases hending
  | interrupted _ _ _ _ ih => exact ih hending

end

end Sink

namespace Frame

/-- Writing a payload as one frame and flushing; `taken` is what arrives of the frame. -/
inductive Sends (payload : Bytes) : Sink → Bytes → WriteEnd → Sink → Prop
  | flushed {sink middle later : Sink} {taken : Bytes}
      (hwrites : sink.Writes (encode payload) taken .whole middle)
      (hflush : middle.flush = (.ok (), later)) : Sends payload sink taken .whole later
  | unflushed {sink middle later : Sink} {taken : Bytes} {e : IoError}
      (hwrites : sink.Writes (encode payload) taken .whole middle)
      (hflush : middle.flush = (.error e, later)) : Sends payload sink taken (.broken e) later
  | unwritten {sink later : Sink} {taken : Bytes} {ending : WriteEnd}
      (hwrites : sink.Writes (encode payload) taken ending later) (h : ending ≠ .whole) :
      Sends payload sink taken ending later

theorem exists_sends (payload : Bytes) (sink : Sink) :
    ∃ taken ending, Sends payload sink taken ending (write payload sink).2 ∧
      ending.Reports (write payload sink).1 := by
  obtain ⟨taken, ending, hwrites, hreports⟩ := sink.exists_writes (encode payload)
  rw [write]
  generalize sink.writeAll (encode payload) = run at hwrites hreports
  obtain ⟨result, middle⟩ := run
  cases ending with
  | whole =>
    obtain rfl : result = .ok () := hreports
    dsimp only at hwrites ⊢
    rcases hflush : middle.flush with ⟨flushed, later⟩
    cases flushed with
    | ok done => exact ⟨taken, .whole, .flushed hwrites hflush, rfl⟩
    | error e => exact ⟨taken, .broken e, .unflushed hwrites hflush, rfl⟩
  | broken e =>
    obtain rfl : result = .error e := hreports
    exact ⟨taken, .broken e, .unwritten hwrites (by simp), rfl⟩
  | endless =>
    obtain ⟨e, rfl⟩ := hreports
    exact ⟨taken, .endless, .unwritten hwrites (by simp), e, rfl⟩

variable {payload taken : Bytes} {sink later : Sink} {ending : WriteEnd}

theorem Sends.isPrefix (h : Sends payload sink taken ending later) : taken <+: encode payload := by
  cases h with
  | flushed hwrites | unflushed hwrites | unwritten hwrites => exact hwrites.isPrefix

theorem Sends.written (h : Sends payload sink taken ending later) :
    later.written = sink.written ++ taken := by
  cases h with
  | unwritten hwrites => exact hwrites.written
  | flushed hwrites hflush | unflushed hwrites hflush =>
    have hsame := congrArg (fun run => run.2.written) hflush
    exact (hsame.symm.trans (Sink.written_flush _)).trans hwrites.written

theorem Sends.eq_of_whole (h : Sends payload sink taken .whole later) : taken = encode payload := by
  cases h with
  | flushed hwrites => exact hwrites.eq_of_whole
  | unwritten _ hne => exact absurd rfl hne

end Frame

end StepRunner
