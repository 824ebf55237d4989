import StepRunner.Proofs.Connection.Cutting
import StepRunner.Proofs.Connection.Delivery
import StepRunner.Proofs.Message.Conformance

namespace StepRunner

namespace Varint

variable (k n : Nat) (rest : Bytes)

/-- A number ends where its groups do. -/
theorem prefixSize_groups (hn : n < 2 * Nat.pow 128 k) :
    prefixSize (groups (k + 1) n ++ rest) = (groups (k + 1) n).length := by
  induction k generalizing n with
  | zero =>
    have hn : n < 2 := hn
    have hbyte : n.toUInt8.toNat = n := toNat_toUInt8 (by omega)
    have hlow : n < 128 := by omega
    simp [groups, prefixSize, hbyte, hlow]
  | succ k ih =>
    rw [groups]
    by_cases hlow : n < 128
    · have hbyte : n.toUInt8.toNat = n := toNat_toUInt8 (by omega)
      simp [prefixSize, hbyte, hlow]
    · have hbyte : (n % 128 + 128).toUInt8.toNat = n % 128 + 128 := toNat_toUInt8 (by omega)
      have hhigh : ¬ n % 128 + 128 < 128 := by omega
      have hpow : Nat.pow 128 (k + 1) = Nat.pow 128 k * 128 := rfl
      have hrest : n / 128 < 2 * Nat.pow 128 k := by omega
      rw [if_neg hlow, List.cons_append, prefixSize, hbyte, if_neg hhigh, ih (n / 128) hrest,
        List.length_cons]

theorem value_groups (hn : n < 2 * Nat.pow 128 k) : value (groups (k + 1) n) = n := by
  induction k generalizing n with
  | zero =>
    have hn : n < 2 := hn
    have hbyte : n.toUInt8.toNat = n := toNat_toUInt8 (by omega)
    have hlow : n < 128 := by omega
    simp [groups, value, hbyte, hlow, Nat.mod_eq_of_lt]
  | succ k ih =>
    rw [groups]
    by_cases hlow : n < 128
    · have hbyte : n.toUInt8.toNat = n := toNat_toUInt8 (by omega)
      rw [if_pos hlow, value, value, hbyte]
      omega
    · have hbyte : (n % 128 + 128).toUInt8.toNat = n % 128 + 128 := toNat_toUInt8 (by omega)
      have hpow : Nat.pow 128 (k + 1) = Nat.pow 128 k * 128 := rfl
      have hrest : n / 128 < 2 * Nat.pow 128 k := by omega
      rw [if_neg hlow, value, hbyte, ih (n / 128) hrest]
      omega

end Varint

namespace Frame

open Varint

/-- **A written frame is cut where it was written,** after a prefix that states its length. -/
theorem cut_encode {payload : Bytes} (h : payload.length < UInt64.size) (rest : Bytes) :
    cut (encode payload ++ rest) = cutPayload payload.length (payload ++ rest) := by
  have hsize : UInt64.size = 2 * Nat.pow 128 9 := by decide
  rw [hsize] at h
  rw [encode, List.append_assoc, Varint.encode]
  generalize payload ++ rest = after
  have hends : prefixSize (groups 10 payload.length ++ after) =
      (groups 10 payload.length).length := prefixSize_groups 9 payload.length after h
  have hvalue : value (groups 10 payload.length) = payload.length :=
    value_groups 9 payload.length h
  have hshort : (groups 10 payload.length).length ≤ maxPrefix := length_groups_le 10 payload.length
  have hpos := prefixSize_pos (groups 10 payload.length ++ after)
  have hne : groups 10 payload.length ++ after ≠ [] := by
    intro hnil
    have hgroups := (List.append_eq_nil_iff.mp hnil).1
    rw [hends, hgroups] at hpos
    exact Nat.lt_irrefl 0 hpos
  have hwhole : ¬ (groups 10 payload.length ++ after).length <
      (groups 10 payload.length).length := by
    rw [List.length_append]
    omega
  rw [cut, if_neg hne, hends, if_neg (Nat.not_lt.mpr hshort), if_neg hwhole, List.take_left,
    List.drop_left, hvalue]

/-- The payload is one that a reader takes. -/
def Readable (payload : Bytes) : Prop := 1 ≤ payload.length ∧ payload.length ≤ maxLength

theorem lengthFault?_of_readable {payload : Bytes} (h : Readable payload) :
    lengthFault? payload.length = none :=
  lengthFault?_of_le h.1 h.2

theorem lengthFault?_of_not_readable {payload : Bytes} (hlt : payload.length < Nat.pow 2 63)
    (h : ¬ Readable payload) :
    lengthFault? payload.length =
      some (if payload = [] then .empty else .tooLarge payload.length) := by
  have hpow : Nat.pow 2 63 < UInt64.size := by decide
  have hsize : ¬ UInt64.size ≤ payload.length := by omega
  rw [lengthFault?, if_neg hsize]
  by_cases hnil : payload = []
  · subst hnil
    rfl
  · have hpos : 0 < payload.length := List.length_pos_iff.mpr hnil
    have hlarge : maxLength < payload.length := by
      rw [Readable] at h
      omega
    rw [if_pos hlarge, if_neg hnil]

variable {source : Source} {payload rest : Bytes}

/-- What was written is read, and the bytes after it are left. -/
theorem read_of_readable {failure : Option IoError} (h : Readable payload)
    (hstream : source.stream = ⟨encode payload ++ rest, failure⟩) :
    ∃ later, read source = (.ok (some payload), later) ∧ later.stream = ⟨rest, failure⟩ := by
  have hmax : maxLength < UInt64.size := by decide
  have hlt : payload.length < UInt64.size := Nat.lt_of_le_of_lt h.2 hmax
  have hlength : ¬ (payload ++ rest).length < payload.length := by
    rw [List.length_append]
    omega
  have hcut : cut (encode payload ++ rest) = .frame payload rest := by
    rw [cut_encode hlt, cutPayload, lengthFault?_of_readable h]
    dsimp only
    rw [if_neg hlength, List.take_left, List.drop_left]
  have hfinds := finds_cut source
  rw [hstream, hcut] at hfinds
  exact hfinds

/-- A payload of another length is refused by its prefix. -/
theorem read_of_not_readable (hlt : payload.length < Nat.pow 2 63) (h : ¬ Readable payload)
    (hstream : source.stream.bytes = encode payload ++ rest) :
    (read source).1 =
      .error (.invalid (if payload = [] then .empty else .tooLarge payload.length)) := by
  have hpow : Nat.pow 2 63 < UInt64.size := by decide
  have hcut := cut_encode (Nat.lt_trans hlt hpow) rest
  rw [cutPayload, lengthFault?_of_not_readable hlt h] at hcut
  have hfinds := finds_cut source
  rw [hstream, hcut] at hfinds
  obtain ⟨later, hread, -⟩ := hfinds
  rw [hread]

/-- A payload that is not empty is never taken for an empty one. -/
theorem read_ne_empty (hne : payload ≠ []) (hlt : payload.length < Nat.pow 2 63)
    (hstream : source.stream.bytes = encode payload ++ rest) :
    (read source).1 ≠ .error (.invalid .empty) := by
  by_cases h : Readable payload
  · have heq : source.stream = ⟨encode payload ++ rest, source.stream.failure⟩ := by rw [← hstream]
    obtain ⟨later, hread, -⟩ := read_of_readable h heq
    rw [hread]
    simp
  · rw [read_of_not_readable hlt h hstream, if_neg hne]
    simp

/-- Payloads written as frames one after another, up to the first failure. -/
def writeEach : List Bytes → Sink → Except IoError Unit × Sink
  | [], sink => (.ok (), sink)
  | payload :: payloads, sink =>
    match write payload sink with
    | (.ok (), sink) => writeEach payloads sink
    | (.error e, sink) => (.error e, sink)

/-- What a number of readings in turn give. -/
def readTimes : Nat → Source → List (Except FrameError (Option Bytes))
  | 0, _ => []
  | n + 1, source => (read source).1 :: readTimes n (read source).2

theorem writeEach_of_accepting {sink : Sink} (h : sink.Accepting) (payloads : List Bytes) :
    ∃ later, writeEach payloads sink = (.ok (), later) ∧
      later.written = sink.written ++ payloads.flatMap encode ∧ later.Accepting := by
  induction payloads generalizing sink with
  | nil => exact ⟨sink, rfl, by simp, h⟩
  | cons payload payloads ih =>
    obtain ⟨middle, hwrite, hwritten, hmiddle⟩ := write_of_accepting h payload
    obtain ⟨later, hrest, hlater, haccepting⟩ := ih hmiddle
    refine ⟨later, ?_, ?_, haccepting⟩
    · rw [writeEach, hwrite]
      exact hrest
    · rw [hlater, hwritten, List.flatMap_cons, List.append_assoc]

/-- Each reading gives the next payload; when there are no more, it gives none. -/
theorem readTimes_flatMap_encode {payloads : List Bytes}
    (h : ∀ payload ∈ payloads, Readable payload)
    (hstream : source.stream = ⟨payloads.flatMap encode, none⟩) :
    readTimes (payloads.length + 1) source =
      payloads.map (fun payload => .ok (some payload)) ++ [.ok none] := by
  induction payloads generalizing source with
  | nil =>
    have hfinds := finds_cut source
    rw [hstream] at hfinds
    have hnone : (read source).1 = .ok none := hfinds
    rw [List.length_nil, readTimes, readTimes, hnone]
    rfl
  | cons payload payloads ih =>
    obtain ⟨hfirst, hothers⟩ := List.forall_mem_cons.mp h
    obtain ⟨later, hread, hlater⟩ := read_of_readable hfirst hstream
    rw [List.length_cons, readTimes, hread, ih hothers hlater]
    rfl

/-- **What is written as frames is read as written,** in whatever pieces. A payload that is empty or
too long is refused only when it is read. -/
theorem readTimes_writeEach {sink : Sink} (hsink : sink.Accepting) :
    (∀ payloads : List Bytes, (∀ payload ∈ payloads, Readable payload) →
      ∃ later written, writeEach payloads sink = (.ok (), later) ∧
        later.written = sink.written ++ written ∧
        ∀ source : Source, source.stream = ⟨written, none⟩ →
          readTimes (payloads.length + 1) source =
            payloads.map (fun payload => .ok (some payload)) ++ [.ok none]) ∧
    (∀ payload : Bytes, payload.length < Nat.pow 2 63 → ¬ Readable payload →
      ∃ later written, write payload sink = (.ok (), later) ∧
        later.written = sink.written ++ written ∧
        ∀ (source : Source) (rest : Bytes), source.stream.bytes = written ++ rest →
          (read source).1 =
            .error (.invalid (if payload = [] then .empty else .tooLarge payload.length))) ∧
    ∀ message : Message, message.encode ≠ [] ∧
      ∃ later written, write message.encode sink = (.ok (), later) ∧
        later.written = sink.written ++ written ∧
        ∀ (source : Source) (rest : Bytes), message.encode.length < Nat.pow 2 63 →
          source.stream.bytes = written ++ rest → (read source).1 ≠ .error (.invalid .empty) := by
  refine ⟨?_, ?_, ?_⟩
  · intro payloads hpayloads
    obtain ⟨later, hwrite, hwritten, -⟩ := writeEach_of_accepting hsink payloads
    exact ⟨later, _, hwrite, hwritten, fun source => readTimes_flatMap_encode hpayloads⟩
  · intro payload hlt hlength
    obtain ⟨later, hwrite, hwritten, -⟩ := write_of_accepting hsink payload
    exact ⟨later, _, hwrite, hwritten, fun source rest => read_of_not_readable hlt hlength⟩
  · intro message
    obtain ⟨later, hwrite, hwritten, -⟩ := write_of_accepting hsink message.encode
    refine ⟨message.encode_ne_nil, later, _, hwrite, hwritten, ?_⟩
    intro source rest hlt hstream
    exact read_ne_empty message.encode_ne_nil hlt hstream

/-- Two payloads in pieces that are not the payloads, with interruptions. -/
theorem readTimes_writeEach_of_pieces :
    let sink : Sink := { Sink.unlimited with
      script := [.fails (.ofKind .interrupted), .accepts 1], chunk := some 2 }
    let payloads : List Bytes := [[7], [8, 9]]
    let source : Source := [.data [1], .data [7, 2], .fails (.ofKind .interrupted), .data [8, 9]]
    sink.Accepting ∧ (∀ payload ∈ payloads, Readable payload) ∧
      (∃ later, writeEach payloads sink = (.ok (), later) ∧ later.written = [1, 7, 2, 8, 9]) ∧
      readTimes 3 source = [.ok (some [7]), .ok (some [8, 9]), .ok none] := by
  intro sink payloads source
  have hsink : sink.Accepting :=
    ⟨by simp [sink, WriteAnswer.Continues, IoError.ofKind], by simp [sink], rfl,
      by simp [sink, Sink.unlimited], rfl⟩
  have hpayloads : ∀ payload ∈ payloads, Readable payload := by
    simp [payloads, Readable, maxLength]
  obtain ⟨later, written, hwrite, hwritten, hread⟩ :=
    (readTimes_writeEach hsink).1 payloads hpayloads
  have hlater : later.written = [1, 7, 2, 8, 9] := by
    have hrun : (writeEach payloads sink).2.written = [1, 7, 2, 8, 9] := by decide
    rw [hwrite] at hrun
    exact hrun
  have hbytes : written = [1, 7, 2, 8, 9] := hwritten.symm.trans hlater
  refine ⟨hsink, hpayloads, ⟨later, hwrite, hlater⟩, ?_⟩
  exact hread source (by rw [hbytes]; rfl)

end Frame

end StepRunner
