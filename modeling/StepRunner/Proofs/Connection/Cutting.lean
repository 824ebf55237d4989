import StepRunner.Connection.Frame
import StepRunner.Proofs.Connection.Stream

namespace StepRunner

namespace Varint

/-- The number that groups of seven bits spell, lowest bits first. -/
def value : Bytes → Nat
  | [] => 0
  | b :: bytes => b.toNat % 128 + 128 * value bytes

/-- The bytes up to and including the first without its high bit. -/
def prefixSize : Bytes → Nat
  | [] => 1
  | b :: bytes => if b.toNat < 128 then 1 else prefixSize bytes + 1

theorem prefixSize_pos (bytes : Bytes) : 0 < prefixSize bytes := by
  cases bytes with
  | nil => decide
  | cons b bytes => rw [prefixSize]; split <;> omega

/-- Reading a number gives its value, unless that takes more than `7 * k + 1` bits. -/
theorem readUpTo_take_prefixSize {k : Nat} {bytes : Bytes} (hk : prefixSize bytes ≤ k + 1)
    (hb : prefixSize bytes ≤ bytes.length) :
    readUpTo (k + 1) (bytes.take (prefixSize bytes)) =
      if value (bytes.take (prefixSize bytes)) < 2 * Nat.pow 128 k
      then some (value (bytes.take (prefixSize bytes)), prefixSize bytes) else none := by
  induction bytes generalizing k with
  | nil => simp [prefixSize] at hb
  | cons b bytes ih =>
    by_cases hl : b.toNat < 128
    · have hm : b.toNat % 128 = b.toNat := Nat.mod_eq_of_lt hl
      simp only [prefixSize, hl, if_true, List.take_succ_cons, List.take_zero, readUpTo, value, hm,
        Nat.mul_zero, Nat.add_zero]
      cases k with
      | zero =>
        have hp : 2 * Nat.pow 128 0 = 2 := rfl
        rw [hp]
        split <;> split <;> first | rfl | omega
      | succ k =>
        have hp : Nat.pow 128 (k + 1) = Nat.pow 128 k * 128 := rfl
        have hpos : 0 < Nat.pow 128 k := Nat.pow_pos (by decide)
        rw [if_neg (by omega), if_pos (by omega)]
    · simp only [prefixSize, hl, if_false, List.length_cons] at hk hb
      cases k with
      | zero => have := prefixSize_pos bytes; omega
      | succ k =>
        have hp : Nat.pow 128 (k + 1) = Nat.pow 128 k * 128 := rfl
        have hlt := b.toNat_lt
        have hm : b.toNat % 128 = b.toNat - 128 := by omega
        simp only [prefixSize, hl, if_false, List.take_succ_cons, value, hm]
        rw [readUpTo, if_neg hl, ih (by omega) (by omega)]
        by_cases hv : value (bytes.take (prefixSize bytes)) < 2 * Nat.pow 128 k
        · rw [if_pos hv, if_pos (by omega)]
        · rw [if_neg hv, if_neg (by omega)]

end Varint

namespace Frame

open Varint

/-- What is left where no more frame begins. -/
inductive Tail where
  | nothing
  /-- The bytes run out inside a frame. -/
  | short
  | bad (fault : FrameFault)
  deriving DecidableEq, Repr

inductive Cut where
  | frame (payload rest : Bytes)
  | stop (tail : Tail) (rest : Bytes)
  deriving DecidableEq, Repr

/-- What is wrong with a payload of this length. -/
def lengthFault? (length : Nat) : Option FrameFault :=
  if UInt64.size ≤ length then some .badPrefix
  else if maxLength < length then some (.tooLarge length)
  else if length = 0 then some .empty
  else none

theorem lengthFault?_of_le {length : Nat} (hpos : 0 < length) (hle : length ≤ maxLength) :
    lengthFault? length = none := by
  have hmax : maxLength < UInt64.size := by decide
  rw [lengthFault?, if_neg (by omega), if_neg (by omega), if_neg (by omega)]

/-- The bytes after a length prefix. -/
def cutPayload (length : Nat) (rest : Bytes) : Cut :=
  match lengthFault? length with
  | some fault => .stop (.bad fault) rest
  | none =>
    if rest.length < length then .stop .short [] else .frame (rest.take length) (rest.drop length)

def cut (bytes : Bytes) : Cut :=
  if bytes = [] then .stop .nothing []
  else if maxPrefix < prefixSize bytes then .stop (.bad .longPrefix) (bytes.drop maxPrefix)
  else if bytes.length < prefixSize bytes then .stop .short []
  else cutPayload (value (bytes.take (prefixSize bytes))) (bytes.drop (prefixSize bytes))

/-- What a reader of a stream that stops with `failure` gets where a frame is to be cut. -/
def Finds (failure : Option IoError) (result : Except FrameError (Option Bytes) × Source) :
    Cut → Prop
  | .frame payload rest =>
    ∃ later, result = (.ok (some payload), later) ∧ later.stream = ⟨rest, failure⟩
  | .stop (.bad fault) rest =>
    ∃ later, result = (.error (.invalid fault), later) ∧ later.stream = ⟨rest, failure⟩
  | .stop .short _ =>
    ∃ e ∈ [closedInPrefix, Source.shortRead], result.1 = .error (.io (failure.getD e))
  | .stop .nothing _ =>
    result.1 = match failure with
      | none => .ok none
      | some e => .error (.io e)

theorem lengthOf_prefix {bytes : Bytes} (hk : prefixSize bytes ≤ maxPrefix)
    (hb : prefixSize bytes ≤ bytes.length) :
    lengthOf (bytes.take (prefixSize bytes)) =
      match lengthFault? (value (bytes.take (prefixSize bytes))) with
      | some fault => .error fault
      | none => .ok (value (bytes.take (prefixSize bytes))) := by
  have hsize : 2 * Nat.pow 128 9 = UInt64.size := by decide
  rw [lengthOf, decode, readUpTo_take_prefixSize hk hb, hsize, lengthFault?]
  by_cases hv : value (bytes.take (prefixSize bytes)) < UInt64.size
  · rw [if_pos hv, if_neg (by omega)]
    dsimp only
    split
    · rfl
    · split <;> rfl
  · rw [if_neg hv, if_pos (by omega)]

section

variable {source : Source} {bytes : Bytes} {failure : Option IoError} {left : Nat}

theorem readPrefix_cons (left : Nat) {b : UInt8} (h : source.stream = ⟨b :: bytes, failure⟩)
    (hb : ¬b.toNat < 128) :
    ∃ later, later.stream = ⟨bytes, failure⟩ ∧ readPrefix (left + 1) source =
      match readPrefix left later with
      | (.ok more, last) => (.ok (b :: more), last)
      | (.error e, last) => (.error e, last) := by
  obtain ⟨later, hnext, hlater⟩ := Source.next_of_stream_cons h
  refine ⟨later, hlater, ?_⟩
  rw [readPrefix, hnext]
  exact if_neg hb

theorem readPrefix_long (h : source.stream = ⟨bytes, failure⟩) (hl : left < prefixSize bytes) :
    ∃ later, readPrefix left source = (.error (.invalid .longPrefix), later) ∧
      later.stream = ⟨bytes.drop left, failure⟩ := by
  induction left generalizing source bytes with
  | zero => exact ⟨source, rfl, h⟩
  | succ left ih =>
    cases bytes with
    | nil => simp [prefixSize] at hl
    | cons b bytes =>
      by_cases hb : b.toNat < 128
      · simp [prefixSize, hb] at hl
      · obtain ⟨middle, hm, hread⟩ := readPrefix_cons left h hb
        simp only [prefixSize, hb, if_false] at hl
        obtain ⟨later, hlong, hlater⟩ := ih hm (by omega)
        refine ⟨later, ?_, hlater⟩
        rw [hread, hlong]

theorem readPrefix_short (h : source.stream = ⟨bytes, failure⟩) (hl : prefixSize bytes ≤ left)
    (hb : bytes.length < prefixSize bytes) :
    (readPrefix left source).1 = .error (.io (failure.getD closedInPrefix)) := by
  induction left generalizing source bytes with
  | zero => have := prefixSize_pos bytes; omega
  | succ left ih =>
    cases bytes with
    | nil =>
      have hnext : source.next = (ByteRead.ofFailure failure, source.next.2) :=
        Prod.ext (Source.next_of_stream_nil h) rfl
      rw [readPrefix, hnext]
      cases failure <;> rfl
    | cons b bytes =>
      by_cases hc : b.toNat < 128
      · simp [prefixSize, hc] at hb
      · obtain ⟨middle, hm, hread⟩ := readPrefix_cons left h hc
        simp only [prefixSize, hc, if_false, List.length_cons] at hl hb
        have hshort : readPrefix left middle =
            (.error (.io (failure.getD closedInPrefix)), (readPrefix left middle).2) :=
          Prod.ext (ih hm (by omega) (by omega)) rfl
        rw [hread, hshort]

theorem readPrefix_whole (h : source.stream = ⟨bytes, failure⟩) (hl : prefixSize bytes ≤ left)
    (hb : prefixSize bytes ≤ bytes.length) :
    ∃ later, readPrefix left source = (.ok (bytes.take (prefixSize bytes)), later) ∧
      later.stream = ⟨bytes.drop (prefixSize bytes), failure⟩ := by
  induction left generalizing source bytes with
  | zero => have := prefixSize_pos bytes; omega
  | succ left ih =>
    cases bytes with
    | nil => simp [prefixSize] at hb
    | cons b bytes =>
      by_cases hc : b.toNat < 128
      · obtain ⟨later, hnext, hlater⟩ := Source.next_of_stream_cons h
        refine ⟨later, ?_, ?_⟩
        · simp [readPrefix, hnext, hc, prefixSize]
        · simpa [prefixSize, hc] using hlater
      · obtain ⟨middle, hm, hread⟩ := readPrefix_cons left h hc
        simp only [prefixSize, hc, if_false, List.length_cons] at hl hb ⊢
        obtain ⟨later, hwhole, hlater⟩ := ih hm (by omega) (by omega)
        refine ⟨later, ?_, hlater⟩
        rw [hread, hwhole]
        rfl

theorem readPayload_prefix (h : source.stream = ⟨bytes.drop (prefixSize bytes), failure⟩)
    (hl : prefixSize bytes ≤ maxPrefix) (hb : prefixSize bytes ≤ bytes.length) :
    Finds failure (readPayload (bytes.take (prefixSize bytes)) source)
      (cutPayload (value (bytes.take (prefixSize bytes))) (bytes.drop (prefixSize bytes))) := by
  generalize hn : value (bytes.take (prefixSize bytes)) = length
  generalize bytes.drop (prefixSize bytes) = rest at h ⊢
  rw [readPayload, lengthOf_prefix hl hb, cutPayload, hn]
  cases lengthFault? length with
  | some fault => exact ⟨source, rfl, h⟩
  | none =>
    dsimp only
    by_cases hlt : rest.length < length
    · have htake : source.take length =
          (.error (failure.getD Source.shortRead), (source.take length).2) :=
        Prod.ext (Source.take_of_lt h hlt) rfl
      rw [htake, if_pos hlt]
      exact ⟨Source.shortRead, by simp, rfl⟩
    · obtain ⟨later, htake, hlater⟩ := Source.take_of_le h (Nat.le_of_not_lt hlt)
      rw [htake, if_neg hlt]
      exact ⟨later, rfl, hlater⟩

/-- Reading is reading a prefix and then a payload, once there is a byte. -/
theorem read_of_stream_cons {b : UInt8} (h : source.stream = ⟨b :: bytes, failure⟩) :
    read source =
      match readPrefix maxPrefix source with
      | (.ok lengthPrefix, later) => readPayload lengthPrefix later
      | (.error e, later) => (.error e, later) := by
  obtain ⟨later, hnext, -⟩ := Source.next_of_stream_cons h
  have hp : readPrefix maxPrefix source = readPrefix (maxPrefix - 1 + 1) source := rfl
  rw [hp, read, readPrefix, hnext]
  dsimp only
  split
  · rfl
  · split <;> simp_all

end

/-- **Reading a frame finds what the bytes to come begin with,** however they come. -/
theorem finds_cut (source : Source) :
    Finds source.stream.failure (read source) (cut source.stream.bytes) := by
  rcases hs : source.stream with ⟨bytes, failure⟩
  dsimp only
  rw [cut]
  cases bytes with
  | nil =>
    have hnext : source.next = (ByteRead.ofFailure failure, source.next.2) :=
      Prod.ext (Source.next_of_stream_nil hs) rfl
    rw [if_pos rfl, read, hnext]
    cases failure <;> rfl
  | cons b bytes =>
    rw [if_neg (List.cons_ne_nil b bytes), read_of_stream_cons hs]
    by_cases hlong : maxPrefix < prefixSize (b :: bytes)
    · obtain ⟨later, hfound, hlater⟩ := readPrefix_long hs hlong
      rw [hfound, if_pos hlong]
      exact ⟨later, rfl, hlater⟩
    rw [if_neg hlong]
    by_cases hshort : (b :: bytes).length < prefixSize (b :: bytes)
    · have hfound : readPrefix maxPrefix source =
          (.error (.io (failure.getD closedInPrefix)), (readPrefix maxPrefix source).2) :=
        Prod.ext (readPrefix_short hs (Nat.le_of_not_lt hlong) hshort) rfl
      rw [hfound, if_pos hshort]
      exact ⟨closedInPrefix, by simp, rfl⟩
    · obtain ⟨later, hfound, hlater⟩ :=
        readPrefix_whole hs (Nat.le_of_not_lt hlong) (Nat.le_of_not_lt hshort)
      rw [hfound, if_neg hshort]
      exact readPayload_prefix hlater (Nat.le_of_not_lt hlong) (Nat.le_of_not_lt hshort)

theorem length_rest_lt {bytes payload rest : Bytes} (h : cut bytes = .frame payload rest) :
    rest.length < bytes.length := by
  have hp := prefixSize_pos bytes
  simp only [cut] at h
  split at h
  · simp at h
  split at h
  · simp at h
  split at h
  · simp at h
  · next hb =>
    simp only [cutPayload] at h
    split at h
    · simp at h
    · split at h
      · simp at h
      · simp only [Cut.frame.injEq] at h
        rw [← h.2, List.length_drop, List.length_drop]
        omega

/-- All the frames that bytes hold, and what is left after them. -/
def cutAll (bytes : Bytes) : List Bytes × Tail :=
  match h : cut bytes with
  | .stop tail _ => ([], tail)
  | .frame payload rest =>
    have := length_rest_lt h
    (payload :: (cutAll rest).1, (cutAll rest).2)
termination_by bytes.length

theorem cutAll_of_stop {bytes rest : Bytes} {tail : Tail} (h : cut bytes = .stop tail rest) :
    cutAll bytes = ([], tail) := by
  rw [cutAll]
  split <;> simp_all

theorem cutAll_of_frame {bytes payload rest : Bytes} (h : cut bytes = .frame payload rest) :
    cutAll bytes = (payload :: (cutAll rest).1, (cutAll rest).2) := by
  rw [cutAll]
  split <;> simp_all

end Frame

end StepRunner
