import StepRunner.Proofs.Connection.Cutting

namespace StepRunner

/-- The read gives data, or is tried again. -/
def ReadEvent.Continues : ReadEvent → Prop
  | .data _ => True
  | .fails e => e.kind = .interrupted
  | .ends => False

def ReadEvent.bytes : ReadEvent → Bytes
  | .data bytes => bytes
  | .fails _ | .ends => []

namespace Source

/-- Reads meet data and interruptions until the stream ends. -/
def Plain (source : Source) : Prop := ∀ event ∈ source, event.Continues

/-- The bytes of all the pieces, one after another. -/
def data (source : Source) : Bytes := source.flatMap ReadEvent.bytes

namespace Plain

variable {source : Source} (h : source.Plain)

include h

theorem stream_eq : source.stream = ⟨source.data, none⟩ := by
  induction source with
  | nil => rfl
  | cons event source ih =>
    obtain ⟨hevent, hrest⟩ := List.forall_mem_cons.mp h
    have hstream := ih hrest
    cases event with
    | data bytes => simp [stream, hstream, Source.data, ReadEvent.bytes]
    | fails e =>
      have hkind : e.kind = .interrupted := hevent
      simp [stream, hkind, hstream, Source.data, ReadEvent.bytes]
    | ends => cases hevent

theorem data_eq {bytes : Bytes} (hstream : source.stream = ⟨bytes, none⟩) : source.data = bytes := by
  rw [h.stream_eq] at hstream
  exact congrArg Stream.bytes hstream

theorem next : source.next.2.Plain := by
  induction source with
  | nil => exact h
  | cons event source ih =>
    obtain ⟨hevent, hrest⟩ := List.forall_mem_cons.mp h
    cases event with
    | data bytes =>
      cases bytes with
      | nil => exact ih hrest
      | cons b bytes => exact List.forall_mem_cons.mpr ⟨trivial, hrest⟩
    | fails e =>
      have hkind : e.kind = .interrupted := hevent
      rw [Source.next, if_pos hkind]
      exact ih hrest
    | ends => cases hevent

/-- At the end nothing is left, not even an interruption. -/
theorem next_of_nil (hnil : source.data = []) : source.next = (.ended, []) := by
  induction source with
  | nil => rfl
  | cons event source ih =>
    obtain ⟨hevent, hrest⟩ := List.forall_mem_cons.mp h
    cases event with
    | data bytes =>
      cases bytes with
      | nil => exact ih hrest hnil
      | cons b bytes => simp [Source.data, ReadEvent.bytes] at hnil
    | fails e =>
      have hkind : e.kind = .interrupted := hevent
      rw [Source.next, if_pos hkind]
      exact ih hrest hnil
    | ends => cases hevent

theorem next_of_cons {b : UInt8} {bytes : Bytes} (hcons : source.data = b :: bytes) :
    ∃ later, source.next = (.byte b, later) ∧ later.Plain ∧ later.data = bytes := by
  have hstream := h.stream_eq
  rw [hcons] at hstream
  obtain ⟨later, hnext, hlater⟩ := next_of_stream_cons hstream
  have hplain := h.next
  rw [hnext] at hplain
  exact ⟨later, hnext, hplain, data_eq hplain hlater⟩

theorem take (n : Nat) : (source.take n).2.Plain := by
  induction n generalizing source with
  | zero => exact h
  | succ n ih =>
    have hnext := h.next
    rw [Source.take]
    rcases hsource : source.next with ⟨read, later⟩
    rw [hsource] at hnext
    cases read with
    | byte b =>
      have htake := ih hnext
      dsimp only
      rcases hlater : later.take n with ⟨result, last⟩
      rw [hlater] at htake
      cases result <;> exact htake
    | ended | failed e => exact hnext

theorem take_of_lt {n : Nat} (hn : source.data.length < n) :
    source.take n = (.error shortRead, []) := by
  induction n generalizing source with
  | zero => cases hn
  | succ n ih =>
    cases hdata : source.data with
    | nil => rw [Source.take, h.next_of_nil hdata]
    | cons b bytes =>
      obtain ⟨later, hnext, hplain, hlater⟩ := h.next_of_cons hdata
      rw [hdata, List.length_cons] at hn
      have htake := ih hplain (by rw [hlater]; omega)
      rw [Source.take, hnext]
      dsimp only
      rw [htake]

end Plain

end Source

namespace Frame

open Varint

/-- All bytes have their high bit set, and so are not the last of a prefix. -/
def High (bytes : Bytes) : Prop := ∀ b ∈ bytes, 128 ≤ b.toNat

/-- The two make up a length prefix that is not too long to be read. -/
structure MakesPrefix (more : Bytes) (last : UInt8) : Prop where
  high : High more
  low : last.toNat < 128
  length_lt : more.length < maxPrefix

/-- The prefix takes more than 64 bits. -/
def Overflows (more : Bytes) (last : UInt8) : Prop := more.length = 9 ∧ 1 < last.toNat

/-- From these bytes reading gives the result, and leaves those bytes. -/
inductive Reading : Bytes → Except FrameError (Option Bytes) → Bytes → Prop
  | nothing : Reading [] (.ok none) []
  | overflow {more rest : Bytes} {last : UInt8} (hmakes : MakesPrefix more last)
      (hover : Overflows more last) :
      Reading (more ++ last :: rest) (.error (.invalid .badPrefix)) rest
  | empty {more rest : Bytes} {last : UInt8} (hmakes : MakesPrefix more last)
      (hzero : value (more ++ [last]) = 0) :
      Reading (more ++ last :: rest) (.error (.invalid .empty)) rest
  | tooLarge {more rest : Bytes} {last : UInt8} {length : Nat} (hmakes : MakesPrefix more last)
      (hfits : ¬ Overflows more last) (hvalue : value (more ++ [last]) = length)
      (hlarge : maxLength < length) :
      Reading (more ++ last :: rest) (.error (.invalid (.tooLarge length))) rest
  | frame {more payload rest : Bytes} {last : UInt8} (hmakes : MakesPrefix more last)
      (hvalue : value (more ++ [last]) = payload.length) (hpos : 0 < payload.length)
      (hle : payload.length ≤ maxLength) :
      Reading (more ++ last :: (payload ++ rest)) (.ok (some payload)) rest
  | shortPayload {more rest : Bytes} {last : UInt8} (hmakes : MakesPrefix more last)
      (hle : value (more ++ [last]) ≤ maxLength) (hshort : rest.length < value (more ++ [last])) :
      Reading (more ++ last :: rest)
        (.error (.io ⟨.unexpectedEof, "failed to fill whole buffer"⟩)) []
  | longPrefix {more rest : Bytes} (hhigh : High more) (hlength : more.length = maxPrefix) :
      Reading (more ++ rest) (.error (.invalid .longPrefix)) rest
  | shortPrefix {more : Bytes} (hhigh : High more) (hne : more ≠ [])
      (hlength : more.length < maxPrefix) :
      Reading more (.error (.io ⟨.unexpectedEof, "stream closed inside length prefix"⟩)) []

section

variable {more : Bytes} {last : UInt8}

theorem length_lt_prefixSize (h : High more) (rest : Bytes) :
    more.length < prefixSize (more ++ rest) := by
  induction more with
  | nil => exact prefixSize_pos rest
  | cons b more ih =>
    obtain ⟨hb, hmore⟩ := List.forall_mem_cons.mp h
    have hrest := ih hmore
    rw [List.cons_append, prefixSize, if_neg (Nat.not_lt.mpr hb), List.length_cons]
    omega

theorem prefixSize_of_low (h : High more) (hlow : last.toNat < 128) (rest : Bytes) :
    prefixSize (more ++ last :: rest) = more.length + 1 := by
  induction more with
  | nil => exact if_pos hlow
  | cons b more ih =>
    obtain ⟨hb, hmore⟩ := List.forall_mem_cons.mp h
    rw [List.cons_append, prefixSize, if_neg (Nat.not_lt.mpr hb), ih hmore, List.length_cons]

theorem value_lt (bytes : Bytes) : value bytes < Nat.pow 128 bytes.length := by
  induction bytes with
  | nil => decide
  | cons b bytes ih =>
    have hlow : b.toNat % 128 < 128 := Nat.mod_lt _ (by decide)
    have hpow : Nat.pow 128 (bytes.length + 1) = Nat.pow 128 bytes.length * 128 := rfl
    rw [value, List.length_cons, hpow]
    omega

theorem value_append_singleton (more : Bytes) (last : UInt8) :
    value (more ++ [last]) = value more + Nat.pow 128 more.length * (last.toNat % 128) := by
  induction more with
  | nil =>
    have hpow : Nat.pow 128 0 = 1 := rfl
    rw [List.length_nil, hpow, Nat.one_mul]
    simp [value]
  | cons b more ih =>
    have hpow : Nat.pow 128 (more.length + 1) = 128 * Nat.pow 128 more.length :=
      Nat.mul_comm (Nat.pow 128 more.length) 128
    rw [List.cons_append, value, value, ih, List.length_cons, hpow, Nat.mul_add, Nat.mul_assoc,
      Nat.add_assoc]

/-- A prefix overflows exactly if the number it spells does. -/
theorem size_le_value_iff (h : MakesPrefix more last) :
    UInt64.size ≤ value (more ++ [last]) ↔ Overflows more last := by
  have hsize : UInt64.size = 2 * Nat.pow 128 9 := by decide
  have hmore := value_lt more
  have hlast : last.toNat % 128 = last.toNat := Nat.mod_eq_of_lt h.low
  rw [value_append_singleton, hlast, hsize, Overflows]
  by_cases hlength : more.length = 9
  · have hnine : Nat.pow 128 9 = 9223372036854775808 := by decide
    rw [hlength, hnine] at hmore ⊢
    omega
  · have hshort : more.length + 1 ≤ 9 := by
      have hlt := h.length_lt
      rw [maxPrefix] at hlt
      omega
    have hpow : Nat.pow 128 more.length * 128 ≤ Nat.pow 128 9 :=
      Nat.pow_le_pow_right (show 128 > 0 by decide) hshort
    have hproduct : Nat.pow 128 more.length * last.toNat ≤ Nat.pow 128 more.length * 127 :=
      Nat.mul_le_mul_left _ (Nat.le_of_lt_succ h.low)
    omega

theorem cut_of_makesPrefix (h : MakesPrefix more last) (rest : Bytes) :
    cut (more ++ last :: rest) = cutPayload (value (more ++ [last])) rest := by
  have hsize := prefixSize_of_low h.high h.low rest
  have hlong : ¬ maxPrefix < more.length + 1 := by
    have hlt := h.length_lt
    omega
  have hshort : ¬ (more ++ last :: rest).length < more.length + 1 := by simp
  have hsplit : more ++ last :: rest = (more ++ [last]) ++ rest := by simp
  have hlength : (more ++ [last]).length = more.length + 1 := by simp
  rw [cut, if_neg (by simp), hsize, if_neg hlong, if_neg hshort, hsplit, ← hlength, List.take_left,
    List.drop_left]

end

section

variable {source : Source} (h : source.Plain)

include h

theorem plain_readPrefix (left : Nat) : (readPrefix left source).2.Plain := by
  induction left generalizing source with
  | zero => exact h
  | succ left ih =>
    have hnext := h.next
    rw [readPrefix]
    rcases hsource : source.next with ⟨read, later⟩
    rw [hsource] at hnext
    cases read with
    | byte b =>
      have hplain := ih hnext
      dsimp only
      split
      · exact hnext
      · rcases hread : readPrefix left later with ⟨result, last⟩
        rw [hread] at hplain
        cases result <;> exact hplain
    | ended | failed e => exact hnext

theorem plain_readPayload (lengthPrefix : Bytes) : (readPayload lengthPrefix source).2.Plain := by
  rw [readPayload]
  cases lengthOf lengthPrefix with
  | error fault => exact h
  | ok length =>
    have htake := h.take length
    dsimp only
    rcases hread : source.take length with ⟨result, later⟩
    rw [hread] at htake
    cases result <;> exact htake

/-- Reading is reading a prefix and then a payload, once there is a byte. -/
theorem read_of_data_ne_nil (hne : source.data ≠ []) :
    read source =
      match readPrefix maxPrefix source with
      | (.ok lengthPrefix, later) => readPayload lengthPrefix later
      | (.error e, later) => (.error e, later) := by
  obtain ⟨b, bytes, hdata⟩ := List.exists_cons_of_ne_nil hne
  have hstream := h.stream_eq
  rw [hdata] at hstream
  exact read_of_stream_cons hstream

theorem read_of_data_nil (hnil : source.data = []) : read source = (.ok none, []) := by
  rw [read, h.next_of_nil hnil]

theorem plain_read : (read source).2.Plain := by
  by_cases hdata : source.data = []
  · rw [read_of_data_nil h hdata]
    intro event hevent
    cases hevent
  · have hplain := plain_readPrefix h maxPrefix
    rw [read_of_data_ne_nil h hdata]
    rcases hread : readPrefix maxPrefix source with ⟨result, later⟩
    rw [hread] at hplain
    cases result with
    | error e => exact hplain
    | ok lengthPrefix => exact plain_readPayload hplain lengthPrefix

theorem readPrefix_of_high {left : Nat} (hhigh : High source.data)
    (hlength : source.data.length < left) :
    readPrefix left source = (.error (.io closedInPrefix), []) := by
  induction left generalizing source with
  | zero => cases hlength
  | succ left ih =>
    cases hdata : source.data with
    | nil => rw [readPrefix, h.next_of_nil hdata]
    | cons b bytes =>
      obtain ⟨later, hnext, hplain, hlater⟩ := h.next_of_cons hdata
      rw [hdata] at hhigh hlength
      obtain ⟨hb, hbytes⟩ := List.forall_mem_cons.mp hhigh
      rw [List.length_cons] at hlength
      have hread := ih hplain (by rwa [hlater]) (by rw [hlater]; omega)
      rw [readPrefix, hnext]
      dsimp only
      rw [if_neg (Nat.not_lt.mpr hb), hread]

/-- A payload that is not there in full is lost. -/
theorem read_of_shortPayload {more rest : Bytes} {last : UInt8} (hmakes : MakesPrefix more last)
    (hdata : source.data = more ++ last :: rest) (hle : value (more ++ [last]) ≤ maxLength)
    (hshort : rest.length < value (more ++ [last])) :
    read source = (.error (.io Source.shortRead), []) := by
  have hstream := h.stream_eq
  have hsize := prefixSize_of_low hmakes.high hmakes.low rest
  have hlt := hmakes.length_lt
  have hsplit : more ++ last :: rest = (more ++ [last]) ++ rest := by simp
  have hlength : (more ++ [last]).length = more.length + 1 := by simp
  have hwhole : more.length + 1 ≤ (more ++ last :: rest).length := by simp
  have hfault := lengthFault?_of_le (Nat.zero_lt_of_lt hshort) hle
  rw [hdata] at hstream
  have hle_maxPrefix : prefixSize (more ++ last :: rest) ≤ maxPrefix := by omega
  have hle_length : prefixSize (more ++ last :: rest) ≤ (more ++ last :: rest).length := by omega
  obtain ⟨later, hread, hlater⟩ := readPrefix_whole hstream hle_maxPrefix hle_length
  have hplain := plain_readPrefix h maxPrefix
  have hlengthOf := lengthOf_prefix hle_maxPrefix hle_length
  rw [hread] at hplain
  rw [hsize, hsplit, ← hlength, List.take_left] at hread hlengthOf
  rw [hsize, hsplit, ← hlength, List.drop_left] at hlater
  rw [hfault] at hlengthOf
  have htake : later.take (value (more ++ [last])) = (.error Source.shortRead, []) :=
    hplain.take_of_lt (by rwa [hplain.data_eq hlater])
  rw [read_of_data_ne_nil h (by simp [hdata]), hread]
  dsimp only
  rw [readPayload, hlengthOf]
  dsimp only
  rw [htake]

/-- A prefix that the stream ends inside is lost. -/
theorem read_of_shortPrefix (hhigh : High source.data) (hne : source.data ≠ [])
    (hlength : source.data.length < maxPrefix) :
    read source = (.error (.io closedInPrefix), []) := by
  rw [read_of_data_ne_nil h hne, readPrefix_of_high h hhigh hlength]

theorem read_of_eq {result : Except FrameError (Option Bytes)} {later : Source} {rest : Bytes}
    (hread : read source = (result, later)) (hlater : later.stream = ⟨rest, none⟩) :
    (read source).1 = result ∧ (read source).2.data = rest := by
  have hplain := plain_read h
  rw [hread] at hplain ⊢
  exact ⟨rfl, hplain.data_eq hlater⟩

theorem read_of_cut_frame {bytes payload rest : Bytes} (hdata : source.data = bytes)
    (hcut : cut bytes = .frame payload rest) :
    (read source).1 = .ok (some payload) ∧ (read source).2.data = rest := by
  have hfinds := finds_cut source
  rw [h.stream_eq, hdata, hcut] at hfinds
  obtain ⟨later, hread, hlater⟩ := hfinds
  exact read_of_eq h hread hlater

theorem read_of_cut_bad {bytes rest : Bytes} {fault : FrameFault} (hdata : source.data = bytes)
    (hcut : cut bytes = .stop (.bad fault) rest) :
    (read source).1 = .error (.invalid fault) ∧ (read source).2.data = rest := by
  have hfinds := finds_cut source
  rw [h.stream_eq, hdata, hcut] at hfinds
  obtain ⟨later, hread, hlater⟩ := hfinds
  exact read_of_eq h hread hlater

/-- Reading does what the rules say. -/
theorem read_of_reading {bytes rest : Bytes} {result : Except FrameError (Option Bytes)}
    (hreading : Reading bytes result rest) (hdata : source.data = bytes) :
    (read source).1 = result ∧ (read source).2.data = rest := by
  cases hreading with
  | nothing =>
    rw [read_of_data_nil h hdata]
    exact ⟨rfl, rfl⟩
  | overflow hmakes hover =>
    have hlarge := (size_le_value_iff hmakes).mpr hover
    apply read_of_cut_bad h hdata
    rw [cut_of_makesPrefix hmakes, cutPayload, lengthFault?, if_pos hlarge]
  | empty hmakes hzero =>
    apply read_of_cut_bad h hdata
    rw [cut_of_makesPrefix hmakes, hzero]
    rfl
  | tooLarge hmakes hfits hvalue hlarge =>
    have hsmall := mt (size_le_value_iff hmakes).mp hfits
    apply read_of_cut_bad h hdata
    rw [hvalue] at hsmall
    rw [cut_of_makesPrefix hmakes, hvalue, cutPayload, lengthFault?, if_neg hsmall, if_pos hlarge]
  | frame hmakes hvalue hpos hle =>
    apply read_of_cut_frame h hdata
    rw [cut_of_makesPrefix hmakes, hvalue, cutPayload, lengthFault?_of_le hpos hle]
    dsimp only
    rw [if_neg (by simp), List.take_left, List.drop_left]
  | shortPayload hmakes hle hshort =>
    rw [read_of_shortPayload h hmakes hdata hle hshort]
    exact ⟨rfl, rfl⟩
  | @longPrefix more rest hhigh hlength =>
    have hsize := length_lt_prefixSize hhigh rest
    have hne : more ++ rest ≠ [] := by
      intro hnil
      have hmore := (List.append_eq_nil_iff.mp hnil).1
      rw [hmore] at hlength
      cases hlength
    rw [hlength] at hsize
    apply read_of_cut_bad h hdata
    rw [cut, if_neg hne, if_pos hsize, ← hlength, List.drop_left]
  | shortPrefix hhigh hne hlength =>
    subst hdata
    rw [read_of_shortPrefix h hhigh hne hlength]
    exact ⟨rfl, rfl⟩

end

/-- Bytes either are all within a prefix, or a prefix ends in them. -/
theorem high_or_exists_low (bytes : Bytes) :
    High bytes ∨ ∃ more last rest, High more ∧ last.toNat < 128 ∧ bytes = more ++ last :: rest := by
  induction bytes with
  | nil =>
    left
    intro b hb
    cases hb
  | cons b bytes ih =>
    by_cases hb : b.toNat < 128
    · exact Or.inr ⟨[], b, bytes, fun _ hc => absurd hc List.not_mem_nil, hb, rfl⟩
    · have hb : 128 ≤ b.toNat := Nat.le_of_not_lt hb
      rcases ih with hhigh | ⟨more, last, rest, hhigh, hlow, rfl⟩
      · exact Or.inl (List.forall_mem_cons.mpr ⟨hb, hhigh⟩)
      · exact Or.inr ⟨b :: more, last, rest, List.forall_mem_cons.mpr ⟨hb, hhigh⟩, hlow, rfl⟩

theorem exists_reading_of_makesPrefix {more : Bytes} {last : UInt8} (hmakes : MakesPrefix more last)
    (rest : Bytes) : ∃ result left, Reading (more ++ last :: rest) result left := by
  by_cases hover : Overflows more last
  · exact ⟨_, _, .overflow hmakes hover⟩
  by_cases hzero : value (more ++ [last]) = 0
  · exact ⟨_, _, .empty hmakes hzero⟩
  by_cases hlarge : maxLength < value (more ++ [last])
  · exact ⟨_, _, .tooLarge hmakes hover rfl hlarge⟩
  have hle := Nat.le_of_not_lt hlarge
  by_cases hshort : rest.length < value (more ++ [last])
  · exact ⟨_, _, .shortPayload hmakes hle hshort⟩
  · have hlength : (rest.take (value (more ++ [last]))).length = value (more ++ [last]) :=
      List.length_take_of_le (Nat.le_of_not_lt hshort)
    have hsplit := List.take_append_drop (value (more ++ [last])) rest
    rw [← hsplit]
    exact ⟨_, _, .frame hmakes hlength.symm (by omega) (by omega)⟩

theorem exists_reading_of_high {more : Bytes} (hhigh : High more) (hlength : maxPrefix ≤ more.length)
    (rest : Bytes) : ∃ result left, Reading (more ++ rest) result left := by
  have htake : (more.take maxPrefix).length = maxPrefix := List.length_take_of_le hlength
  have hfirst : High (more.take maxPrefix) := fun b hb => hhigh b (List.mem_of_mem_take hb)
  have hsplit : more ++ rest = more.take maxPrefix ++ (more.drop maxPrefix ++ rest) := by
    rw [← List.append_assoc, List.take_append_drop]
  rw [hsplit]
  exact ⟨_, _, .longPrefix hfirst htake⟩

theorem exists_reading (bytes : Bytes) : ∃ result rest, Reading bytes result rest := by
  rcases high_or_exists_low bytes with hhigh | ⟨more, last, rest, hhigh, hlow, rfl⟩
  · by_cases hlength : bytes.length < maxPrefix
    · by_cases hnil : bytes = []
      · subst hnil
        exact ⟨_, _, .nothing⟩
      · exact ⟨_, _, .shortPrefix hhigh hnil hlength⟩
    · have hlong := exists_reading_of_high hhigh (Nat.le_of_not_lt hlength) []
      rwa [List.append_nil] at hlong
  · by_cases hlength : more.length < maxPrefix
    · exact exists_reading_of_makesPrefix ⟨hhigh, hlow, hlength⟩ rest
    · exact exists_reading_of_high hhigh (Nat.le_of_not_lt hlength) (last :: rest)

/-- **Reading depends on the bytes to come alone,** and does with them what the rules say. -/
theorem reading_iff {source : Source} (h : source.Plain) :
    (read source).2.Plain ∧
      ∀ result rest, Reading source.data result rest ↔
        (read source).1 = result ∧ (read source).2.data = rest := by
  refine ⟨plain_read h, fun result rest => ⟨fun hreading => read_of_reading h hreading rfl, ?_⟩⟩
  rintro ⟨rfl, rfl⟩
  obtain ⟨result, rest, hreading⟩ := exists_reading source.data
  obtain ⟨rfl, rfl⟩ := read_of_reading h hreading rfl
  exact hreading

/-- A payload of three bytes after a padded prefix, all of it in pieces: one byte is left. -/
theorem reading_iff_of_pieces :
    let interrupted : ReadEvent := .fails (.ofKind .interrupted)
    let source : Source := [.data [0x83], interrupted, .data [0x00, 0x61], .data [], .data [0x62],
      interrupted, interrupted, .data [0x63, 0x64]]
    source.Plain ∧ (read source).1 = .ok (some [0x61, 0x62, 0x63]) ∧
      (read source).2.data = [0x64] := by
  intro interrupted source
  have hplain : source.Plain := by
    simp [Source.Plain, source, interrupted, ReadEvent.Continues, IoError.ofKind]
  have hmakes : MakesPrefix [0x83] 0x00 := ⟨by simp [High], by decide, by decide⟩
  have hreading : Reading ([0x83] ++ 0x00 :: ([0x61, 0x62, 0x63] ++ [0x64]))
      (.ok (some [0x61, 0x62, 0x63])) [0x64] :=
    .frame hmakes rfl (by decide) (by decide)
  exact ⟨hplain, ((reading_iff hplain).2 _ _).mp hreading⟩

end Frame

end StepRunner
