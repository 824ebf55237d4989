import StepRunner.Bytes.Base64
import StepRunner.Text.Utf8

namespace StepRunner

theorem Utf8.encode_ofList (text : List Char) :
    encode (String.ofList text) = text.flatMap String.utf8EncodeChar := by
  simp [encode, List.utf8Encode, List.data_toByteArray]

namespace Base64

/-- The byte that six bits are spelled with. -/
def code (n : Nat) : UInt8 := (symbol n).val.toUInt8

theorem code_spec {n : Nat} (h : n < 64) : String.utf8EncodeChar (symbol n) = [code n] ∧
    value? (code n) = some n ∧ code n ≠ pad := by
  have hall : ∀ n < 64, String.utf8EncodeChar (symbol n) = [code n] ∧
      value? (code n) = some n ∧ code n ≠ pad := by decide +kernel
  exact hall n h

theorem sextet_code {n : Nat} (h : n < 64) (position : Nat) :
    decodeQuads.sextet position (code n) = .ok n := by
  rw [decodeQuads.sextet, (code_spec h).2.1]

/-- The bytes of the text. -/
def spell (bytes : Bytes) : Bytes := (encode bytes).flatMap String.utf8EncodeChar

theorem eq_ofNat {b : UInt8} {n : Nat} (h : n % 256 = b.toNat) : UInt8.ofNat n = b := by
  rw [← UInt8.toNat_inj, UInt8.toNat_ofNat']
  exact h

/-- Three bytes are read from four symbols. -/
theorem decodeQuads_quad {w x y z : Nat} (hw : w < 64) (hx : x < 64) (hy : y < 64) (hz : z < 64)
    {a b c : UInt8} (h : 262144 * w + 4096 * x + 64 * y + z =
      65536 * a.toNat + 256 * b.toNat + c.toNat) {rest decoded : Bytes} {position : Nat}
    (hrest : decodeQuads (position + 4) rest = .ok decoded) :
    decodeQuads position (code w :: code x :: code y :: code z :: rest) =
      .ok (a :: b :: c :: decoded) := by
  have ha := a.toNat_lt
  have hb := b.toNat_lt
  have hc := c.toNat_lt
  have hfirst : UInt8.ofNat ((65536 * a.toNat + 256 * b.toNat + c.toNat) / 65536) = a :=
    eq_ofNat (by omega)
  have hsecond : UInt8.ofNat ((65536 * a.toNat + 256 * b.toNat + c.toNat) / 256) = b :=
    eq_ofNat (by omega)
  have hthird : UInt8.ofNat (65536 * a.toNat + 256 * b.toNat + c.toNat) = c :=
    eq_ofNat (by omega)
  rw [decodeQuads, sextet_code hw, sextet_code hx, sextet_code hy, sextet_code hz]
  simp only [bind, Except.bind, hrest, h, hfirst, hsecond, hthird]

/-- Symbols before the first pad are kept with their values. -/
theorem readLast_code {n index start : Nat} (h : n < 64) {rest : Bytes}
    {symbols : List (UInt8 × Nat)} {pads : Nat}
    (hrest : readLast start (index + 1) none rest = .ok (symbols, pads)) :
    readLast start index none (code n :: rest) = .ok ((code n, n) :: symbols, pads) := by
  obtain ⟨-, hvalue, hpad⟩ := code_spec h
  rw [readLast, if_neg hpad]
  simp only [bind, Except.bind, hvalue, hrest]

section

variable {w x y z : Nat} (hw : w < 64) (hx : x < 64) {a b c : UInt8} (start : Nat)

include hw hx

theorem decodeLast_one (h : 16 * a.toNat = 64 * w + x) :
    decodeLast start [code w, code x, pad, pad] = .ok [a] := by
  have hlast : readLast start 0 none [code w, code x, pad, pad] =
      .ok ([(code w, w), (code x, x)], 2) :=
    readLast_code hw (readLast_code hx rfl)
  have ha : UInt8.ofNat (4 * w + x / 16) = a := eq_ofNat (by have := a.toNat_lt; omega)
  have hunused : x % 16 = 0 := by omega
  rw [decodeLast, hlast]
  simp only [bind, Except.bind, List.length_cons, List.length_nil, hunused, ha]
  rfl

theorem decodeLast_two (hy : y < 64)
    (h : 4 * (256 * a.toNat + b.toNat) = 4096 * w + 64 * x + y) :
    decodeLast start [code w, code x, code y, pad] = .ok [a, b] := by
  have hlast : readLast start 0 none [code w, code x, code y, pad] =
      .ok ([(code w, w), (code x, x), (code y, y)], 1) :=
    readLast_code hw (readLast_code hx (readLast_code hy rfl))
  have hb := b.toNat_lt
  have hfirst : UInt8.ofNat (4 * w + x / 16) = a := eq_ofNat (by have := a.toNat_lt; omega)
  have hsecond : UInt8.ofNat (16 * x + y / 4) = b := eq_ofNat (by omega)
  have hunused : y % 4 = 0 := by omega
  rw [decodeLast, hlast]
  simp only [bind, Except.bind, List.length_cons, List.length_nil, hunused, hfirst, hsecond]
  rfl

theorem decodeLast_three (hy : y < 64) (hz : z < 64)
    (h : 65536 * a.toNat + 256 * b.toNat + c.toNat = 262144 * w + 4096 * x + 64 * y + z) :
    decodeLast start [code w, code x, code y, code z] = .ok [a, b, c] := by
  have hlast : readLast start 0 none [code w, code x, code y, code z] =
      .ok ([(code w, w), (code x, x), (code y, y), (code z, z)], 0) :=
    readLast_code hw (readLast_code hx (readLast_code hy (readLast_code hz rfl)))
  have hb := b.toNat_lt
  have hc := c.toNat_lt
  have hfirst : UInt8.ofNat (4 * w + x / 16) = a := eq_ofNat (by have := a.toNat_lt; omega)
  have hsecond : UInt8.ofNat (16 * x + y / 4) = b := eq_ofNat (by omega)
  have hthird : UInt8.ofNat (64 * y + z) = c := eq_ofNat (by omega)
  rw [decodeLast, hlast]
  simp only [bind, Except.bind, List.length_cons, List.length_nil, hfirst, hsecond, hthird]
  rfl

end

theorem spell_cons (a b c : UInt8) (rest : Bytes) :
    ∃ w x y z, w < 64 ∧ x < 64 ∧ y < 64 ∧ z < 64 ∧
      262144 * w + 4096 * x + 64 * y + z = 65536 * a.toNat + 256 * b.toNat + c.toNat ∧
      spell (a :: b :: c :: rest) = code w :: code x :: code y :: code z :: spell rest := by
  have ha := a.toNat_lt
  have hb := b.toNat_lt
  have hc := c.toNat_lt
  obtain ⟨n, hn⟩ : ∃ n, n = 65536 * a.toNat + 256 * b.toNat + c.toNat := ⟨_, rfl⟩
  have hw : n / 262144 < 64 := by omega
  have hx : n / 4096 % 64 < 64 := Nat.mod_lt _ (by decide)
  have hy : n / 64 % 64 < 64 := Nat.mod_lt _ (by decide)
  have hz : n % 64 < 64 := Nat.mod_lt _ (by decide)
  refine ⟨_, _, _, _, hw, hx, hy, hz, by omega, ?_⟩
  rw [spell, encode]
  simp only [← hn, List.flatMap_cons, (code_spec hw).1, (code_spec hx).1, (code_spec hy).1,
    (code_spec hz).1, List.singleton_append]
  rfl

/-- Bytes by threes are spelled on their own. -/
theorem spell_append {whole : Bytes} (h : whole.length % 3 = 0) (last : Bytes) :
    spell (whole ++ last) = spell whole ++ spell last := by
  have hencode : encode (whole ++ last) = encode whole ++ encode last := by
    induction whole using encode.induct with
    | case1 => rfl
    | case2 a => cases h
    | case3 a b => cases h
    | case4 a b c rest ih =>
      have hrest : rest.length % 3 = 0 := by
        simp only [List.length_cons] at h
        omega
      simp only [List.cons_append, encode, ih hrest]
  rw [spell, hencode, List.flatMap_append]
  rfl

/-- Bytes by threes are spelled as quads. -/
theorem decodeQuads_spell {whole : Bytes} (h : whole.length % 3 = 0) (position : Nat) :
    (spell whole).length % 4 = 0 ∧ decodeQuads position (spell whole) = .ok whole := by
  induction whole using encode.induct generalizing position with
  | case1 => exact ⟨rfl, rfl⟩
  | case2 a => cases h
  | case3 a b => cases h
  | case4 a b c rest ih =>
    have hlength : rest.length % 3 = 0 := by
      simp only [List.length_cons] at h
      omega
    obtain ⟨hfour, hrest⟩ := ih hlength (position + 4)
    obtain ⟨w, x, y, z, hw, hx, hy, hz, hsum, hspell⟩ := spell_cons a b c rest
    rw [hspell]
    refine ⟨?_, decodeQuads_quad hw hx hy hz hsum hrest⟩
    simp only [List.length_cons]
    omega

/-- One, two or three bytes are a quad of their own. -/
theorem decodeLast_spell {last : Bytes} (hne : last ≠ []) (hle : last.length ≤ 3) (start : Nat) :
    (spell last).length = 4 ∧ decodeLast start (spell last) = .ok last := by
  match last with
  | [a] =>
    have ha := a.toNat_lt
    have hw : a.toNat / 4 < 64 := by omega
    have hx : a.toNat % 4 * 16 < 64 := by omega
    have hspell : spell [a] = [code (a.toNat / 4), code (a.toNat % 4 * 16), pad, pad] := by
      simp only [spell, encode, List.flatMap_cons, (code_spec hw).1, (code_spec hx).1]
      rfl
    rw [hspell]
    exact ⟨rfl, decodeLast_one hw hx start (by omega)⟩
  | [a, b] =>
    have ha := a.toNat_lt
    have hb := b.toNat_lt
    obtain ⟨n, hn⟩ : ∃ n, n = 256 * a.toNat + b.toNat := ⟨_, rfl⟩
    have hw : n / 1024 < 64 := by omega
    have hx : n / 16 % 64 < 64 := Nat.mod_lt _ (by decide)
    have hy : n % 16 * 4 < 64 := by omega
    have hspell : spell [a, b] =
        [code (n / 1024), code (n / 16 % 64), code (n % 16 * 4), pad] := by
      simp only [spell, encode, ← hn, List.flatMap_cons, (code_spec hw).1, (code_spec hx).1,
        (code_spec hy).1]
      rfl
    rw [hspell]
    exact ⟨rfl, decodeLast_two hw hx start hy (by omega)⟩
  | [a, b, c] =>
    obtain ⟨w, x, y, z, hw, hx, hy, hz, hsum, hspell⟩ := spell_cons a b c []
    rw [hspell]
    exact ⟨rfl, decodeLast_three hw hx start hy hz hsum.symm⟩

/-- The last quad is read apart from those before it. -/
theorem decode_append {quads last whole rest : Bytes} (hfour : quads.length % 4 = 0)
    (hquads : decodeQuads 0 quads = .ok whole) (hlength : last.length = 4)
    (hlast : decodeLast quads.length last = .ok rest) :
    decode (quads ++ last) = .ok (whole ++ rest) := by
  have htotal : (quads ++ last).length = quads.length + 4 := by rw [List.length_append, hlength]
  have hfull : (quads ++ last).isEmpty = false := by
    rw [List.isEmpty_eq_false_iff]
    exact List.ne_nil_of_length_pos (by omega)
  have hstray : ¬ (quads ++ last).length % 4 = 1 := by omega
  have hstart : ((quads ++ last).length - 1) / 4 * 4 = quads.length := by omega
  rw [decode, hfull, if_neg hstray, hstart]
  simp only [List.take_left, List.drop_left, bind, Except.bind, hquads, hlast]
  rfl

/-- **What was spelled is read back.** -/
theorem decode_encode_text (bytes : Bytes) :
    decode (Utf8.encode (String.ofList (encode bytes))) = .ok bytes := by
  rw [Utf8.encode_ofList]
  change decode (spell bytes) = .ok bytes
  by_cases hne : bytes = []
  · rw [hne]
    rfl
  have hpos : 0 < bytes.length := List.length_pos_iff.mpr hne
  obtain ⟨k, hk⟩ : ∃ k, k = (bytes.length - 1) / 3 * 3 := ⟨_, rfl⟩
  have hwhole : (bytes.take k).length % 3 = 0 := by
    rw [List.length_take]
    omega
  have hlength : (bytes.drop k).length = bytes.length - k := List.length_drop
  have hlast : bytes.drop k ≠ [] := List.ne_nil_of_length_pos (by omega)
  obtain ⟨hfour, hquads⟩ := decodeQuads_spell hwhole 0
  obtain ⟨hquad, hread⟩ := decodeLast_spell hlast (by omega) (spell (bytes.take k)).length
  have hdecode := decode_append hfour hquads hquad hread
  rwa [← spell_append hwhole, List.take_append_drop] at hdecode

end Base64

end StepRunner
