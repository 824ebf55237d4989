import StepRunner.Proofs.Bytes.Base64
import StepRunner.Proofs.Wire.Reading

namespace StepRunner

theorem Utf8.encode_injective {text other : String} (h : encode text = encode other) :
    text = other := by
  have htext := decode?_encode text
  rw [h, decode?_encode] at htext
  exact (Option.some.inj htext).symm

namespace Base64

theorem code_of_value? {b : UInt8} {n : Nat} (h : value? b = some n) : n < 64 ∧ code n = b := by
  have hall : ∀ k < 256, ∀ n ∈ value? (.ofNat k), n < 64 ∧ code n = .ofNat k := by decide +kernel
  have hb := hall b.toNat b.toNat_lt
  rw [UInt8.ofNat_toNat] at hb
  exact hb n h

theorem value?_of_sextet {position : Nat} {b : UInt8} {n : Nat}
    (h : decodeQuads.sextet position b = .ok n) : value? b = some n := by
  rw [decodeQuads.sextet] at h
  cases hvalue : value? b with
  | none =>
    rw [hvalue] at h
    cases h
  | some found =>
    rw [hvalue] at h
    cases h
    rfl

/-- Three bytes are spelled with the symbols that they are the sum of. -/
theorem spell_of_sum {w x y z : Nat} (hw : w < 64) (hx : x < 64) (hy : y < 64) (hz : z < 64)
    {a b c : UInt8} (h : 262144 * w + 4096 * x + 64 * y + z =
      65536 * a.toNat + 256 * b.toNat + c.toNat) (rest : Bytes) :
    spell (a :: b :: c :: rest) = code w :: code x :: code y :: code z :: spell rest := by
  obtain ⟨w', x', y', z', hw', hx', hy', hz', hsum, hspell⟩ := spell_cons a b c rest
  obtain rfl : w' = w := by omega
  obtain rfl : x' = x := by omega
  obtain rfl : y' = y := by omega
  obtain rfl : z' = z := by omega
  exact hspell

/-- The three bytes of a number below 2²⁴. -/
theorem sum_of_bytes {n : Nat} (h : n < 16777216) :
    65536 * (UInt8.ofNat (n / 65536)).toNat + 256 * (UInt8.ofNat (n / 256)).toNat +
      (UInt8.ofNat n).toNat = n := by
  simp only [UInt8.toNat_ofNat']
  omega

theorem spell_of_decodeQuads {text bytes : Bytes} {position : Nat} (hfour : text.length % 4 = 0)
    (h : decodeQuads position text = .ok bytes) : bytes.length % 3 = 0 ∧ spell bytes = text := by
  fun_induction decodeQuads position text generalizing bytes with
  | case1 position a b c d rest ih =>
    have hrest : rest.length % 4 = 0 := by
      simp only [List.length_cons] at hfour
      omega
    obtain ⟨w, hw', hafter⟩ := exists_of_bind_eq_ok h
    obtain ⟨x, hx', hafter⟩ := exists_of_bind_eq_ok hafter
    obtain ⟨y, hy', hafter⟩ := exists_of_bind_eq_ok hafter
    obtain ⟨z, hz', hafter⟩ := exists_of_bind_eq_ok hafter
    obtain ⟨decoded, hdecoded, hbytes⟩ := exists_of_bind_eq_ok hafter
    obtain ⟨hlength, hspell⟩ := ih hrest hdecoded
    obtain ⟨hw, rfl⟩ := code_of_value? (value?_of_sextet hw')
    obtain ⟨hx, rfl⟩ := code_of_value? (value?_of_sextet hx')
    obtain ⟨hy, rfl⟩ := code_of_value? (value?_of_sextet hy')
    obtain ⟨hz, rfl⟩ := code_of_value? (value?_of_sextet hz')
    cases hbytes
    have hsum := sum_of_bytes (n := 262144 * w + 4096 * x + 64 * y + z) (by omega)
    rw [spell_of_sum hw hx hy hz hsum.symm, hspell]
    refine ⟨?_, rfl⟩
    simp only [List.length_cons]
    omega
  | case2 text position hshort =>
    cases h
    match text with
    | [] => exact ⟨rfl, rfl⟩
    | [_] | [_, _] | [_, _, _] => cases hfour
    | a :: b :: c :: d :: rest => exact absurd rfl (hshort a b c d rest)

/-- After a pad there are pads only. -/
theorem eq_pads_of_readLast {start index first pads : Nat} {quad : Bytes}
    {symbols : List (UInt8 × Nat)}
    (h : readLast start index (some first) quad = .ok (symbols, pads)) :
    symbols = [] ∧ quad = List.replicate pads pad := by
  induction quad generalizing index symbols pads with
  | nil =>
    cases h
    exact ⟨rfl, rfl⟩
  | cons b rest ih =>
    rw [readLast] at h
    by_cases hpad : b = pad
    · rw [if_pos hpad] at h
      by_cases hindex : index < 2
      · rw [if_pos hindex] at h
        cases h
      · rw [if_neg hindex] at h
        obtain ⟨⟨found, count⟩, hread, h⟩ := exists_of_bind_eq_ok h
        obtain ⟨hfound, hrest⟩ := ih hread
        cases h
        exact ⟨hfound, by rw [hpad, hrest, List.replicate_succ]⟩
    · rw [if_neg hpad] at h
      cases h

/-- A last quad is the symbols of the values that were read, and then the pads. -/
theorem exists_values_of_readLast {start index pads : Nat} {quad : Bytes}
    {symbols : List (UInt8 × Nat)} (h : readLast start index none quad = .ok (symbols, pads)) :
    ∃ values : List Nat, (∀ n ∈ values, n < 64) ∧ symbols = values.map (fun n => (code n, n)) ∧
      quad = values.map code ++ List.replicate pads pad := by
  induction quad generalizing index symbols pads with
  | nil =>
    cases h
    exact ⟨[], by simp⟩
  | cons b rest ih =>
    rw [readLast] at h
    by_cases hpad : b = pad
    · rw [if_pos hpad] at h
      by_cases hindex : index < 2
      · rw [if_pos hindex] at h
        cases h
      · rw [if_neg hindex] at h
        obtain ⟨⟨found, count⟩, hread, hresult⟩ := exists_of_bind_eq_ok h
        obtain ⟨hfound, hrest⟩ := eq_pads_of_readLast hread
        cases hresult
        exact ⟨[], by simp [hfound, hpad, hrest, List.replicate_succ]⟩
    · rw [if_neg hpad] at h
      cases hvalue : value? b with
      | none =>
        simp only [hvalue] at h
        cases h
      | some n =>
        simp only [hvalue] at h
        obtain ⟨⟨found, count⟩, hread, hresult⟩ := exists_of_bind_eq_ok h
        obtain ⟨values, hvalues, hfound, hrest⟩ := ih hread
        obtain ⟨hn, hb⟩ := code_of_value? hvalue
        cases hresult
        refine ⟨n :: values, ?_, ?_, ?_⟩
        · simpa [hn] using hvalues
        · rw [List.map_cons, hb, hfound]
        · rw [List.map_cons, List.cons_append, hb, hrest]

section

variable {w x y z : Nat} (hw : w < 64) (hx : x < 64)

include hw hx

theorem spell_one (hunused : x % 16 = 0) :
    spell [.ofNat (4 * w + x / 16)] = [code w, code x, pad, pad] := by
  have ha : (UInt8.ofNat (4 * w + x / 16)).toNat = 4 * w + x / 16 := by
    rw [UInt8.toNat_ofNat']
    omega
  have hfirst : (4 * w + x / 16) / 4 = w := by omega
  have hsecond : (4 * w + x / 16) % 4 * 16 = x := by omega
  rw [spell, encode]
  simp only [ha, hfirst, hsecond, List.flatMap_cons, (code_spec hw).1, (code_spec hx).1]
  rfl

theorem spell_two (hy : y < 64) (hunused : y % 4 = 0) :
    spell [.ofNat (4 * w + x / 16), .ofNat (16 * x + y / 4)] = [code w, code x, code y, pad] := by
  obtain ⟨n, hn⟩ : ∃ n, n = 256 * (UInt8.ofNat (4 * w + x / 16)).toNat +
      (UInt8.ofNat (16 * x + y / 4)).toNat := ⟨_, rfl⟩
  have hsum : 4 * n = 4096 * w + 64 * x + y := by
    simp only [hn, UInt8.toNat_ofNat']
    omega
  have hfirst : n / 1024 = w := by omega
  have hsecond : n / 16 % 64 = x := by omega
  have hthird : n % 16 * 4 = y := by omega
  rw [spell, encode]
  simp only [← hn, hfirst, hsecond, hthird, List.flatMap_cons, (code_spec hw).1, (code_spec hx).1,
    (code_spec hy).1]
  rfl

theorem spell_three (hy : y < 64) (hz : z < 64) :
    spell [.ofNat (4 * w + x / 16), .ofNat (16 * x + y / 4), .ofNat (64 * y + z)] =
      [code w, code x, code y, code z] := by
  apply spell_of_sum hw hx hy hz
  simp only [UInt8.toNat_ofNat']
  omega

end

theorem spell_of_decodeLast {start : Nat} {quad bytes : Bytes} (hle : quad.length ≤ 4)
    (h : decodeLast start quad = .ok bytes) : spell bytes = quad := by
  obtain ⟨⟨symbols, pads⟩, hread, hafter⟩ := exists_of_bind_eq_ok h
  obtain ⟨values, hvalues, rfl, hquad⟩ := exists_values_of_readLast hread
  clear h hread
  subst hquad
  simp only [List.length_append, List.length_map, List.length_replicate] at hle
  simp only [List.length_map] at hafter
  by_cases hfew : values.length < 2
  · rw [if_pos hfew] at hafter
    cases hafter
  by_cases huneven : (values.length + pads) % 4 ≠ 0
  · rw [if_neg hfew, if_pos huneven] at hafter
    cases hafter
  rw [if_neg hfew, if_neg huneven] at hafter
  match values with
  | [] | [_] => simp at hfew
  | [w, x] =>
    have hw : w < 64 := hvalues w (by simp)
    have hx : x < 64 := hvalues x (by simp)
    obtain rfl : pads = 2 := by
      simp only [List.length_cons, List.length_nil] at hle huneven
      omega
    simp only [List.map_cons, List.map_nil] at hafter
    by_cases hunused : x % 16 = 0
    · rw [if_pos hunused] at hafter
      cases hafter
      exact spell_one hw hx hunused
    · rw [if_neg hunused] at hafter
      cases hafter
  | [w, x, y] =>
    have hw : w < 64 := hvalues w (by simp)
    have hx : x < 64 := hvalues x (by simp)
    have hy : y < 64 := hvalues y (by simp)
    obtain rfl : pads = 1 := by
      simp only [List.length_cons, List.length_nil] at hle huneven
      omega
    simp only [List.map_cons, List.map_nil] at hafter
    by_cases hunused : y % 4 = 0
    · rw [if_pos hunused] at hafter
      cases hafter
      exact spell_two hw hx hy hunused
    · rw [if_neg hunused] at hafter
      cases hafter
  | [w, x, y, z] =>
    have hw : w < 64 := hvalues w (by simp)
    have hx : x < 64 := hvalues x (by simp)
    have hy : y < 64 := hvalues y (by simp)
    have hz : z < 64 := hvalues z (by simp)
    obtain rfl : pads = 0 := by
      simp only [List.length_cons, List.length_nil] at hle huneven
      omega
    cases hafter
    exact spell_three hw hx hy hz
  | _ :: _ :: _ :: _ :: _ :: _ =>
    simp only [List.length_cons] at hle
    omega

/-- **What is read was spelled.** -/
theorem spell_of_decode {text bytes : Bytes} (h : decode text = .ok bytes) :
    spell bytes = text := by
  rw [decode] at h
  by_cases hempty : text.isEmpty
  · rw [if_pos hempty] at h
    cases h
    exact (List.isEmpty_iff.mp hempty).symm
  rw [if_neg hempty] at h
  have hpos : 0 < text.length := by
    apply List.length_pos_iff.mpr
    rintro rfl
    exact hempty rfl
  obtain ⟨start, hstart⟩ : ∃ start, start = (text.length - 1) / 4 * 4 := ⟨_, rfl⟩
  have hfour : (text.take start).length % 4 = 0 := by
    rw [List.length_take]
    omega
  have hle : (text.drop start).length ≤ 4 := by
    rw [List.length_drop]
    omega
  dsimp only at h
  split at h
  · cases h
  · rw [← hstart] at h
    obtain ⟨whole, hwhole, h⟩ := exists_of_bind_eq_ok h
    obtain ⟨last, hlast, h⟩ := exists_of_bind_eq_ok h
    obtain ⟨hthree, hfirst⟩ := spell_of_decodeQuads hfour hwhole
    have hsecond := spell_of_decodeLast hle hlast
    cases h
    rw [spell_append hthree, hfirst, hsecond, List.take_append_drop]

theorem decode_eq_ok_iff {text : String} {bytes : Bytes} :
    decode (Utf8.encode text) = .ok bytes ↔ text = String.ofList (encode bytes) := by
  constructor
  · intro h
    apply Utf8.encode_injective
    rw [Utf8.encode_ofList]
    exact (spell_of_decode h).symm
  · rintro rfl
    exact decode_encode_text bytes

/-- What is wrong with a text that is no spelling. -/
inductive Misspelled : List Char → Prop
  /-- Its last quad is not filled up. -/
  | length {text : List Char} (h : text.length % 4 ≠ 0) : Misspelled text
  | foreign {text : List Char} {c : Char} (hmem : c ∈ text) (hsymbol : c ∉ alphabet)
      (hpad : c ≠ '=') : Misspelled text
  /-- A pad comes before something else than a last pad. -/
  | strayPad (before : List Char) {after : List Char} (hend : after ≠ []) (hpad : after ≠ ['=']) :
      Misspelled (before ++ '=' :: after)
  | twoBitsLeft (before : List Char) {n : Nat} (hn : n < 64) (hbits : n % 4 ≠ 0) :
      Misspelled (before ++ [symbol n, '='])
  | fourBitsLeft (before : List Char) {n : Nat} (hn : n < 64) (hbits : n % 16 ≠ 0) :
      Misspelled (before ++ [symbol n, '=', '='])

theorem symbol_injective {m n : Nat} (hm : m < 64) (hn : n < 64) (h : symbol m = symbol n) :
    m = n := by
  have hvalue := (code_spec hm).2.1
  rw [code, h, ← code, (code_spec hn).2.1] at hvalue
  exact (Option.some.inj hvalue).symm

theorem symbol_ne_pad {n : Nat} (h : n < 64) : symbol n ≠ '=' := by
  intro heq
  apply (code_spec h).2.2
  rw [code, heq]
  rfl

theorem mem_alphabet_iff {c : Char} : c ∈ alphabet ↔ ∃ n < 64, symbol n = c := by
  have hlength : alphabet.length = 64 := by decide
  have hsymbol {n : Nat} (hn : n < alphabet.length) : symbol n = alphabet[n] := by
    simp [symbol, hn]
  rw [List.mem_iff_getElem]
  constructor
  · rintro ⟨n, hn, rfl⟩
    exact ⟨n, hlength ▸ hn, hsymbol hn⟩
  · rintro ⟨n, hn, rfl⟩
    exact ⟨n, hlength.symm ▸ hn, (hsymbol (hlength.symm ▸ hn)).symm⟩

/-- How a spelling ends, after quads of symbols. -/
inductive Ending : List Char → Prop
  | none : Ending []
  | one {m n : Nat} (hm : m < 64) (hn : n < 64) (hbits : n % 16 = 0) :
      Ending [symbol m, symbol n, '=', '=']
  | two {l m n : Nat} (hl : l < 64) (hm : m < 64) (hn : n < 64) (hbits : n % 4 = 0) :
      Ending [symbol l, symbol m, symbol n, '=']

theorem exists_ending (bytes : Bytes) : ∃ quads last, encode bytes = quads ++ last ∧
    quads.length % 4 = 0 ∧ (∀ c ∈ quads, c ∈ alphabet) ∧ Ending last := by
  induction bytes using encode.induct with
  | case1 => exact ⟨[], [], rfl, rfl, by simp, .none⟩
  | case2 a =>
    have ha := a.toNat_lt
    exact ⟨[], _, rfl, rfl, by simp, .one (by omega) (by omega) (by omega)⟩
  | case3 a b =>
    have ha := a.toNat_lt
    have hb := b.toNat_lt
    exact ⟨[], _, rfl, rfl, by simp, .two (by omega) (by omega) (by omega) (by omega)⟩
  | case4 a b c rest ih =>
    have ha := a.toNat_lt
    have hb := b.toNat_lt
    have hc := c.toNat_lt
    obtain ⟨quads, last, hencode, hfour, hsymbols, hlast⟩ := ih
    obtain ⟨n, hn⟩ : ∃ n, n = 65536 * a.toNat + 256 * b.toNat + c.toNat := ⟨_, rfl⟩
    refine ⟨symbol (n / 262144) :: symbol (n / 4096 % 64) :: symbol (n / 64 % 64) ::
      symbol (n % 64) :: quads, last, ?_, ?_, ?_, hlast⟩
    · rw [encode, hencode, ← hn]
      rfl
    · simp only [List.length_cons]
      omega
    · simp only [List.forall_mem_cons]
      refine ⟨?_, ?_, ?_, ?_, hsymbols⟩
      all_goals exact mem_alphabet_iff.mpr ⟨_, by omega, rfl⟩

section

variable {quads last before after : List Char} (hlast : Ending last)

include hlast

theorem mem_of_ending {c : Char} (h : c ∈ last) : c ∈ alphabet ∨ c = '=' := by
  have hsymbol {n : Nat} (hn : n < 64) : symbol n ∈ alphabet := mem_alphabet_iff.mpr ⟨n, hn, rfl⟩
  cases hlast with
  | none => cases h
  | one hm hn =>
    simp only [List.mem_cons, List.not_mem_nil, or_false] at h
    rcases h with rfl | rfl | rfl | rfl
    · exact .inl (hsymbol hm)
    · exact .inl (hsymbol hn)
    · exact .inr rfl
    · exact .inr rfl
  | two hl hm hn =>
    simp only [List.mem_cons, List.not_mem_nil, or_false] at h
    rcases h with rfl | rfl | rfl | rfl
    · exact .inl (hsymbol hl)
    · exact .inl (hsymbol hm)
    · exact .inl (hsymbol hn)
    · exact .inr rfl

variable (hquads : ∀ c ∈ quads, c ∈ alphabet)

include hquads

omit hlast in
/-- All pads are in the last quad. -/
theorem exists_of_pad (h : quads ++ last = before ++ '=' :: after) :
    ∃ more, last = more ++ '=' :: after := by
  rcases List.append_eq_append_iff.mp h with ⟨more, -, hmore⟩ | ⟨more, rfl, hmore⟩
  · exact ⟨more, hmore⟩
  · cases more with
    | nil => exact ⟨[], hmore.symm⟩
    | cons c more =>
      obtain ⟨rfl, -⟩ := List.cons.inj hmore
      obtain ⟨n, hn, hsymbol⟩ := mem_alphabet_iff.mp (hquads '=' (by simp))
      exact absurd hsymbol (symbol_ne_pad hn)

/-- A pad is at the end, or before a last one. -/
theorem after_pad (h : quads ++ last = before ++ '=' :: after) : after = [] ∨ after = ['='] := by
  obtain ⟨more, hmore⟩ := exists_of_pad hquads h
  cases hlast with
  | none => simp at hmore
  | one hm hn =>
    have hfirst := symbol_ne_pad hm
    have hsecond := symbol_ne_pad hn
    rcases more with _ | ⟨_, _ | ⟨_, _ | ⟨_, _ | _⟩⟩⟩ <;> simp_all
  | two hl hm hn =>
    have hfirst := symbol_ne_pad hl
    have hsecond := symbol_ne_pad hm
    have hthird := symbol_ne_pad hn
    rcases more with _ | ⟨_, _ | ⟨_, _ | ⟨_, _ | _⟩⟩⟩ <;> simp_all

/-- Before the only pad no bits are left over. -/
theorem bits_before_pad {n : Nat} (hn : n < 64) (h : quads ++ last = before ++ [symbol n, '=']) :
    n % 4 = 0 := by
  cases hlast with
  | none =>
    have hpad : quads ++ [] = (before ++ [symbol n]) ++ '=' :: [] := by simpa using h
    obtain ⟨more, hmore⟩ := exists_of_pad hquads hpad
    simp at hmore
  | @one i j hi hj =>
    have htext : (quads ++ [symbol i, symbol j]) ++ ['=', '='] = before ++ [symbol n, '='] := by
      simpa using h
    obtain ⟨hpad, -⟩ := List.cons.inj (List.append_inj_right' htext rfl)
    exact absurd hpad.symm (symbol_ne_pad hn)
  | @two i j k hi hj hk hbits =>
    have htext : (quads ++ [symbol i, symbol j]) ++ [symbol k, '='] = before ++ [symbol n, '='] := by
      simpa using h
    obtain ⟨hsymbol, -⟩ := List.cons.inj (List.append_inj_right' htext rfl)
    obtain rfl := symbol_injective hk hn hsymbol
    exact hbits

/-- Before two pads no bits are left over. -/
theorem bits_before_pads {n : Nat} (hn : n < 64)
    (h : quads ++ last = before ++ [symbol n, '=', '=']) : n % 16 = 0 := by
  cases hlast with
  | none =>
    have hpad : quads ++ [] = (before ++ [symbol n]) ++ '=' :: ['='] := by simpa using h
    obtain ⟨more, hmore⟩ := exists_of_pad hquads hpad
    simp at hmore
  | @one i j hi hj hbits =>
    have htext : (quads ++ [symbol i]) ++ [symbol j, '=', '='] = before ++ [symbol n, '=', '='] := by
      simpa using h
    obtain ⟨hsymbol, -⟩ := List.cons.inj (List.append_inj_right' htext rfl)
    obtain rfl := symbol_injective hj hn hsymbol
    exact hbits
  | @two i j k hi hj hk =>
    have htext : (quads ++ [symbol i]) ++ [symbol j, symbol k, '='] =
        before ++ [symbol n, '=', '='] := by
      simpa using h
    obtain ⟨-, hrest⟩ := List.cons.inj (List.append_inj_right' htext rfl)
    obtain ⟨hpad, -⟩ := List.cons.inj hrest
    exact absurd hpad (symbol_ne_pad hk)

end

theorem not_misspelled_encode (bytes : Bytes) : ¬ Misspelled (encode bytes) := by
  obtain ⟨quads, last, hencode, hfour, hquads, hlast⟩ := exists_ending bytes
  rw [hencode]
  intro h
  generalize htext : quads ++ last = text at h
  cases h with
  | length hlength =>
    apply hlength
    rw [← htext, List.length_append]
    cases hlast <;> simp only [List.length_cons, List.length_nil] <;> omega
  | foreign hmem hsymbol hpad =>
    rw [← htext, List.mem_append] at hmem
    rcases hmem with hmem | hmem
    · exact hsymbol (hquads _ hmem)
    · rcases mem_of_ending hlast hmem with hfound | hfound
      · exact hsymbol hfound
      · exact hpad hfound
  | strayPad before hend hpad =>
    rcases after_pad hlast hquads htext with rfl | rfl
    · exact hend rfl
    · exact hpad rfl
  | twoBitsLeft before hn hbits => exact hbits (bits_before_pad hlast hquads hn htext)
  | fourBitsLeft before hn hbits => exact hbits (bits_before_pads hlast hquads hn htext)

theorem Misspelled.append (front : List Char) {rest : List Char} (hfour : front.length % 4 = 0)
    (h : Misspelled rest) : Misspelled (front ++ rest) := by
  cases h with
  | length hlength =>
    apply Misspelled.length
    rw [List.length_append]
    omega
  | foreign hmem hsymbol hpad =>
    exact .foreign (List.mem_append_right front hmem) hsymbol hpad
  | strayPad before hend hpad =>
    rw [← List.append_assoc]
    exact .strayPad _ hend hpad
  | twoBitsLeft before hn hbits =>
    rw [← List.append_assoc]
    exact .twoBitsLeft _ hn hbits
  | fourBitsLeft before hn hbits =>
    rw [← List.append_assoc]
    exact .fourBitsLeft _ hn hbits

theorem exists_symbol_of_not_misspelled {text : List Char} (h : ¬ Misspelled text) {c : Char}
    (hmem : c ∈ text) (hpad : c ≠ '=') : ∃ n < 64, symbol n = c := by
  apply mem_alphabet_iff.mp
  refine Classical.byContradiction fun hforeign => ?_
  exact h (.foreign hmem hforeign hpad)

/-- A character that more than a last pad comes after is a symbol. -/
theorem exists_symbol_of_after (before : List Char) {after : List Char} {c : Char}
    (h : ¬ Misspelled (before ++ c :: after)) (hend : after ≠ []) (hpad : after ≠ ['=']) :
    ∃ n < 64, symbol n = c := by
  apply exists_symbol_of_not_misspelled h (by simp)
  rintro rfl
  exact h (.strayPad before hend hpad)

theorem exists_spell_of_quad {a b c d : Char} (h : ¬ Misspelled [a, b, c, d]) :
    ∃ bytes, spell bytes = [a, b, c, d].flatMap String.utf8EncodeChar := by
  obtain ⟨w, hw, rfl⟩ := exists_symbol_of_after [] h (by simp) (by simp)
  obtain ⟨x, hx, rfl⟩ :=
    exists_symbol_of_after [symbol w] h (by simp) (by simp)
  by_cases hc : c = '='
  · subst hc
    have hd : d = '=' := by
      refine Classical.byContradiction fun hd => ?_
      exact h (.strayPad [symbol w, symbol x] (by simp) (by simpa using hd))
    subst hd
    have hunused : x % 16 = 0 := by
      refine Classical.byContradiction fun hunused => ?_
      exact h (.fourBitsLeft [symbol w] hx hunused)
    refine ⟨_, (spell_one hw hx hunused).trans ?_⟩
    simp only [List.flatMap_cons, (code_spec hw).1, (code_spec hx).1]
    rfl
  obtain ⟨y, hy, rfl⟩ := exists_symbol_of_not_misspelled h (c := c) (by simp) hc
  by_cases hd : d = '='
  · subst hd
    have hunused : y % 4 = 0 := by
      refine Classical.byContradiction fun hunused => ?_
      exact h (.twoBitsLeft [symbol w, symbol x] hy hunused)
    refine ⟨_, (spell_two hw hx hy hunused).trans ?_⟩
    simp only [List.flatMap_cons, (code_spec hw).1, (code_spec hx).1, (code_spec hy).1]
    rfl
  obtain ⟨z, hz, rfl⟩ := exists_symbol_of_not_misspelled h (c := d) (by simp) hd
  refine ⟨_, (spell_three hw hx hy hz).trans ?_⟩
  simp only [List.flatMap_cons, (code_spec hw).1, (code_spec hx).1, (code_spec hy).1,
    (code_spec hz).1]
  rfl

/-- A text with nothing wrong with it is a spelling. -/
theorem exists_spell_of_not_misspelled {text : List Char} (h : ¬ Misspelled text) :
    ∃ bytes, spell bytes = text.flatMap String.utf8EncodeChar := by
  induction hn : text.length using Nat.strongRecOn generalizing text with
  | ind n ih =>
    have hfour : text.length % 4 = 0 := Classical.byContradiction fun hfour => h (.length hfour)
    match text with
    | [] => exact ⟨[], rfl⟩
    | [_] | [_, _] | [_, _, _] => cases hfour
    | [a, b, c, d] => exact exists_spell_of_quad h
    | a :: b :: c :: d :: e :: rest =>
      have hrest : ¬ Misspelled (e :: rest) := fun hrest =>
        h (Misspelled.append [a, b, c, d] (by simp) hrest)
      have hpad : e :: rest ≠ ['='] := by
        intro hpad
        simp [hpad] at hfour
      -- More than a last pad comes after each of the four.
      obtain ⟨w, hw, rfl⟩ := exists_symbol_of_after [] h (by simp) (by simp)
      obtain ⟨x, hx, rfl⟩ :=
        exists_symbol_of_after [symbol w] h (by simp) (by simp)
      obtain ⟨y, hy, rfl⟩ :=
        exists_symbol_of_after [symbol w, symbol x] h (by simp) (by simp)
      obtain ⟨z, hz, rfl⟩ :=
        exists_symbol_of_after [symbol w, symbol x, symbol y] h (by simp) hpad
      have hlt : (e :: rest).length < n := by
        rw [← hn]
        simp only [List.length_cons]
        omega
      obtain ⟨bytes, hbytes⟩ := ih (e :: rest).length hlt hrest rfl
      have hsum := sum_of_bytes (n := 262144 * w + 4096 * x + 64 * y + z) (by omega)
      refine ⟨_, (spell_of_sum hw hx hy hz hsum.symm bytes).trans ?_⟩
      rw [hbytes]
      simp only [List.flatMap_cons, (code_spec hw).1, (code_spec hx).1, (code_spec hy).1,
        (code_spec hz).1, List.singleton_append]

/-- **Exactly what is misspelled is not read.** -/
theorem misspelled_iff_decode {text : String} :
    Misspelled text.toList ↔ ∀ bytes, decode (Utf8.encode text) ≠ .ok bytes := by
  constructor
  · intro h bytes hread
    obtain rfl := decode_eq_ok_iff.mp hread
    rw [String.toList_ofList] at h
    exact not_misspelled_encode bytes h
  · intro h
    refine Classical.byContradiction fun hright => ?_
    obtain ⟨bytes, hspell⟩ := exists_spell_of_not_misspelled hright
    apply h bytes
    apply decode_eq_ok_iff.mpr
    apply Utf8.encode_injective
    rw [Utf8.encode_ofList, ← String.ofList_toList (s := text), Utf8.encode_ofList]
    exact hspell.symm

end Base64

end StepRunner
