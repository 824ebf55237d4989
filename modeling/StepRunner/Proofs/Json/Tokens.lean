import StepRunner.Json.Parser
import StepRunner.Json.Printer

namespace StepRunner.Json

section

variable (rest : List Char)

/-- A character is at least a byte. -/
theorem length_le_utf8ByteSize (text : List Char) :
    text.length ≤ (String.ofList text).utf8ByteSize := by
  rw [← String.size_toByteArray, String.toByteArray_ofList]
  induction text with
  | nil => exact Nat.zero_le _
  | cons c text ih =>
    have hpos := c.utf8Size_pos
    rw [List.utf8Encode_cons, ByteArray.size_append, List.utf8Encode_singleton,
      List.size_toByteArray, String.length_utf8EncodeChar, List.length_cons]
    omega

theorem hexValue?_hexDigit (n : Nat) : hexValue? (hexDigit n) = some (n % 16) := by
  have hall : ∀ n < 16, hexValue? (Nat.digitChar n) = some n := by decide
  exact hall (n % 16) (Nat.mod_lt n (by decide))

theorem readHex_hexDigit {code : Nat} (h : code < 256) :
    readHex ('0' :: '0' :: hexDigit (code / 16) :: hexDigit code :: rest) = .ok (code, rest) := by
  have hsize : ¬ (String.ofList ['0', '0', hexDigit (code / 16), hexDigit code]).utf8ByteSize < 4 :=
    Nat.not_lt.mpr (length_le_utf8ByteSize ['0', '0', hexDigit (code / 16), hexDigit code])
  have hzero : hexValue? '0' = some 0 := rfl
  have hcode : 16 * (16 * (16 * 0 + 0) + code / 16 % 16) + code % 16 = code := by omega
  rw [readHex]
  simp only [List.take_succ_cons, List.take_zero, if_neg hsize, hzero, hexValue?_hexDigit, hcode]

/-- A character is printed as it is, or as an escape that stands for it. -/
theorem escape_cases (c : Char) :
    (escape c = [c] ∧ c ≠ '"' ∧ c ≠ '\\' ∧ ¬ c.toNat < 32) ∨
      ∃ code, escape c = '\\' :: code ∧ ∀ rest, readEscape (code ++ rest) = .ok (c, rest) := by
  unfold escape
  split
  · exact .inr ⟨_, rfl, fun _ => rfl⟩
  · exact .inr ⟨_, rfl, fun _ => rfl⟩
  · exact .inr ⟨_, rfl, fun _ => rfl⟩
  · exact .inr ⟨_, rfl, fun _ => rfl⟩
  · exact .inr ⟨_, rfl, fun _ => rfl⟩
  · exact .inr ⟨_, rfl, fun _ => rfl⟩
  · exact .inr ⟨_, rfl, fun _ => rfl⟩
  · next hquote hbackslash _ _ _ _ _ =>
    split
    · next hcontrol =>
      refine .inr ⟨_, rfl, fun rest => ?_⟩
      have hhex := readHex_hexDigit rest (Nat.lt_trans hcontrol (by decide))
      have hlow : ¬ (0xD800 ≤ c.toNat ∧ c.toNat ≤ 0xDBFF) := by omega
      have hhigh : ¬ (0xDC00 ≤ c.toNat ∧ c.toNat ≤ 0xDFFF) := by omega
      simp only [List.cons_append, List.nil_append, readEscape, hhex, bind, Except.bind,
        if_neg hlow, if_neg hhigh, Char.ofNat_toNat]
    · next hprinted => exact .inl ⟨rfl, hquote, hbackslash, hprinted⟩

theorem readStringBody_escape (text : List Char) {bound : List Char}
    (h : text.length < bound.length) :
    readStringBody bound (text.flatMap escape ++ '"' :: rest) = .ok (text, rest) := by
  induction text generalizing bound with
  | nil =>
    cases bound with
    | nil => cases h
    | cons b bound => rfl
  | cons c text ih =>
    cases bound with
    | nil => cases h
    | cons b bound =>
      have hrest := ih (Nat.lt_of_succ_lt_succ h)
      rw [List.flatMap_cons, List.append_assoc]
      obtain ⟨hescape, hquote, hbackslash, hprinted⟩ | ⟨code, hescape, hread⟩ := escape_cases c
      · rw [hescape, List.singleton_append, readStringBody, if_neg hquote, if_neg hbackslash,
          if_neg hprinted]
        simp only [bind, Except.bind, hrest]
      · have hquote : '\\' ≠ '"' := by decide
        rw [hescape, List.cons_append, readStringBody, if_neg hquote, if_pos rfl]
        simp only [bind, Except.bind, hread, hrest]

theorem length_le_flatMap_escape (text : List Char) :
    text.length ≤ (text.flatMap escape).length := by
  induction text with
  | nil => exact Nat.zero_le _
  | cons c text ih =>
    have hpos : 0 < (escape c).length := by
      obtain ⟨hescape, -⟩ | ⟨code, hescape, -⟩ := escape_cases c <;> simp [hescape]
    rw [List.flatMap_cons, List.length_append, List.length_cons]
    omega

/-- A string is read up to its closing quote. -/
theorem readString_quote (text : String) :
    readString (text.toList.flatMap escape ++ '"' :: rest) = .ok (text, rest) := by
  have hbound : text.toList.length <
      ('"' :: (text.toList.flatMap escape ++ '"' :: rest)).length := by
    have hle := length_le_flatMap_escape text.toList
    simp only [List.length_cons, List.length_append]
    omega
  rw [readString, readStringBody_escape rest text.toList hbound]
  simp only [bind, Except.bind, String.ofList_toList]

theorem readKey_quote (key : String) : readKey (quote key.toList ++ rest) = .ok (key, rest) := by
  rw [quote, List.cons_append, List.cons_append, List.append_assoc]
  exact readString_quote rest key

end

/-- What may stand after a value: the end, or what separates or closes. -/
inductive Closed : List Char → Prop
  | nil : Closed []
  | comma (rest : List Char) : Closed (',' :: rest)
  | bracket (rest : List Char) : Closed (']' :: rest)
  | brace (rest : List Char) : Closed ('\x7d' :: rest)

section

variable {rest : List Char} (hrest : Closed rest)

include hrest

theorem spanDigits_toDigits (n : Nat) :
    spanDigits (Nat.toDigits 10 n ++ rest) = ((Nat.toDigits 10 n).map digitValue, rest) := by
  have hdigits : ∀ c ∈ Nat.toDigits 10 n, c.isDigit = true :=
    fun _ hc => Nat.isDigit_of_mem_toDigits (by decide) (by decide) hc
  have hstop : rest.takeWhile Char.isDigit = [] ∧ rest.dropWhile Char.isDigit = rest := by
    cases hrest <;> exact ⟨rfl, rfl⟩
  rw [spanDigits, List.takeWhile_append_of_pos hdigits, List.dropWhile_append_of_pos hdigits,
    hstop.1, hstop.2, List.append_nil]

end

theorem ofDigits_map_digitValue (n : Nat) : ofDigits ((Nat.toDigits 10 n).map digitValue) = n := by
  rw [ofDigits, List.foldl_map]
  exact Nat.ofDigitChars_ten_toDigits

/-- A number is not printed with leading zeros. -/
theorem head?_toDigits {n : Nat} (hpos : 0 < n) :
    ((Nat.toDigits 10 n).map digitValue).head? ≠ some 0 := by
  induction n using Nat.strongRecOn with
  | ind n ih =>
    by_cases hlt : n < 10
    · have hdigit : digitValue n.digitChar = n := Nat.toNat_digitChar_sub_48_of_lt_ten hlt
      rw [Nat.toDigits_of_lt_base hlt, List.map_singleton, List.head?_cons, hdigit]
      intro hzero
      cases hzero
      exact Nat.lt_irrefl 0 hpos
    · have hle : 10 ≤ n := Nat.le_of_not_lt hlt
      have hfirst := ih (n / 10) (by omega) (by omega)
      have hne : (Nat.toDigits 10 (n / 10)).map digitValue ≠ [] := by
        rw [ne_eq, List.map_eq_nil_iff]
        exact Nat.toDigits_ne_nil
      obtain ⟨d, ds, hcons⟩ := List.exists_cons_of_ne_nil hne
      rw [hcons] at hfirst
      rw [Nat.toDigits_of_base_le (by decide) hle, List.map_append, hcons]
      exact hfirst

theorem readWhole_toDigits {rest : List Char} (hrest : Closed rest) (n : Nat) :
    readWhole (Nat.toDigits 10 n ++ rest) = .ok ((Nat.toDigits 10 n).map digitValue, rest) := by
  have hspan := spanDigits_toDigits hrest n
  have hne : (Nat.toDigits 10 n).map digitValue ≠ [] := by
    rw [ne_eq, List.map_eq_nil_iff]
    exact Nat.toDigits_ne_nil
  have hlead : ∀ d ds, (Nat.toDigits 10 n).map digitValue ≠ 0 :: d :: ds := by
    intro d ds hzero
    by_cases hpos : 0 < n
    · apply head?_toDigits hpos
      rw [hzero]
      rfl
    · obtain rfl : n = 0 := Nat.eq_zero_of_not_pos hpos
      cases hzero
  rw [readWhole, readDigits, hspan]
  generalize (Nat.toDigits 10 n).map digitValue = digits at hne hlead
  match digits with
  | [] => contradiction
  | [0] | [d + 1] | (d + 1) :: e :: ds => rfl
  | 0 :: e :: ds => exact absurd rfl (hlead e ds)

theorem exists_cons_toDigits (n : Nat) :
    ∃ c cs, Nat.toDigits 10 n = c :: cs ∧ c.isDigit = true := by
  obtain ⟨c, cs, hcons⟩ := List.exists_cons_of_ne_nil (Nat.toDigits_ne_nil (n := n) (b := 10))
  have hmem : c ∈ Nat.toDigits 10 n := hcons ▸ List.mem_cons_self
  exact ⟨c, cs, hcons, Nat.isDigit_of_mem_toDigits (by decide) (by decide) hmem⟩

section

variable {rest : List Char} (hrest : Closed rest) (n : Nat)

include hrest

/-- What may stand after a number is not taken for a part of it. -/
theorem readFraction_and_readExponent :
    readFraction rest = .ok (none, rest) ∧ readExponent rest = .ok (none, rest) := by
  cases hrest <;> exact ⟨rfl, rfl⟩

theorem readNumberText_toDigits : readNumberText (Nat.toDigits 10 n ++ rest) =
    .ok (⟨false, (Nat.toDigits 10 n).map digitValue, none, none⟩, rest) := by
  have hwhole := readWhole_toDigits hrest n
  obtain ⟨hfraction, hexponent⟩ := readFraction_and_readExponent hrest
  obtain ⟨c, cs, hcons, hdigit⟩ := exists_cons_toDigits n
  have hsign : ∀ others, Nat.toDigits 10 n ++ rest ≠ '-' :: others := by
    intro others hminus
    rw [hcons] at hminus
    cases hminus
    contradiction
  rw [readNumberText]
  · simp only [bind, Except.bind, hwhole, hfraction, hexponent]
  · exact hsign

theorem readNumberText_minus : readNumberText ('-' :: (Nat.toDigits 10 n ++ rest)) =
    .ok (⟨true, (Nat.toDigits 10 n).map digitValue, none, none⟩, rest) := by
  have hwhole := readWhole_toDigits hrest n
  obtain ⟨hfraction, hexponent⟩ := readFraction_and_readExponent hrest
  simp only [readNumberText, bind, Except.bind, hwhole, hfraction, hexponent]

/-- The whole numbers that take 64 bits. -/
def Fits64 (n : Int) : Prop := -0x8000000000000000 ≤ n ∧ n < UInt64.size

/-- **A whole number is read as what it was.** -/
theorem readNumber_integerText {n : Int} (h : Fits64 n) :
    readNumber (integerText n ++ rest) = .ok (integer n, rest) := by
  obtain ⟨hlow, hhigh⟩ := h
  cases n with
  | ofNat n =>
    have hlt : n < UInt64.size := Int.ofNat_lt.mp hhigh
    rw [integerText, readNumber, readNumberText_toDigits hrest]
    simp only [bind, Except.bind, NumberText.toJson, ofDigits_map_digitValue]
    rw [if_pos ⟨trivial, trivial, Bool.false_ne_true, hlt⟩]
    rfl
  | negSucc n =>
    have hle : n + 1 ≤ 0x8000000000000000 := by omega
    rw [integerText, List.cons_append, readNumber, readNumberText_minus hrest]
    simp only [bind, Except.bind, NumberText.toJson, ofDigits_map_digitValue]
    rw [if_neg (by simp), if_pos ⟨trivial, trivial, trivial, Nat.succ_pos n, hle⟩]
    rfl

end

end StepRunner.Json
