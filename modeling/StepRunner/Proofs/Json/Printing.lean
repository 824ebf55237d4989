import StepRunner.Proofs.Json.Tokens

namespace StepRunner.Json

/-- The value is read as it was printed, whatever may stand after it. -/
def PrintsBack (read : List Char → Except TextFault (Json × List Char)) (json : Json) : Prop :=
  ∀ rest, Closed rest → read (json.print ++ rest) = .ok (json, rest)

/-- A value without floats, at most `depth` levels deep. -/
inductive Exact : Nat → Json → Prop
  | null {depth : Nat} : Exact depth null
  | bool {depth : Nat} (value : Bool) : Exact depth (bool value)
  | integer {depth : Nat} {value : Int} (h : Fits64 value) : Exact depth (integer value)
  | string {depth : Nat} (value : String) : Exact depth (string value)
  | array {depth : Nat} {items : List Json} (h : ∀ item ∈ items, Exact depth item) :
      Exact (depth + 1) (array items)
  | object {depth : Nat} {entries : List (String × Json)}
      (h : ∀ entry ∈ entries, Exact depth entry.2) : Exact (depth + 1) (object entries)

theorem isBlank_eq_false {c : Char} (h : c = '-' ∨ c.isDigit = true) : isBlank c = false := by
  have hdigit (blank : Char) (hblank : blank.isDigit = false) (hminus : blank ≠ '-') :
      c ≠ blank := by
    rintro rfl
    rcases h with h | h
    · exact hminus h
    · rw [hblank] at h
      cases h
  simp only [isBlank, hdigit ' ' rfl (by decide), hdigit '\t' rfl (by decide),
    hdigit '\n' rfl (by decide), hdigit '\r' rfl (by decide), decide_false, Bool.or_self]

theorem exists_cons_integerText (n : Int) :
    ∃ c cs, integerText n = c :: cs ∧ (c = '-' ∨ c.isDigit = true) := by
  cases n with
  | ofNat n =>
    obtain ⟨c, cs, hcons, hdigit⟩ := exists_cons_toDigits n
    exact ⟨c, cs, hcons, .inr hdigit⟩
  | negSucc n => exact ⟨'-', _, rfl, .inl rfl⟩

/-- A value begins with itself. -/
theorem Exact.exists_cons_print {depth : Nat} {json : Json} (h : Exact depth json) :
    ∃ c cs, json.print = c :: cs ∧ isBlank c = false ∧ c ≠ ']' := by
  cases h with
  | null => exact ⟨_, _, rfl, rfl, by decide⟩
  | bool value => cases value <;> exact ⟨_, _, rfl, rfl, by decide⟩
  | integer =>
    obtain ⟨c, cs, hcons, hfirst⟩ := exists_cons_integerText _
    refine ⟨c, cs, hcons, isBlank_eq_false hfirst, ?_⟩
    rintro rfl
    revert hfirst
    decide
  | string value => exact ⟨_, _, rfl, rfl, by decide⟩
  | @array _ items =>
    cases items with
    | nil => exact ⟨_, _, rfl, rfl, by decide⟩
    | cons item items => exact ⟨_, _, rfl, rfl, by decide⟩
  | @object _ entries =>
    match entries with
    | [] => exact ⟨_, _, rfl, rfl, by decide⟩
    | (key, value) :: entries => exact ⟨_, _, rfl, rfl, by decide⟩

section

variable {read : List Char → Except TextFault (Json × List Char)} {items : List Json}

theorem closed_printItems (items : List Json) (rest : List Char) :
    Closed (printItems items ++ rest) := by
  cases items with
  | nil => exact .bracket rest
  | cons item items => exact .comma _

theorem length_lt_printItems (items : List Json) : items.length < (printItems items).length := by
  induction items with
  | nil => exact Nat.one_pos
  | cons item items ih =>
    rw [printItems, List.length_append, List.length_cons, List.length_cons]
    omega

theorem readMoreItems_print (h : ∀ item ∈ items, PrintsBack read item) {bound : List Char}
    (hbound : items.length < bound.length) (rest : List Char) :
    readMoreItems read bound (printItems items ++ rest) = .ok (items, rest) := by
  induction items generalizing bound with
  | nil =>
    cases bound with
    | nil => cases hbound
    | cons b bound => rfl
  | cons item items ih =>
    cases bound with
    | nil => cases hbound
    | cons b bound =>
      have hitem := h item List.mem_cons_self _ (closed_printItems items rest)
      have hitems := ih (fun other hmem => h other (List.mem_cons_of_mem item hmem))
        (Nat.lt_of_succ_lt_succ hbound)
      have hskip : skipBlanks (printItems (item :: items) ++ rest) =
          ',' :: (item.print ++ (printItems items ++ rest)) := by
        rw [printItems, List.cons_append, List.cons_append, List.append_assoc]
        rfl
      rw [readMoreItems, hskip]
      simp only [bind, Except.bind, hitem, hitems]

/-- The items of an array are read up to its closing bracket. -/
theorem readItems_print {depth : Nat} (hexact : ∀ item ∈ items, Exact depth item)
    (h : ∀ item ∈ items, PrintsBack read item) :
    ∃ body, (array items).print = '[' :: body ∧
      ∀ rest, readItems read (body ++ rest) = .ok (items, rest) := by
  cases items with
  | nil => exact ⟨[']'], rfl, fun _ => rfl⟩
  | cons item items =>
    refine ⟨item.print ++ printItems items, by rw [print]; rfl, ?_⟩
    intro rest
    have hitem := h item List.mem_cons_self _ (closed_printItems items rest)
    have hbound : items.length < (printItems items ++ rest).length := by
      rw [List.length_append]
      exact Nat.lt_of_lt_of_le (length_lt_printItems items) (Nat.le_add_right _ _)
    have hitems := readMoreItems_print
      (fun other hmem => h other (List.mem_cons_of_mem item hmem)) hbound rest
    obtain ⟨c, cs, hcons, hblank, hbracket⟩ := (hexact item List.mem_cons_self).exists_cons_print
    have hskip : skipBlanks (item.print ++ (printItems items ++ rest)) =
        c :: (cs ++ (printItems items ++ rest)) := by
      rw [hcons, List.cons_append]
      exact List.dropWhile_cons_of_neg (by simp [hblank])
    rw [readItems, List.append_assoc, hskip]
    split
    · next hclose =>
      cases hclose
      contradiction
    · simp only [bind, Except.bind, hitem, hitems]

end

section

variable {σ : Type} {entry : σ → String → List Char →
  Except TextFault ((String × Json) × σ × List Char)} {memory : σ} {entries : List (String × Json)}

/-- Each entry is read back, with what is remembered of those before it. -/
inductive ReadsEntries (entry : σ → String → List Char →
    Except TextFault ((String × Json) × σ × List Char)) : σ → List (String × Json) → Prop
  | nil (memory : σ) : ReadsEntries entry memory []
  | cons {memory memory' : σ} {key : String} {value : Json} {entries : List (String × Json)}
      (hread : ∀ rest, Closed rest →
        entry memory key (':' :: (value.print ++ rest)) = .ok ((key, value), memory', rest))
      (hrest : ReadsEntries entry memory' entries) :
      ReadsEntries entry memory ((key, value) :: entries)

theorem closed_printEntries (entries : List (String × Json)) (rest : List Char) :
    Closed (printEntries entries ++ rest) := by
  match entries with
  | [] => exact .brace rest
  | (key, value) :: entries => exact .comma _

theorem length_lt_printEntries (entries : List (String × Json)) :
    entries.length < (printEntries entries).length := by
  induction entries with
  | nil => exact Nat.one_pos
  | cons entry entries ih =>
    obtain ⟨key, value⟩ := entry
    simp only [printEntries, List.length_append, List.length_cons]
    omega

theorem readMoreMembers_print (h : ReadsEntries entry memory entries) {bound : List Char}
    (hbound : entries.length < bound.length) (rest : List Char) :
    readMoreMembers entry bound memory (printEntries entries ++ rest) = .ok (entries, rest) := by
  induction h generalizing bound with
  | nil memory =>
    cases bound with
    | nil => cases hbound
    | cons b bound => rfl
  | @cons memory memory' key value entries hread _ ih =>
    cases bound with
    | nil => cases hbound
    | cons b bound =>
      have hentry := hread _ (closed_printEntries entries rest)
      have hentries := ih (Nat.lt_of_succ_lt_succ hbound)
      have hkey := readKey_quote (':' :: (value.print ++ (printEntries entries ++ rest))) key
      have hskip : skipBlanks (printEntries ((key, value) :: entries) ++ rest) =
          ',' :: (quote key.toList ++ ':' :: (value.print ++ (printEntries entries ++ rest))) := by
        simp only [printEntries, List.cons_append, List.append_assoc]
        rfl
      rw [readMoreMembers, hskip]
      simp only [bind, Except.bind, hkey, hentry, hentries]

/-- The entries of an object are read up to its closing brace. -/
theorem readMembers_print (h : ReadsEntries entry memory entries) :
    ∃ body, (object entries).print = '\x7b' :: body ∧
      ∀ rest, readMembers entry memory (body ++ rest) = .ok (entries, rest) := by
  cases h with
  | nil => exact ⟨['\x7d'], rfl, fun _ => rfl⟩
  | @cons _ memory' key value entries hread hrest =>
    refine ⟨quote key.toList ++ ':' :: (value.print ++ printEntries entries), ?_, ?_⟩
    · simp only [print, List.cons_append, List.append_assoc]
    · intro rest
      have hentry := hread _ (closed_printEntries entries rest)
      have hkey := readKey_quote (':' :: (value.print ++ (printEntries entries ++ rest))) key
      have hbound : entries.length < (printEntries entries ++ rest).length := by
        rw [List.length_append]
        exact Nat.lt_of_lt_of_le (length_lt_printEntries entries) (Nat.le_add_right _ _)
      have hentries := readMoreMembers_print hrest hbound rest
      have hbody : quote key.toList ++ ':' :: (value.print ++ printEntries entries) ++ rest =
          quote key.toList ++ ':' :: (value.print ++ (printEntries entries ++ rest)) := by
        simp only [List.cons_append, List.append_assoc]
      have hskip (more : List Char) : skipBlanks (quote key.toList ++ more) =
          '"' :: (key.toList.flatMap escape ++ ['"'] ++ more) := rfl
      rw [hbody, readMembers, hskip]
      simp only [bind, Except.bind, hkey, hentry, hentries]
      rfl

end

section

variable {inner? : Option (List Char → Except TextFault (Json × List Char))}

theorem readValueOf_number {c : Char} (h : c = '-' ∨ c.isDigit = true) (cs : List Char) :
    readValueOf inner? (c :: cs) = readNumber (c :: cs) := by
  have hskip : skipBlanks (c :: cs) = c :: cs :=
    List.dropWhile_cons_of_neg (by simp [isBlank_eq_false h])
  have hletter (letter : Char) (hletter : letter.isDigit = false) (hminus : letter ≠ '-') :
      c ≠ letter := by
    rintro rfl
    simp [hletter, hminus] at h
  rw [readValueOf, hskip]
  split
  · next hnil => cases hnil
  · next hcons => exact absurd (List.cons.inj hcons).1 (hletter 'n' rfl (by decide))
  · next hcons => exact absurd (List.cons.inj hcons).1 (hletter 't' rfl (by decide))
  · next hcons => exact absurd (List.cons.inj hcons).1 (hletter 'f' rfl (by decide))
  · next hcons => exact absurd (List.cons.inj hcons).1 (hletter '"' rfl (by decide))
  · next hcons => exact absurd (List.cons.inj hcons).1 (hletter '[' rfl (by decide))
  · next hcons => exact absurd (List.cons.inj hcons).1 (hletter '\x7b' rfl (by decide))
  · next hcons =>
    obtain ⟨rfl, rfl⟩ := List.cons.inj hcons
    exact if_pos h

theorem printsBack_integer {value : Int} (h : Fits64 value) :
    PrintsBack (readValueOf inner?) (integer value) := by
  intro rest hrest
  obtain ⟨c, cs, hcons, hfirst⟩ := exists_cons_integerText value
  have hnumber := readNumber_integerText hrest h
  rw [hcons] at hnumber
  rw [print, hcons]
  exact (readValueOf_number hfirst (cs ++ rest)).trans hnumber

theorem printsBack_string (value : String) : PrintsBack (readValueOf inner?) (string value) := by
  intro rest _
  have hstring := readString_quote rest value
  have hskip : skipBlanks (quote value.toList ++ rest) =
      '"' :: (value.toList.flatMap escape ++ '"' :: rest) := by
    rw [quote, List.cons_append, List.cons_append, List.append_assoc]
    rfl
  rw [print, readValueOf, hskip]
  simp only [bind, Except.bind, hstring]

/-- A value without levels is read however many levels are left. -/
theorem printsBack_readValue {json : Json} (h : ∀ inner?, PrintsBack (readValueOf inner?) json)
    (depth : Nat) : PrintsBack (readValue depth) json := by
  cases depth with
  | zero => exact h none
  | succ depth => exact h (some (readValue depth))

end

section

variable {read : List Char → Except TextFault (Json × List Char)}

theorem printsBack_readEntry {value : Json} (h : PrintsBack read value) (key : String)
    {rest : List Char} (hrest : Closed rest) :
    readEntry read key (':' :: (value.print ++ rest)) = .ok ((key, value), rest) := by
  have hcolon : readColon (':' :: (value.print ++ rest)) = .ok (value.print ++ rest) := rfl
  have hvalue := h rest hrest
  rw [readEntry, hcolon]
  simp only [bind, Except.bind, hvalue]

theorem readsEntries_of_printsBack {entries : List (String × Json)}
    (h : ∀ entry ∈ entries, PrintsBack read entry.2) :
    ReadsEntries (fun (_ : Unit) key cs => do
      let (member, rest) ← readEntry read key cs
      .ok (member, (), rest)) () entries := by
  induction entries with
  | nil => exact .nil ()
  | cons entry entries ih =>
    have hentries := ih fun other hmem => h other (List.mem_cons_of_mem entry hmem)
    refine .cons ?_ hentries
    intro rest hrest
    have hentry := printsBack_readEntry (h entry List.mem_cons_self) entry.1 hrest
    simp only [bind, Except.bind, hentry]

theorem printsBack_array {depth : Nat} {items : List Json}
    (hexact : ∀ item ∈ items, Exact depth item) (h : ∀ item ∈ items, PrintsBack read item) :
    PrintsBack (readValueOf (some read)) (array items) := by
  intro rest _
  obtain ⟨body, hprint, hitems⟩ := readItems_print hexact h
  have hskip : skipBlanks ('[' :: (body ++ rest)) = '[' :: (body ++ rest) := rfl
  rw [hprint, List.cons_append, readValueOf, hskip]
  simp only [bind, Except.bind, hitems]

theorem printsBack_object {entries : List (String × Json)}
    (h : ∀ entry ∈ entries, PrintsBack read entry.2) :
    PrintsBack (readValueOf (some read)) (object entries) := by
  intro rest _
  obtain ⟨body, hprint, hmembers⟩ := readMembers_print (readsEntries_of_printsBack h)
  have hskip : skipBlanks ('\x7b' :: (body ++ rest)) = '\x7b' :: (body ++ rest) := rfl
  have hentries := hmembers rest
  rw [hprint, List.cons_append, readValueOf, hskip]
  simp only [bind, Except.bind] at hentries ⊢
  simp only [hentries]

/-- **A value is read back from its text,** whatever may stand after it. -/
theorem readValue_print {depth : Nat} {json : Json} (h : Exact depth json) :
    PrintsBack (readValue depth) json := by
  induction h with
  | @null depth => exact printsBack_readValue (fun _ _ _ => rfl) depth
  | @bool depth value =>
    refine printsBack_readValue ?_ depth
    intro inner? rest _
    cases value <;> rfl
  | @integer depth _ hfits =>
    exact printsBack_readValue (fun _ => printsBack_integer hfits) depth
  | @string depth value => exact printsBack_readValue (fun _ => printsBack_string value) depth
  | array hexact ih => exact printsBack_array hexact ih
  | object _ ih => exact printsBack_object ih

/-- A text that was printed is one value and nothing more. -/
theorem parse_text {json : Json} (h : Exact depthLimit json) : parse json.text = .ok json := by
  have hread := readValue_print h [] .nil
  rw [List.append_nil] at hread
  rw [parse, text, String.toList_ofList, hread]
  rfl

end

end StepRunner.Json
