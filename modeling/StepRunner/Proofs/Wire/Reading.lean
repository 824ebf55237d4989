import StepRunner.Proofs.Bytes.Varint
import StepRunner.Wire.Reader

namespace StepRunner

section

variable {ε ε' α β : Type} {x : Except ε α}

theorem exists_of_bind_eq_ok {f : α → Except ε β} {result : β} (h : x >>= f = .ok result) :
    ∃ value, x = .ok value ∧ f value = .ok result := by
  cases x with
  | error e => cases h
  | ok value => exact ⟨value, rfl, h⟩

theorem eq_ok_of_mapError {f : ε → ε'} {value : α} (h : x.mapError f = .ok value) :
    x = .ok value := by
  cases x with
  | error e => cases h
  | ok found =>
    cases h
    rfl

end

namespace Wire

open Input

theorem mapError_ok {ε ε' α : Type} (f : ε → ε') (value : α) :
    (Except.ok value : Except ε α).mapError f = .ok value := rfl

theorem Input.eq_of_bytes_eq {a b : Input} (h : a.bytes = b.bytes) : a = b := by
  obtain ⟨bytes, size, hsize⟩ := a
  obtain ⟨bytes', size', hsize'⟩ := b
  dsimp only at h
  subst h
  rw [← hsize'] at hsize
  subst hsize
  rfl

theorem Input.drop_ofBytes_append {n : Nat} {bytes : Bytes} (rest : Bytes)
    (h : bytes.length = n) : (ofBytes (bytes ++ rest)).drop n = ofBytes rest :=
  eq_of_bytes_eq (List.drop_left' h)

section

variable {ε ε' ρ σ : Type} {read : Input → Except ε ρ} {result : Input → ρ} {bytes others : Bytes}
  {input middle left : Input}

/-- From these bytes the reader gets the result, and leaves what follows them. -/
def Takes (read : Input → Except ε ρ) (bytes : Bytes) (result : Input → ρ) : Prop :=
  ∀ rest, read (ofBytes (bytes ++ rest)) = .ok (result (ofBytes rest))

/-- Of the input the reader looked at no more than it took. -/
def Took (read : Input → Except ε ρ) (input left : Input) (result : Input → ρ) : Prop :=
  ∃ taken, input.bytes = taken ++ left.bytes ∧ Takes read taken result

theorem Takes.bind {next : ρ → Except ε σ} {result' : Input → σ} (h : Takes read bytes result)
    (h' : Takes (fun input => next (result input)) others result') :
    Takes (fun input => read input >>= next) (bytes ++ others) result' := by
  intro rest
  have hread := h (others ++ rest)
  rw [← List.append_assoc] at hread
  exact (congrArg (· >>= next) hread).trans (h' rest)

theorem Takes.mapError (h : Takes read bytes result) (f : ε → ε') :
    Takes (fun input => (read input).mapError f) bytes result := by
  intro rest
  exact congrArg (Except.mapError f) (h rest)

theorem Took.of_ok {result : Input → ρ} :
    Took (fun input => Except.ok (ε := ε) (result input)) input input result :=
  ⟨[], rfl, fun _ => rfl⟩

theorem Took.bind {next : ρ → Except ε σ} {result' : Input → σ}
    (h : Took read input middle result)
    (h' : Took (fun input => next (result input)) middle left result') :
    Took (fun input => read input >>= next) input left result' := by
  obtain ⟨taken, hinput, htakes⟩ := h
  obtain ⟨others, hmiddle, htakes'⟩ := h'
  refine ⟨taken ++ others, ?_, htakes.bind htakes'⟩
  rw [hinput, hmiddle, List.append_assoc]

theorem Took.map {α β : Type} {read : Input → Except ε (α × Input)} {value : α}
    (h : Took read input left (value, ·)) (f : α → β) :
    Took (fun input => read input >>= fun found => .ok (f found.1, found.2)) input left
      (f value, ·) := h.bind .of_ok

theorem Took.mapError (h : Took read input left result) (f : ε → ε') :
    Took (fun input => (read input).mapError f) input left result := by
  obtain ⟨taken, hinput, htakes⟩ := h
  exact ⟨taken, hinput, htakes.mapError f⟩

theorem Took.size_le (h : Took read input left result) : left.size ≤ input.size := by
  obtain ⟨taken, hinput, -⟩ := h
  rw [left.size_eq, input.size_eq, hinput, List.length_append]
  exact Nat.le_add_left _ _

theorem Took.takes (h : Took read (ofBytes bytes) (ofBytes []) result) :
    Takes read bytes result := by
  obtain ⟨taken, hinput, htakes⟩ := h
  obtain rfl : bytes = taken := hinput.trans (List.append_nil taken)
  exact htakes

end

section

variable {input left : Input} {n tag : Nat} {type : WireType}

theorem Took.drop {ρ : Type} {read : Input → Except Fault ρ} {result : Input → ρ}
    (h : Takes read (input.bytes.take n) result) : Took read input (input.drop n) result :=
  ⟨_, (List.take_append_drop n input.bytes).symm, h⟩

theorem length_take_bytes (hn : n ≤ input.size) : (input.bytes.take n).length = n := by
  rw [List.length_take, ← input.size_eq]
  exact Nat.min_eq_left hn

theorem exists_of_readVarint {value : Nat} (h : input.readVarint = .ok (value, left)) :
    ∃ taken, 0 < taken ∧ taken ≤ input.size ∧ left = input.drop taken ∧
      Varint.decode input.bytes = some (value, taken) := by
  rw [readVarint] at h
  cases hread : Varint.decode input.bytes with
  | none =>
    rw [hread] at h
    cases h
  | some found =>
    obtain ⟨value, taken⟩ := found
    rw [hread] at h
    cases h
    obtain ⟨hpos, hle⟩ := Varint.taken_of_readUpTo hread
    exact ⟨taken, hpos, input.size_eq ▸ hle, rfl, rfl⟩

theorem took_readVarint {value : Nat} (h : input.readVarint = .ok (value, left)) :
    Took readVarint input left (value, ·) := by
  obtain ⟨taken, -, hle, rfl, hread⟩ := exists_of_readVarint h
  refine .drop ?_
  intro rest
  have htaken : Varint.decode (ofBytes (input.bytes.take taken ++ rest)).bytes = _ :=
    Varint.decode_take_append hread rest
  rw [readVarint, htaken]
  dsimp only
  rw [drop_ofBytes_append rest (length_take_bytes hle)]

theorem size_lt_of_readVarint {value : Nat} (h : input.readVarint = .ok (value, left)) :
    left.size < input.size := by
  obtain ⟨taken, hpos, hle, rfl, -⟩ := exists_of_readVarint h
  change input.size - taken < input.size
  omega

theorem took_skip (h : input.skip n = .ok left) : Took (Input.skip n) input left id := by
  rw [Input.skip] at h
  split at h
  · cases h
  · next hle =>
    cases h
    have hn : n ≤ input.size := Nat.le_of_not_lt hle
    have hlength := length_take_bytes hn
    refine .drop ?_
    intro rest
    rw [Input.skip, if_neg (by simp [ofBytes, hlength]), drop_ofBytes_append rest hlength]
    rfl

/-- A key is a number, so reading one takes at least a byte. -/
theorem took_readKey (h : input.readKey = .ok (tag, type, left)) :
    Took readKey input left (tag, type, ·) ∧ left.size < input.size := by
  obtain ⟨⟨key, rest⟩, hkey, hrest⟩ := exists_of_bind_eq_ok h
  have hsize := size_lt_of_readVarint hkey
  dsimp only at hrest
  split at hrest
  · cases hrest
  next hlt =>
  cases htype : WireType.ofNumber? (key % 8) with
  | none =>
    rw [htype] at hrest
    cases hrest
  | some found =>
    rw [htype] at hrest
    dsimp only at hrest
    split at hrest
    · cases hrest
    · next hzero =>
      cases hrest
      refine ⟨(took_readVarint hkey).bind ⟨[], rfl, ?_⟩, hsize⟩
      intro rest
      simp only [htype, hlt, hzero, if_false, List.nil_append]

theorem took_readDelimited {content : Bytes} (h : input.readDelimited = .ok (content, left)) :
    Took readDelimited input left (content, ·) := by
  obtain ⟨⟨length, rest⟩, hlength, hrest⟩ := exists_of_bind_eq_ok h
  dsimp only at hrest
  split at hrest
  · cases hrest
  · next hle =>
    cases hrest
    have hn : length ≤ rest.size := Nat.le_of_not_lt hle
    have hcontent := length_take_bytes hn
    refine (took_readVarint hlength).bind (.drop ?_)
    intro more
    dsimp only
    rw [if_neg (by simp [ofBytes, hcontent]), drop_ofBytes_append more hcontent, ofBytes,
      List.take_left' hcontent]

end

section

variable {input left : Input} {n tag : Nat} {type : WireType}

/-- A group has no more fields than bytes, so that many tries are enough. -/
theorem took_skipGroup {skipField : WireType → Nat → Input → Except Fault Input}
    (hskip : ∀ type tag input left, skipField type tag input = .ok left →
      Took (skipField type tag) input left id)
    (h : skipGroup skipField tag n input = .ok left) :
    ∃ taken, input.bytes = taken ++ left.bytes ∧
      ∀ m, taken.length ≤ m → Takes (skipGroup skipField tag m) taken id := by
  induction n generalizing input with
  | zero => cases h
  | succ n ih =>
    obtain ⟨⟨inner, type, rest⟩, hkey, hrest⟩ := exists_of_bind_eq_ok h
    obtain ⟨⟨taken, hinput, htakes⟩, hsize⟩ := took_readKey hkey
    have htaken : 0 < taken.length := by
      rw [input.size_eq, rest.size_eq, hinput, List.length_append] at hsize
      omega
    dsimp only at hrest
    split at hrest
    · next hend =>
      split at hrest
      · next hinner =>
        cases hrest
        refine ⟨taken, hinput, ?_⟩
        intro m hm rest
        obtain ⟨m, rfl⟩ : ∃ k, m = k + 1 := ⟨m - 1, by omega⟩
        rw [skipGroup, htakes rest]
        simp only [bind, Except.bind, hend, hinner, if_true]
        rfl
      · cases hrest
    · next hmore =>
      obtain ⟨middle, hfield, hgroup⟩ := exists_of_bind_eq_ok hrest
      obtain ⟨content, hcontent, hskips⟩ := hskip _ _ _ _ hfield
      obtain ⟨others, hothers, hgroups⟩ := ih hgroup
      refine ⟨taken ++ (content ++ others), ?_, ?_⟩
      · rw [hinput, hcontent, hothers, List.append_assoc, List.append_assoc]
      · intro m hm rest
        rw [List.length_append, List.length_append] at hm
        obtain ⟨m, rfl⟩ : ∃ k, m = k + 1 := ⟨m - 1, by omega⟩
        have hgroup := hgroups m (by omega) rest
        have hfield := hskips (others ++ rest)
        have hkey := htakes (content ++ (others ++ rest))
        rw [skipGroup, List.append_assoc, List.append_assoc, hkey]
        simp only [bind, Except.bind, hmore, if_false, hfield]
        exact hgroup

theorem took_skipContent {depth : Nat} (h : skip depth type tag input = .ok left) :
    Took (skip depth type tag) input left id := by
  induction depth generalizing type tag input left with
  | zero => cases h
  | succ depth ih =>
    cases type with
    | varint =>
      obtain ⟨⟨value, rest⟩, hread, hrest⟩ := exists_of_bind_eq_ok h
      cases hrest
      exact (took_readVarint hread).bind .of_ok
    | sixtyFourBit | thirtyTwoBit => exact took_skip h
    | lengthDelimited =>
      obtain ⟨⟨content, rest⟩, hread, hrest⟩ := exists_of_bind_eq_ok h
      cases hrest
      exact (took_readDelimited hread).bind .of_ok
    | startGroup =>
      have hgroup : skipGroup (skip depth) tag input.size input = .ok left := h
      obtain ⟨taken, hinput, htakes⟩ := took_skipGroup (fun _ _ _ _ hskip => ih hskip) hgroup
      refine ⟨taken, hinput, ?_⟩
      intro rest
      refine htakes _ ?_ rest
      simp [ofBytes]
    | endGroup => cases h

end

section

variable {input left : Input}

/-- The reader looks at what it takes, and takes at least a byte. -/
structure FieldReader.Steady (readField : FieldReader) : Prop where
  took {input left : Input} {field? : Option Field} (h : readField input = .ok (field?, left)) :
    Took readField input left (field?, ·)
  size_lt {input left : Input} {field? : Option Field} (h : readField input = .ok (field?, left)) :
    left.size < input.size

/-- These bytes, whatever follows them, are read as these fields. -/
def TakesFields (readField : FieldReader) (body : Bytes) (fields : List Field) : Prop :=
  ∀ n rest, body.length ≤ n →
    readFields readField rest.length n (ofBytes (body ++ rest)) = .ok (fields, ofBytes rest)

variable {readField : FieldReader} {bytes body others : Bytes} {fields : List Field}

theorem readFields_of_size_le {stop n : Nat} (h : input.size ≤ stop) :
    readFields readField stop n input = .ok ([], input) := by
  cases n with
  | zero => rfl
  | succ n => rw [readFields, if_pos h]

theorem TakesFields.nil : TakesFields readField [] [] :=
  fun _ rest _ => readFields_of_size_le (Nat.le_refl rest.length)

theorem TakesFields.cons {field? : Option Field} (hne : bytes ≠ [])
    (h : Takes readField bytes (field?, ·)) (h' : TakesFields readField others fields) :
    TakesFields readField (bytes ++ others) (field?.toList ++ fields) := by
  intro n rest hn
  have hpos := List.length_pos_iff.mpr hne
  rw [List.length_append] at hn
  obtain ⟨n, rfl⟩ : ∃ k, n = k + 1 := ⟨n - 1, by omega⟩
  have hfield := h (others ++ rest)
  have hothers := h' n rest (by omega)
  rw [readFields, List.append_assoc, if_neg (by simp [ofBytes]; omega)]
  simp only [bind, Except.bind, hfield, hothers]

/-- A body is read from its length and as many bytes. -/
theorem takes_readBody {size : Bytes} (hsize : Takes readVarint size (body.length, ·))
    (h : TakesFields readField body fields) :
    Takes (readBody readField) (size ++ body) (fields, ·) := by
  intro rest
  have hlength := hsize (body ++ rest)
  have hall : (ofBytes (body ++ rest)).size = body.length + rest.length := List.length_append
  have hstop : (ofBytes (body ++ rest)).size - body.length = rest.length := by omega
  have hfields := h (ofBytes (body ++ rest)).size rest (by omega)
  rw [readBody, List.append_assoc, hlength]
  simp only [bind, Except.bind, mapError_ok, hstop, hfields]
  rw [if_neg (by omega)]
  exact if_pos rfl

/-- Reading fields looks at no more than the fields that were read. -/
theorem exists_takesFields (hsteady : readField.Steady) {stop n : Nat}
    (h : readFields readField stop n input = .ok (fields, left)) (hn : input.size ≤ stop + n) :
    ∃ taken, input.bytes = taken ++ left.bytes ∧ TakesFields readField taken fields := by
  induction n generalizing input fields with
  | zero =>
    cases h
    exact ⟨[], rfl, .nil⟩
  | succ n ih =>
    rw [readFields] at h
    split at h
    · cases h
      exact ⟨[], rfl, .nil⟩
    · obtain ⟨⟨field?, middle⟩, hfield, hnext⟩ := exists_of_bind_eq_ok h
      obtain ⟨⟨fields, rest⟩, hfields, hok⟩ := exists_of_bind_eq_ok hnext
      cases hok
      have hsize := hsteady.size_lt hfield
      obtain ⟨bytes, hbytes, htakes⟩ := hsteady.took hfield
      obtain ⟨others, hothers, hrest⟩ := ih hfields (by omega)
      have hne : bytes ≠ [] := by
        rintro rfl
        rw [input.size_eq, middle.size_eq, hbytes] at hsize
        exact Nat.lt_irrefl _ hsize
      refine ⟨bytes ++ others, ?_, .cons hne htakes hrest⟩
      rw [hbytes, hothers, List.append_assoc]

theorem took_readBody (hsteady : readField.Steady)
    (h : readBody readField input = .ok (fields, left)) :
    Took (readBody readField) input left (fields, ·) := by
  obtain ⟨⟨length, rest⟩, hlength, hrest⟩ := exists_of_bind_eq_ok h
  obtain ⟨size, hsize, htakes⟩ := took_readVarint (eq_ok_of_mapError hlength)
  dsimp only at hrest
  split at hrest
  · cases hrest
  · obtain ⟨⟨found, last⟩, hfields, hok⟩ := exists_of_bind_eq_ok hrest
    dsimp only at hok
    split at hok
    · next hstop =>
      cases hok
      obtain ⟨body, hbody, htaken⟩ := exists_takesFields hsteady hfields (by omega)
      have hlast := congrArg List.length hbody
      rw [List.length_append, ← rest.size_eq, ← left.size_eq] at hlast
      obtain rfl : body.length = length := by omega
      refine ⟨size ++ body, ?_, takes_readBody htakes htaken⟩
      rw [hsize, hbody, List.append_assoc]
    · cases hok

end

section

variable {S : Type} {enter? : Option (S → FieldReader)} {tag : Nat} {type : WireType}
  {input left : Input} {field : Field}

theorem eq_of_require {found expected : WireType} (h : require found expected = .ok ()) :
    found = expected := by
  rw [require] at h
  split at h
  · assumption
  · cases h

/-- The content of a field is read from what is taken. -/
theorem took_readContent
    (hsteady : ∀ enter, enter? = some enter → ∀ shape, (enter shape).Steady) {content : Content S}
    (h : readContent enter? tag type input content = .ok (field, left)) :
    Took (readContent enter? tag type · content) input left (field, ·) ∧ field.tag = tag := by
  cases content with
  | varint =>
    obtain ⟨_, hrequire, hread⟩ := exists_of_bind_eq_ok (eq_ok_of_mapError h)
    obtain ⟨⟨value, rest⟩, hvalue, hok⟩ := exists_of_bind_eq_ok hread
    obtain rfl := eq_of_require hrequire
    cases hok
    exact ⟨((took_readVarint hvalue).map (Field.varint tag)).mapError _, rfl⟩
  | octets =>
    obtain ⟨_, hrequire, hread⟩ := exists_of_bind_eq_ok (eq_ok_of_mapError h)
    obtain ⟨⟨value, rest⟩, hvalue, hok⟩ := exists_of_bind_eq_ok hread
    obtain rfl := eq_of_require hrequire
    cases hok
    exact ⟨((took_readDelimited hvalue).map (Field.octets tag)).mapError _, rfl⟩
  | text =>
    obtain ⟨_, hrequire, hread⟩ := exists_of_bind_eq_ok (eq_ok_of_mapError h)
    obtain ⟨⟨value, rest⟩, hvalue, hok⟩ := exists_of_bind_eq_ok hread
    obtain rfl := eq_of_require hrequire
    dsimp only at hok
    cases htext : Utf8.decode? value with
    | none =>
      rw [htext] at hok
      cases hok
    | some text =>
      rw [htext] at hok
      cases hok
      refine ⟨((took_readDelimited hvalue).bind ⟨[], rfl, ?_⟩).mapError _, rfl⟩
      intro rest
      simp only [htext, List.nil_append]
  | body shape =>
    obtain ⟨_, hrequire, hread⟩ := exists_of_bind_eq_ok h
    obtain rfl := eq_of_require (eq_ok_of_mapError hrequire)
    cases enter? with
    | none => cases hread
    | some enter =>
      obtain ⟨⟨body, rest⟩, hbody, hok⟩ := exists_of_bind_eq_ok hread
      cases hok
      exact ⟨(took_readBody (hsteady enter rfl shape) hbody).map (Field.message tag), rfl⟩

variable {layout : Layout S} {depth : Nat} {field? : Option Field}

/-- The content is skipped exactly if the layout has no rule for the tag. -/
theorem took_readFieldOf
    (hsteady : ∀ enter, enter? = some enter → ∀ shape, (enter shape).Steady)
    (h : readFieldOf layout depth enter? input = .ok (field?, left)) :
    Took (readFieldOf layout depth enter?) input left (field?, ·) ∧ left.size < input.size ∧
      ∃ tag type rest, input.readKey = .ok (tag, type, rest) ∧
        (layout.rule? tag).isSome = field?.isSome ∧ ∀ field ∈ field?, field.tag = tag := by
  obtain ⟨⟨tag, type, rest⟩, hread, hcontent⟩ := exists_of_bind_eq_ok h
  have hkey := eq_ok_of_mapError hread
  obtain ⟨⟨key, hinput, htakes⟩, hsize⟩ := took_readKey hkey
  dsimp only at hcontent
  cases hrule : layout.rule? tag with
  | none =>
    rw [hrule] at hcontent
    obtain ⟨last, hskip, hok⟩ := exists_of_bind_eq_ok hcontent
    cases hok
    have htook := took_skipContent (eq_ok_of_mapError hskip)
    have hless := Nat.lt_of_le_of_lt htook.size_le hsize
    obtain ⟨content, hrest, hskips⟩ := htook
    refine ⟨⟨key ++ content, ?_, ?_⟩, hless, tag, type, rest, hkey, by rw [hrule]; rfl, by simp⟩
    · rw [hinput, hrest, List.append_assoc]
    · intro more
      have hkey := htakes (content ++ more)
      rw [readFieldOf, List.append_assoc, hkey]
      simp only [bind, Except.bind, mapError_ok, hrule, hskips more, id]
  | some rule =>
    rw [hrule] at hcontent
    obtain ⟨⟨field, last⟩, hfield, hok⟩ := exists_of_bind_eq_ok hcontent
    cases hok
    obtain ⟨htook, htag⟩ := took_readContent hsteady (eq_ok_of_mapError hfield)
    have hless := Nat.lt_of_le_of_lt htook.size_le hsize
    obtain ⟨content, hrest, hreads⟩ := htook
    refine ⟨⟨key ++ content, ?_, ?_⟩, hless, tag, type, rest, hkey, by rw [hrule]; rfl, ?_⟩
    · rw [hinput, hrest, List.append_assoc]
    · intro more
      have hkey := htakes (content ++ more)
      have hfield := hreads more
      rw [readFieldOf, List.append_assoc, hkey]
      simp only [bind, Except.bind, mapError_ok, hrule, hfield]
    · intro found hfound
      cases hfound
      exact htag

end

section

variable {S : Type} {layouts : S → Layout S} {depth : Nat} {shape : S}

/-- **Reading a field looks at the bytes of the field alone,** however deep it nests. -/
theorem took_readField {input left : Input} {field? : Option Field}
    (h : readField layouts depth shape input = .ok (field?, left)) :
    Took (readField layouts depth shape) input left (field?, ·) ∧ left.size < input.size ∧
      ∃ tag type rest, input.readKey = .ok (tag, type, rest) ∧
        ((layouts shape).rule? tag).isSome = field?.isSome ∧
        ∀ field ∈ field?, field.tag = tag := by
  induction depth generalizing shape input left field? with
  | zero =>
    refine took_readFieldOf ?_ h
    intro enter henter
    cases henter
  | succ depth ih =>
    refine took_readFieldOf ?_ h
    intro enter henter shape
    cases henter
    exact ⟨fun h => (ih h).1, fun h => (ih h).2.1⟩

theorem decode_of_takesFields {bytes : Bytes} {fields : List Field}
    (h : TakesFields (readField layouts depthLimit shape) bytes fields) :
    decode layouts shape bytes = .ok fields := by
  have hread := h bytes.length [] (Nat.le_refl _)
  rw [List.append_nil, List.length_nil] at hread
  rw [decode, hread]
  rfl

end

end Wire

end StepRunner
