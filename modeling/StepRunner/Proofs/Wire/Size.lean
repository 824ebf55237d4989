import StepRunner.Proofs.Wire.RoundTrip

namespace StepRunner.Wire

open Input

theorem length_encode_append (fields others : List Field) :
    (encode (fields ++ others)).length = (encode fields).length + (encode others).length := by
  rw [encode_append, List.length_append]

theorem length_encode_nil : (encode []).length = 0 := rfl

theorem length_encode_cons (field : Field) (fields : List Field) :
    (encode (field :: fields)).length = field.encode.length + (encode fields).length := by
  rw [encode, List.length_append]

theorem length_encode_le_of_sublist {fields others : List Field} (h : fields.Sublist others) :
    (encode fields).length ≤ (encode others).length := by
  induction h with
  | slnil => exact Nat.le_refl _
  | cons field _ ih =>
    rw [length_encode_cons]
    omega
  | cons_cons field _ ih =>
    rw [length_encode_cons, length_encode_cons]
    omega

theorem length_delimited (content : Bytes) :
    (delimited content).length = (Varint.encode content.length).length + content.length := by
  rw [delimited, List.length_append]

theorem length_key_of_lt {tag : Nat} (h : tag < 16) (type : WireType) :
    (key tag type).length = 1 := by
  have hnumber : type.number < 8 := by cases type <;> decide
  have hlow : 8 * tag + type.number < 128 := by omega
  simp [key, Varint.encode, Varint.groups, hlow]

section

variable {α : Type} {find : Field → Option α} {make : α → Field} (tag : Nat) (fields : List Field)

/-- What is found of some kind, written again, is part of what it was found in. -/
theorem sublist_map_filterMap (h : ∀ {field value}, find field = some value → field = make value) :
    ((fields.filterMap find).map make).Sublist fields := by
  induction fields with
  | nil => exact .slnil
  | cons field fields ih =>
    cases hfind : find field with
    | none =>
      rw [List.filterMap_cons_none hfind]
      exact ih.cons field
    | some value =>
      rw [List.filterMap_cons_some hfind, List.map_cons, ← h hfind]
      exact ih.cons_cons field

theorem sublist_toList_getLast? (list : List α) : list.getLast?.toList.Sublist list := by
  cases hlast : list.getLast? with
  | none => exact List.nil_sublist list
  | some last => exact List.singleton_sublist.mpr (List.mem_of_getLast? hlast)

theorem Field.eq_text_of_textAt {field : Field} {value : String}
    (h : field.textAt tag = some value) : field = .text tag value := by
  cases field with
  | text =>
    rw [textAt] at h
    split at h
    · next htag =>
      cases h
      rw [htag]
    · cases h
  | _ => cases h

theorem Field.eq_octets_of_octetsAt {field : Field} {value : Bytes}
    (h : field.octetsAt tag = some value) : field = .octets tag value := by
  cases field with
  | octets =>
    rw [octetsAt] at h
    split at h
    · next htag =>
      cases h
      rw [htag]
    · cases h
  | _ => cases h

theorem length_encode_texts :
    (encode ((texts tag fields).map (.text tag))).length ≤ (encode fields).length :=
  length_encode_le_of_sublist (sublist_map_filterMap fields (Field.eq_text_of_textAt tag))

theorem length_encode_optionalText :
    (encode (optionalText tag (text? tag fields))).length ≤ (encode fields).length := by
  have hlast : (text? tag fields).toList.Sublist (texts tag fields) := sublist_toList_getLast? _
  have htexts := length_encode_texts tag fields
  exact Nat.le_trans (length_encode_le_of_sublist (hlast.map _)) htexts

theorem length_encode_optionalOctets :
    (encode ((octets? tag fields).toList.map (.octets tag))).length ≤ (encode fields).length := by
  have hlast : (octets? tag fields).toList.Sublist (fields.filterMap (Field.octetsAt tag)) :=
    sublist_toList_getLast? _
  have hfound := sublist_map_filterMap fields (Field.eq_octets_of_octetsAt tag)
  exact length_encode_le_of_sublist ((hlast.map _).trans hfound)

theorem Field.eq_message_of_bodyAt {field : Field} {body : List Field}
    (h : field.bodyAt tag = some body) : field = .message tag body := by
  cases field with
  | message =>
    rw [bodyAt] at h
    split at h
    · next htag =>
      cases h
      rw [htag]
    · cases h
  | _ => cases h

/-- What bodies take at least: the bytes of their fields, and one each for key and length. -/
def spent : List (List Field) → Nat
  | [] => 0
  | body :: list => (encode body).length + 2 + spent list

theorem spent_bodies_le : spent (bodies tag fields) ≤ (encode fields).length := by
  induction fields with
  | nil => exact Nat.le_refl 0
  | cons field fields ih =>
    rw [length_encode_cons]
    cases hbody : field.bodyAt tag with
    | none =>
      have hbodies : bodies tag (field :: fields) = bodies tag fields :=
        List.filterMap_cons_none hbody
      rw [hbodies]
      omega
    | some body =>
      have hbodies : bodies tag (field :: fields) = body :: bodies tag fields :=
        List.filterMap_cons_some hbody
      have hkey := length_key_pos tag .lengthDelimited
      have hlength := Varint.length_encode_pos (encode body).length
      rw [hbodies, spent, Field.eq_message_of_bodyAt tag hbody, Field.encode, List.length_append,
        length_delimited]
      omega

/-- Written in other ways, bodies take no more than a multiple of what they took. -/
theorem length_encode_map_bodies {factor : Nat} {write : List Field → Field}
    (h : ∀ body, (write body).encode.length ≤ factor * ((encode body).length + 2)) :
    (encode ((bodies tag fields).map write)).length ≤ factor * (encode fields).length := by
  have hspent := spent_bodies_le tag fields
  have hwritten (list : List (List Field)) : (encode (list.map write)).length ≤
      factor * spent list := by
    induction list with
    | nil => simp [encode]
    | cons body list ih =>
      have hbody := h body
      rw [List.map_cons, spent, length_encode_cons, Nat.mul_add]
      omega
  exact Nat.le_trans (hwritten _) (Nat.mul_le_mul_left factor hspent)

theorem length_encode_of_body? {body : List Field} (h : body? tag fields = some body) :
    (encode body).length ≤ (encode fields).length := by
  have hspent := spent_bodies_le tag fields
  have hflatten (list : List (List Field)) : (encode list.flatten).length ≤ spent list := by
    induction list with
    | nil => exact Nat.le_refl 0
    | cons body list ih =>
      rw [List.flatten_cons, length_encode_append, spent]
      omega
  rw [body?] at h
  split at h
  · cases h
  · cases h
    exact Nat.le_trans (hflatten _) hspent

end

section

variable {input left : Input} {tag value : Nat} {type : WireType}

theorem length_encode_of_readVarint (h : input.readVarint = .ok (value, left)) :
    (Varint.encode value).length + left.size ≤ input.size := by
  obtain ⟨taken, -, hle, rfl, hread⟩ := exists_of_readVarint h
  have hshort := Varint.length_groups_le_taken hread 10
  change (Varint.encode value).length + (input.size - taken) ≤ input.size
  rw [Varint.encode]
  omega

theorem number_of_ofNumber? {number : Nat} (h : WireType.ofNumber? number = some type) :
    type.number = number := by
  unfold WireType.ofNumber? at h
  split at h <;> cases h <;> rfl

/-- A key is the number that it is written as. -/
theorem readVarint_of_readKey (h : input.readKey = .ok (tag, type, left)) :
    input.readVarint = .ok (8 * tag + type.number, left) := by
  obtain ⟨⟨key, rest⟩, hkey, hrest⟩ := exists_of_bind_eq_ok h
  dsimp only at hrest
  split at hrest
  · cases hrest
  cases htype : WireType.ofNumber? (key % 8) with
  | none =>
    rw [htype] at hrest
    cases hrest
  | some found =>
    rw [htype] at hrest
    dsimp only at hrest
    split at hrest
    · cases hrest
    · cases hrest
      have hnumber := number_of_ofNumber? htype
      have hsplit : 8 * (key / 8) + type.number = key := by omega
      rw [hkey, hsplit]

theorem length_key_of_readKey (h : input.readKey = .ok (tag, type, left)) :
    (key tag type).length + left.size ≤ input.size :=
  length_encode_of_readVarint (readVarint_of_readKey h)

theorem length_delimited_of_readDelimited {content : Bytes}
    (h : input.readDelimited = .ok (content, left)) :
    (delimited content).length + left.size ≤ input.size := by
  obtain ⟨⟨length, rest⟩, hlength, hrest⟩ := exists_of_bind_eq_ok h
  have hprefix := length_encode_of_readVarint hlength
  dsimp only at hrest
  split at hrest
  · cases hrest
  · next hle =>
    cases hrest
    have hcontent : (rest.bytes.take length).length = length := length_take_bytes (by omega)
    have hleft : (rest.drop length).size = rest.size - length := rfl
    rw [length_delimited, hcontent, hleft]
    omega

end

/-- What the reader gives takes no more bytes than the reader took. -/
def FieldReader.Economical (readField : FieldReader) : Prop :=
  ∀ {input left : Input} {field? : Option Field}, readField input = .ok (field?, left) →
    (encode field?.toList).length + left.size ≤ input.size

section

variable {readField : FieldReader} (heconomical : readField.Economical) {input left : Input}
  {fields : List Field}

include heconomical

theorem length_encode_of_readFields {stop n : Nat}
    (h : readFields readField stop n input = .ok (fields, left)) :
    (encode fields).length + left.size ≤ input.size := by
  induction n generalizing input fields with
  | zero =>
    cases h
    simp [encode]
  | succ n ih =>
    rw [readFields] at h
    split at h
    · cases h
      simp [encode]
    · obtain ⟨⟨field?, middle⟩, hfield, hnext⟩ := exists_of_bind_eq_ok h
      obtain ⟨⟨more, rest⟩, hmore, hok⟩ := exists_of_bind_eq_ok hnext
      cases hok
      have hfirst := heconomical hfield
      have hrest := ih hmore
      rw [length_encode_append]
      omega

theorem length_delimited_of_readBody (h : readBody readField input = .ok (fields, left)) :
    (delimited (encode fields)).length + left.size ≤ input.size := by
  obtain ⟨⟨length, rest⟩, hlength, hrest⟩ := exists_of_bind_eq_ok h
  have hprefix := length_encode_of_readVarint (eq_ok_of_mapError hlength)
  dsimp only at hrest
  split at hrest
  · cases hrest
  · next hle =>
    obtain ⟨⟨found, last⟩, hfields, hok⟩ := exists_of_bind_eq_ok hrest
    dsimp only at hok
    split at hok
    · next hstop =>
      cases hok
      have hbody := length_encode_of_readFields heconomical hfields
      have hcontent : (encode fields).length ≤ length := by omega
      -- a shorter body has a length that is no longer to write
      have hmono : (Varint.encode (encode fields).length).length ≤ (Varint.encode length).length :=
        Varint.length_groups_mono hcontent 10
      rw [length_delimited]
      omega
    · cases hok

end

section

variable {S : Type} {enter? : Option (S → FieldReader)} {input left : Input} {depth : Nat}

theorem length_encode_of_readContent
    (henter : ∀ enter, enter? = some enter → ∀ shape, (enter shape).Economical)
    {content : Content S} {tag : Nat} {type : WireType} {field : Field}
    (h : readContent enter? tag type input content = .ok (field, left)) :
    field.encode.length + left.size ≤ (key tag type).length + input.size := by
  cases content with
  | varint =>
    obtain ⟨_, hrequire, hread⟩ := exists_of_bind_eq_ok (eq_ok_of_mapError h)
    obtain ⟨⟨value, rest⟩, hvalue, hok⟩ := exists_of_bind_eq_ok hread
    obtain rfl := eq_of_require hrequire
    cases hok
    have hlength := length_encode_of_readVarint hvalue
    rw [Field.encode, List.length_append]
    omega
  | octets =>
    obtain ⟨_, hrequire, hread⟩ := exists_of_bind_eq_ok (eq_ok_of_mapError h)
    obtain ⟨⟨value, rest⟩, hvalue, hok⟩ := exists_of_bind_eq_ok hread
    obtain rfl := eq_of_require hrequire
    cases hok
    have hlength := length_delimited_of_readDelimited hvalue
    rw [Field.encode, List.length_append]
    omega
  | text =>
    obtain ⟨_, hrequire, hread⟩ := exists_of_bind_eq_ok (eq_ok_of_mapError h)
    obtain ⟨⟨value, rest⟩, hvalue, hok⟩ := exists_of_bind_eq_ok hread
    obtain rfl := eq_of_require hrequire
    have hlength := length_delimited_of_readDelimited hvalue
    dsimp only at hok
    cases htext : Utf8.decode? value with
    | none =>
      rw [htext] at hok
      cases hok
    | some text =>
      rw [htext] at hok
      cases hok
      rw [Field.encode, List.length_append, Utf8.encode_of_decode? htext]
      omega
  | body shape =>
    obtain ⟨_, hrequire, hread⟩ := exists_of_bind_eq_ok h
    obtain rfl := eq_of_require (eq_ok_of_mapError hrequire)
    cases enter? with
    | none => cases hread
    | some enter =>
      obtain ⟨⟨body, rest⟩, hbody, hok⟩ := exists_of_bind_eq_ok hread
      cases hok
      have hlength := length_delimited_of_readBody (henter enter rfl shape) hbody
      rw [Field.encode, List.length_append]
      omega

theorem economical_readFieldOf (layout : Layout S)
    (henter : ∀ enter, enter? = some enter → ∀ shape, (enter shape).Economical) :
    FieldReader.Economical (readFieldOf layout depth enter?) := by
  intro input left field? h
  obtain ⟨⟨tag, type, rest⟩, hread, hcontent⟩ := exists_of_bind_eq_ok h
  have hkey := length_key_of_readKey (eq_ok_of_mapError hread)
  dsimp only at hcontent
  cases hrule : layout.rule? tag with
  | none =>
    rw [hrule] at hcontent
    obtain ⟨last, hskip, hok⟩ := exists_of_bind_eq_ok hcontent
    cases hok
    have hsize := (took_skipContent (eq_ok_of_mapError hskip)).size_le
    simp only [Option.toList_none, encode, List.length_nil]
    omega
  | some rule =>
    rw [hrule] at hcontent
    obtain ⟨⟨field, last⟩, hfield, hok⟩ := exists_of_bind_eq_ok hcontent
    cases hok
    have hlength := length_encode_of_readContent henter (eq_ok_of_mapError hfield)
    simp only [Option.toList_some, encode, List.append_nil]
    omega

variable {layouts : S → Layout S}

theorem economical_readField (depth : Nat) (shape : S) :
    (readField layouts depth shape).Economical := by
  induction depth generalizing shape with
  | zero =>
    apply economical_readFieldOf
    intro enter henter
    cases henter
  | succ depth ih =>
    apply economical_readFieldOf
    intro enter henter inner
    cases henter
    exact ih inner

/-- **Fields take no more bytes than they were read from.** -/
theorem length_encode_le_of_decode {shape : S} {bytes : Bytes} {fields : List Field}
    (h : decode layouts shape bytes = .ok fields) : (encode fields).length ≤ bytes.length := by
  obtain ⟨⟨found, left⟩, hread, hok⟩ := exists_of_bind_eq_ok h
  cases hok
  have hlength := length_encode_of_readFields (economical_readField depthLimit shape) hread
  have hsize : (ofBytes bytes).size = bytes.length := rfl
  omega

end

end StepRunner.Wire
