import StepRunner.Proofs.Wire.Reading

namespace StepRunner.Wire

namespace Input

theorem readVarint_encode {n : Nat} (hn : n < UInt64.size) (rest : Bytes) :
    (ofBytes (Varint.encode n ++ rest)).readVarint = .ok (n, ofBytes rest) := by
  have h : Varint.decode (ofBytes (Varint.encode n ++ rest)).bytes = _ :=
    Varint.decode_encode n rest hn
  rw [readVarint, h]
  dsimp only
  rw [drop_ofBytes_append rest rfl]

theorem readKey_key {tag : Nat} {type : WireType} (hpos : 0 < tag)
    (hlt : 8 * tag + 7 < UInt32.size) (rest : Bytes) :
    (ofBytes (key tag type ++ rest)).readKey = .ok (tag, type, ofBytes rest) := by
  have htype : type.number < 8 := by cases type <;> decide
  have hkey : 8 * tag + type.number < UInt32.size := by omega
  have hsize : UInt32.size < UInt64.size := by decide
  have hmod : (8 * tag + type.number) % 8 = type.number := by omega
  have hdiv : (8 * tag + type.number) / 8 = tag := by omega
  rw [readKey, key, readVarint_encode (by omega)]
  simp only [bind, Except.bind, Nat.not_le.mpr hkey, hmod, hdiv, WireType.ofNumber?_number,
    Nat.ne_of_gt hpos, if_false]

theorem readDelimited_delimited {content : Bytes} (h : content.length < UInt64.size)
    (rest : Bytes) :
    (ofBytes (delimited content ++ rest)).readDelimited = .ok (content, ofBytes rest) := by
  rw [readDelimited, delimited, List.append_assoc, readVarint_encode h]
  simp only [bind, Except.bind]
  rw [if_neg (by simp [ofBytes]), drop_ofBytes_append rest rfl]
  simp [ofBytes]

end Input

open Input

/-- The layout has a rule for a tag that a key can carry. -/
structure Layout.Knows {S : Type} (layout : Layout S) (tag : Nat) (content : Content S) : Prop where
  rule : ∃ name, layout.rule? tag = some ⟨tag, name, content⟩
  pos : 0 < tag
  lt : 8 * tag + 7 < UInt32.size

/-- A field that a message of the given shape may have, with at most `depth` bodies inside one
another. -/
inductive Field.Conforms {S : Type} (layouts : S → Layout S) : Nat → S → Field → Prop
  | varint {depth : Nat} {shape : S} {tag value : Nat} (hk : (layouts shape).Knows tag .varint)
      (hv : value < UInt64.size) : Conforms layouts depth shape (.varint tag value)
  | octets {depth : Nat} {shape : S} {tag : Nat} {value : Bytes}
      (hk : (layouts shape).Knows tag .octets) : Conforms layouts depth shape (.octets tag value)
  | text {depth : Nat} {shape : S} {tag : Nat} {value : String}
      (hk : (layouts shape).Knows tag .text) : Conforms layouts depth shape (.text tag value)
  | message {depth : Nat} {shape inner : S} {tag : Nat} {body : List Field}
      (hk : (layouts shape).Knows tag (.body inner))
      (hb : ∀ field ∈ body, Conforms layouts depth inner field) :
      Conforms layouts (depth + 1) shape (.message tag body)

section

variable {S : Type} {enter? : Option (S → FieldReader)} {tag : Nat} (rest : Bytes)

theorem readContent_varint {value : Nat} (h : value < UInt64.size) :
    readContent enter? tag .varint (ofBytes (Varint.encode value ++ rest)) .varint =
      .ok (.varint tag value, ofBytes rest) := by
  simp only [readContent, require, if_true, readVarint_encode h, bind, Except.bind,
    mapError_ok]

theorem readContent_octets {value : Bytes} (h : value.length < UInt64.size) :
    readContent enter? tag .lengthDelimited (ofBytes (delimited value ++ rest)) .octets =
      .ok (.octets tag value, ofBytes rest) := by
  simp only [readContent, require, if_true, readDelimited_delimited h, bind, Except.bind,
    mapError_ok]

theorem readContent_text {value : String} (h : (Utf8.encode value).length < UInt64.size) :
    readContent enter? tag .lengthDelimited (ofBytes (delimited (Utf8.encode value) ++ rest))
      .text = .ok (.text tag value, ofBytes rest) := by
  simp only [readContent, require, if_true, readDelimited_delimited h, Utf8.decode?_encode, bind,
    Except.bind, mapError_ok]

theorem readFieldOf_key {layout : Layout S} {depth : Nat} {content : Content S} {type : WireType}
    {bytes : Bytes} {field : Field} (hk : layout.Knows tag content)
    (hc : readContent enter? tag type (ofBytes bytes) content = .ok (field, ofBytes rest)) :
    readFieldOf layout depth enter? (ofBytes (key tag type ++ bytes)) =
      .ok (some field, ofBytes rest) := by
  obtain ⟨name, hrule⟩ := hk.rule
  simp only [readFieldOf, readKey_key hk.pos hk.lt, hrule, hc, bind, Except.bind, mapError_ok]

end

theorem length_key_pos (tag : Nat) (type : WireType) : 0 < (key tag type).length := by
  rw [key, Varint.encode, Varint.groups]
  split <;> simp

theorem Field.length_encode_pos (field : Field) : 0 < field.encode.length := by
  have h := length_key_pos field.tag
  cases field <;> simp only [Field.encode, Field.tag, List.length_append] at h ⊢ <;>
    exact Nat.lt_of_lt_of_le (h _) (Nat.le_add_right _ _)

/-- Reading fields one by one gives all that were written. -/
theorem takesFields_encode {readField : FieldReader} {fields : List Field}
    (h : ∀ field ∈ fields, Takes readField field.encode (some field, ·)) :
    TakesFields readField (encode fields) fields := by
  induction fields with
  | nil => exact .nil
  | cons field fields ih =>
    have hne : field.encode ≠ [] := List.ne_nil_of_length_pos field.length_encode_pos
    have hfields := ih fun other hmem => h other (List.mem_cons_of_mem field hmem)
    exact .cons hne (h field List.mem_cons_self) hfields

theorem length_encode_le_of_mem {field : Field} {fields : List Field} (h : field ∈ fields) :
    field.encode.length ≤ (encode fields).length := by
  induction fields with
  | nil => cases h
  | cons first fields ih =>
    rw [encode, List.length_append]
    rcases List.mem_cons.mp h with rfl | h
    · exact Nat.le_add_right _ _
    · exact Nat.le_trans (ih h) (Nat.le_add_left _ _)

theorem length_le_delimited (content : Bytes) : content.length ≤ (delimited content).length := by
  rw [delimited, List.length_append]
  exact Nat.le_add_left _ _

section

variable {S : Type} {layouts : S → Layout S} {depth : Nat} {shape : S} {field : Field}

theorem exists_readField_eq (layouts : S → Layout S) (depth : Nat) (shape : S) :
    ∃ enter?, readField layouts depth shape = readFieldOf (layouts shape) depth enter? := by
  cases depth with
  | zero => exact ⟨none, rfl⟩
  | succ depth => exact ⟨some (readField layouts depth), rfl⟩

/-- **A known field is read back,** and the bytes after it are left. -/
theorem takes_readField_encode (h : field.Conforms layouts depth shape)
    (hlen : field.encode.length < UInt64.size) :
    Takes (readField layouts depth shape) field.encode (some field, ·) := by
  induction h with
  | @varint depth shape tag value hk hv =>
    intro rest
    obtain ⟨enter?, hread⟩ := exists_readField_eq layouts depth shape
    rw [hread, Field.encode, List.append_assoc]
    exact readFieldOf_key rest hk (readContent_varint rest hv)
  | @octets depth shape tag value hk =>
    intro rest
    obtain ⟨enter?, hread⟩ := exists_readField_eq layouts depth shape
    have hvalue := length_le_delimited value
    rw [Field.encode, List.length_append] at hlen
    rw [hread, Field.encode, List.append_assoc]
    exact readFieldOf_key rest hk (readContent_octets rest (by omega))
  | @text depth shape tag value hk =>
    intro rest
    obtain ⟨enter?, hread⟩ := exists_readField_eq layouts depth shape
    have hvalue := length_le_delimited (Utf8.encode value)
    rw [Field.encode, List.length_append] at hlen
    rw [hread, Field.encode, List.append_assoc]
    exact readFieldOf_key rest hk (readContent_text rest (by omega))
  | @message depth shape inner tag body hk hb ih =>
    intro rest
    have hbody := length_le_delimited (encode body)
    rw [Field.encode, List.length_append] at hlen
    have hfields : TakesFields (readField layouts depth inner) (encode body) body := by
      refine takesFields_encode fun field hmem => ?_
      have hfield := length_encode_le_of_mem hmem
      exact ih field hmem (by omega)
    have hread : readBody (readField layouts depth inner)
        (ofBytes (delimited (encode body) ++ rest)) = .ok (body, ofBytes rest) :=
      takes_readBody (readVarint_encode (by omega)) hfields rest
    rw [readField, Field.encode, List.append_assoc]
    refine readFieldOf_key rest hk ?_
    simp only [readContent, require, if_true, hread, bind, Except.bind, mapError_ok]

/-- **Decoding inverts encoding** on the fields that a message of the shape may have. -/
theorem decode_encode_fields {fields : List Field}
    (h : ∀ field ∈ fields, field.Conforms layouts depthLimit shape)
    (hlen : (encode fields).length < UInt64.size) :
    decode layouts shape (encode fields) = .ok fields := by
  refine decode_of_takesFields (takesFields_encode fun field hmem => ?_)
  have hfield := length_encode_le_of_mem hmem
  exact takes_readField_encode (h field hmem) (by omega)

end

end StepRunner.Wire
