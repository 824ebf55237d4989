import StepRunner.Proofs.Wire.Agreement
import StepRunner.Proofs.Wire.Reading

namespace StepRunner.Wire

open Input

/-- The bytes of one field, known or not, that can be read on their own. -/
structure Piece {S : Type} (layouts : S → Layout S) (depth : Nat) (shape : S) where
  bytes : Bytes
  field? : Option Field
  reads : readField layouts depth shape (ofBytes bytes) = .ok (field?, ofBytes [])

namespace Piece

variable {S : Type} {layouts : S → Layout S} {depth : Nat} {shape : S}

/-- The tag that the field begins with. -/
def tag (piece : Piece layouts depth shape) : Nat :=
  match (ofBytes piece.bytes).readKey with
  | .ok (tag, _, _) => tag
  | .error _ => 0

/-- The layout has no rule for the field. -/
def Unknown (piece : Piece layouts depth shape) : Prop := (layouts shape).rule? piece.tag = none

def join (pieces : List (Piece layouts depth shape)) : Bytes := pieces.flatMap bytes

/-- The fields that are known. -/
def fields (pieces : List (Piece layouts depth shape)) : List Field := pieces.filterMap field?

/-- Fields with one tag keep their order. -/
def Reorders (pieces others : List (Piece layouts depth shape)) : Prop :=
  ∀ tag, others.filter (·.tag = tag) = pieces.filter (·.tag = tag)

/-- Fields of some kind were put in between. -/
inductive Inserts (kind : Piece layouts depth shape → Prop) :
    List (Piece layouts depth shape) → List (Piece layouts depth shape) → Prop
  | nil : Inserts kind [] []
  | keep (piece : Piece layouts depth shape) {pieces others : List (Piece layouts depth shape)}
      (hrest : Inserts kind pieces others) : Inserts kind (piece :: pieces) (piece :: others)
  | insert (piece : Piece layouts depth shape) {pieces others : List (Piece layouts depth shape)}
      (hkind : kind piece) (hrest : Inserts kind pieces others) :
      Inserts kind pieces (piece :: others)

section

variable (piece : Piece layouts depth shape)

theorem takes : Takes (readField layouts depth shape) piece.bytes (piece.field?, ·) :=
  (took_readField piece.reads).1.takes

theorem bytes_ne_nil : piece.bytes ≠ [] := by
  intro hnil
  have hsize := (took_readField piece.reads).2.1
  rw [hnil] at hsize
  exact Nat.lt_irrefl _ hsize

/-- A field is known by its tag. -/
theorem isSome_field?_and_tag :
    ((layouts shape).rule? piece.tag).isSome = piece.field?.isSome ∧
      ∀ field ∈ piece.field?, field.tag = piece.tag := by
  obtain ⟨tag, type, rest, hkey, hknown⟩ := (took_readField piece.reads).2.2
  have htag : piece.tag = tag := by rw [Piece.tag, hkey]
  rw [htag]
  exact hknown

theorem field?_of_unknown {piece : Piece layouts depth shape} (h : piece.Unknown) :
    piece.field? = none := by
  have hsome := piece.isSome_field?_and_tag.1
  rw [h] at hsome
  exact Option.not_isSome_iff_eq_none.mp (by rw [← hsome]; simp)

end

theorem fields_cons (piece : Piece layouts depth shape)
    (pieces : List (Piece layouts depth shape)) :
    fields (piece :: pieces) = piece.field?.toList ++ fields pieces := by
  rw [fields, List.filterMap_cons]
  cases piece.field? <;> rfl

section

variable (pieces : List (Piece layouts depth shape))

/-- A row is read as its fields. -/
theorem takesFields_join :
    TakesFields (readField layouts depth shape) (join pieces) (fields pieces) := by
  induction pieces with
  | nil => exact .nil
  | cons piece pieces ih =>
    rw [fields_cons]
    exact .cons piece.bytes_ne_nil piece.takes ih

theorem decode_join (pieces : List (Piece layouts depthLimit shape)) :
    decode layouts shape (join pieces) = .ok (fields pieces) :=
  decode_of_takesFields (takesFields_join pieces)

/-- Fields that were read were a row, which ended before the bytes that are left. -/
theorem exists_join_of_readFields {stop n : Nat} {input left : Input} {found : List Field}
    (h : readFields (readField layouts depth shape) stop n input = .ok (found, left))
    (hn : input.size ≤ stop + n) :
    left.size ≤ stop ∧ ∃ pieces : List (Piece layouts depth shape),
      input.bytes = join pieces ++ left.bytes := by
  induction n generalizing input found with
  | zero =>
    cases h
    exact ⟨hn, [], rfl⟩
  | succ n ih =>
    rw [readFields] at h
    split at h
    · next hstop =>
      cases h
      exact ⟨hstop, [], rfl⟩
    · obtain ⟨⟨field?, middle⟩, hfield, hnext⟩ := exists_of_bind_eq_ok h
      obtain ⟨⟨more, rest⟩, hmore, hok⟩ := exists_of_bind_eq_ok hnext
      cases hok
      obtain ⟨⟨bytes, hbytes, htakes⟩, hsize, -⟩ := took_readField hfield
      obtain ⟨hleft, pieces, hpieces⟩ := ih hmore (by omega)
      have hreads := htakes []
      rw [List.append_nil] at hreads
      refine ⟨hleft, ⟨bytes, field?, hreads⟩ :: pieces, ?_⟩
      rw [hbytes, hpieces, ← List.append_assoc]
      rfl

/-- Whatever can be decoded is a row of fields. -/
theorem exists_join_of_decode {bytes : Bytes} {found : List Field}
    (h : decode layouts shape bytes = .ok found) :
    ∃ pieces : List (Piece layouts depthLimit shape), bytes = join pieces := by
  obtain ⟨⟨fields, left⟩, hread, -⟩ := exists_of_bind_eq_ok h
  obtain ⟨hleft, pieces, hpieces⟩ := exists_join_of_readFields hread (Nat.le_add_left _ _)
  have hnil : left.bytes = [] := List.length_eq_zero_iff.mp (by rw [← left.size_eq]; omega)
  rw [hnil, List.append_nil] at hpieces
  exact ⟨pieces, hpieces⟩

/-- A body is read from its length, however it is written, and the row of its fields. -/
theorem takes_readBody_join {size : Bytes}
    (hsize : Takes readVarint size ((join pieces).length, ·)) :
    Takes (readBody (readField layouts depth shape)) (size ++ join pieces) (fields pieces, ·) :=
  takes_readBody hsize (takesFields_join pieces)

/-- The known fields with a tag are found in the pieces with that tag. -/
theorem filter_fields (tag : Nat) :
    (fields pieces).filter (·.tag = tag) = fields (pieces.filter (·.tag = tag)) := by
  induction pieces with
  | nil => rfl
  | cons piece pieces ih =>
    have htag := piece.isSome_field?_and_tag.2
    rw [List.filter_cons]
    rw [fields_cons, List.filter_append, ih]
    cases hfield : piece.field? with
    | none =>
      split
      · rw [fields_cons, hfield]
        rfl
      · rfl
    | some field =>
      rw [Option.toList_some, List.filter_cons, htag field hfield]
      split
      · rw [fields_cons, hfield]
        rfl
      · rfl

end

section

variable {pieces others : List (Piece layouts depth shape)}
  {kind : Piece layouts depth shape → Prop}

theorem agreeAt_of_filter {tag : Nat}
    (h : others.filter (·.tag = tag) = pieces.filter (·.tag = tag)) :
    AgreeAt tag (fields pieces) (fields others) := by
  rw [AgreeAt, filter_fields, filter_fields, h]

theorem Reorders.agreeAt (h : Reorders pieces others) (tag : Nat) :
    AgreeAt tag (fields pieces) (fields others) :=
  agreeAt_of_filter (h tag)

/-- What was put in does not show under a tag that it does not have. -/
theorem Inserts.agreeAt {tag : Nat} (h : Inserts kind pieces others)
    (htag : ∀ piece, kind piece → piece.tag ≠ tag) :
    AgreeAt tag (fields pieces) (fields others) := by
  apply agreeAt_of_filter
  induction h with
  | nil => rfl
  | keep piece _ ih => rw [List.filter_cons, List.filter_cons, ih]
  | insert piece hkind _ ih =>
    have hne := htag piece hkind
    rw [List.filter_cons, if_neg (by simpa using hne), ih]

/-- Unknown fields do not show at all. -/
theorem Inserts.fields_eq (h : Inserts Unknown pieces others) : fields others = fields pieces := by
  induction h with
  | nil => rfl
  | keep piece _ ih => rw [fields_cons, fields_cons, ih]
  | insert piece hkind _ ih =>
    rw [fields_cons, field?_of_unknown hkind, ih]
    rfl

end

/-- The bytes of a message, or of a body somewhere in it, with fields reordered tag by tag or
unknown ones put in. -/
inductive Rearranges (layouts : S → Layout S) : Nat → S → Bytes → Bytes → Prop
  | reorder {depth : Nat} {shape : S} {pieces others : List (Piece layouts depth shape)}
      (h : Reorders pieces others) : Rearranges layouts depth shape (join pieces) (join others)
  | insert {depth : Nat} {shape : S} {pieces others : List (Piece layouts depth shape)}
      (h : Inserts Unknown pieces others) :
      Rearranges layouts depth shape (join pieces) (join others)
  | inside {depth tag : Nat} {shape inner : S} {name : String} {key size body size' body' : Bytes}
      (before after : List (Piece layouts (depth + 1) shape))
      (hrule : (layouts shape).rule? tag = some ⟨tag, name, .body inner⟩)
      (hkey : Takes readKey key (tag, .lengthDelimited, ·))
      (hsize : Takes readVarint size (body.length, ·))
      (hsize' : Takes readVarint size' (body'.length, ·))
      (h : Rearranges layouts depth inner body body') :
      Rearranges layouts (depth + 1) shape (join before ++ (key ++ (size ++ body)) ++ join after)
        (join before ++ (key ++ (size' ++ body')) ++ join after)

/-- The field of a body that is a row of fields. -/
def ofBody {tag : Nat} {inner : S} {name : String} {key size : Bytes}
    (hrule : (layouts shape).rule? tag = some ⟨tag, name, .body inner⟩)
    (hkey : Takes readKey key (tag, .lengthDelimited, ·))
    (body : List (Piece layouts depth inner))
    (hsize : Takes readVarint size ((join body).length, ·)) : Piece layouts (depth + 1) shape where
  bytes := key ++ (size ++ join body)
  field? := some (.message tag (fields body))
  reads := by
    have hbody := takes_readBody_join body hsize []
    have hread := hkey (size ++ join body)
    rw [List.append_nil] at hbody
    rw [readField, readFieldOf, hread]
    simp only [bind, Except.bind, mapError_ok, hrule, readContent, require, if_true, hbody]

/-- Rearranged bytes are rows of fields that are alike. -/
theorem Rearranges.exists_alike {bytes others : Bytes}
    (h : Rearranges layouts depth shape bytes others) :
    ∃ row row' : List (Piece layouts depth shape), bytes = join row ∧ others = join row' ∧
      Alike (fields row) (fields row') := by
  induction h with
  | reorder h => exact ⟨_, _, rfl, rfl, .agree h.agreeAt⟩
  | insert h =>
    refine ⟨_, _, rfl, rfl, ?_⟩
    rw [h.fields_eq]
    exact .refl _
  | @inside depth tag shape inner name key size body size' body' before after hrule hkey hsize
      hsize' _ ih =>
    obtain ⟨row, row', rfl, rfl, halike⟩ := ih
    refine ⟨before ++ ofBody hrule hkey row hsize :: after,
      before ++ ofBody hrule hkey row' hsize' :: after, ?_, ?_, ?_⟩
    · simp [join, ofBody]
    · simp [join, ofBody]
    · have hfields (row : List (Piece layouts depth inner)) {size : Bytes}
          (hsize : Takes readVarint size ((join row).length, ·)) :
          fields (before ++ ofBody hrule hkey row hsize :: after) =
            fields before ++ .message tag (fields row) :: fields after := by
        simp [fields, ofBody]
      rw [hfields, hfields]
      exact .inside _ _ tag halike

end Piece

end StepRunner.Wire
