import StepRunner.Wire.Field

namespace StepRunner.Wire

namespace Field

variable {field : Field} {tag : Nat} (h : field.tag ≠ tag)

include h

theorem varintAt_of_ne : field.varintAt tag = none := by
  cases field with
  | varint => exact if_neg h
  | _ => rfl

theorem octetsAt_of_ne : field.octetsAt tag = none := by
  cases field with
  | octets => exact if_neg h
  | _ => rfl

theorem textAt_of_ne : field.textAt tag = none := by
  cases field with
  | text => exact if_neg h
  | _ => rfl

theorem bodyAt_of_ne : field.bodyAt tag = none := by
  cases field with
  | message => exact if_neg h
  | _ => rfl

end Field

/-- The fields with this tag are the same, in the same order. -/
def AgreeAt (tag : Nat) (fields others : List Field) : Prop :=
  others.filter (·.tag = tag) = fields.filter (·.tag = tag)

namespace AgreeAt

variable {tag : Nat} {fields others : List Field}

theorem refl (tag : Nat) (fields : List Field) : AgreeAt tag fields fields := rfl

theorem append {more moreOthers : List Field} (h : AgreeAt tag fields others)
    (h' : AgreeAt tag more moreOthers) : AgreeAt tag (fields ++ more) (others ++ moreOthers) := by
  rw [AgreeAt, List.filter_append, List.filter_append, h, h']

/-- What is only found in fields with the tag is found alike. -/
theorem filterMap {α : Type} {find : Field → Option α}
    (hfind : ∀ {field}, field.tag ≠ tag → find field = none) (h : AgreeAt tag fields others) :
    others.filterMap find = fields.filterMap find := by
  have hfilter (list : List Field) :
      (list.filter (·.tag = tag)).filterMap find = list.filterMap find := by
    rw [List.filterMap_filter]
    congr 1
    funext field
    by_cases htag : field.tag = tag
    · simp [htag]
    · simp [htag, hfind htag]
  rw [← hfilter others, h, hfilter fields]

theorem varint? (h : AgreeAt tag fields others) :
    Wire.varint? tag others = Wire.varint? tag fields := by
  rw [Wire.varint?, Wire.varint?, h.filterMap Field.varintAt_of_ne]

theorem bodies (h : AgreeAt tag fields others) :
    Wire.bodies tag others = Wire.bodies tag fields :=
  h.filterMap Field.bodyAt_of_ne

theorem body? (h : AgreeAt tag fields others) :
    Wire.body? tag others = Wire.body? tag fields := by
  rw [Wire.body?, Wire.body?, h.bodies]

end AgreeAt

/-- The same fields under each tag in the same order, but for one body exchanged for one that is
alike. -/
inductive Alike : List Field → List Field → Prop
  | agree {fields others : List Field} (h : ∀ tag, AgreeAt tag fields others) : Alike fields others
  | inside (before after : List Field) (tag : Nat) {body other : List Field}
      (hbody : Alike body other) :
      Alike (before ++ .message tag body :: after) (before ++ .message tag other :: after)

namespace Alike

theorem refl (fields : List Field) : Alike fields fields := .agree fun tag => .refl tag fields

/-- What is alike stays so between other fields. -/
theorem between {fields others : List Field} (h : Alike fields others) (before after : List Field) :
    Alike (before ++ fields ++ after) (before ++ others ++ after) := by
  cases h with
  | agree h =>
    refine .agree fun tag => ?_
    exact ((AgreeAt.refl tag before).append (h tag)).append (.refl tag after)
  | inside first last tag hbody =>
    have hinside := Alike.inside (before ++ first) (last ++ after) tag hbody
    simpa only [List.append_assoc, List.cons_append] using hinside

variable {fields others : List Field} (h : Alike fields others) (tag : Nat)

include h

/-- Fields other than bodies are found alike. -/
theorem filterMap {α : Type} {find : Field → Option α}
    (hfind : ∀ {field}, field.tag ≠ tag → find field = none)
    (hbody : ∀ tag body, find (.message tag body) = none) :
    others.filterMap find = fields.filterMap find := by
  cases h with
  | agree h => exact (h tag).filterMap hfind
  | inside before after bodyTag =>
    rw [List.filterMap_append, List.filterMap_append,
      List.filterMap_cons_none (hbody bodyTag _), List.filterMap_cons_none (hbody bodyTag _)]

theorem varint? : Wire.varint? tag others = Wire.varint? tag fields := by
  rw [Wire.varint?, Wire.varint?, h.filterMap tag Field.varintAt_of_ne fun _ _ => rfl]

theorem flag? : Wire.flag? tag others = Wire.flag? tag fields := by
  rw [Wire.flag?, Wire.flag?, h.varint?]

theorem octets? : Wire.octets? tag others = Wire.octets? tag fields := by
  rw [Wire.octets?, Wire.octets?, h.filterMap tag Field.octetsAt_of_ne fun _ _ => rfl]

theorem texts : Wire.texts tag others = Wire.texts tag fields :=
  h.filterMap tag Field.textAt_of_ne fun _ _ => rfl

theorem text? : Wire.text? tag others = Wire.text? tag fields := by
  rw [Wire.text?, Wire.text?, h.filterMap tag Field.textAt_of_ne fun _ _ => rfl]

/-- Of bodies the same is read one by one. -/
theorem map_bodies {α : Type} {read : List Field → α}
    (hread : ∀ {fields others}, Alike fields others → read others = read fields) :
    (bodies tag others).map read = (bodies tag fields).map read := by
  cases h with
  | agree h => rw [(h tag).bodies]
  | inside before after bodyTag hbody =>
    by_cases htag : bodyTag = tag
    · subst htag
      simp [bodies, Field.bodyAt, hread hbody]
    · simp [bodies, Field.bodyAt, htag]

/-- Bodies that amount to one are present alike, and are then alike. -/
theorem body? : (Wire.body? tag fields = none ∧ Wire.body? tag others = none) ∨
    ∃ body other, Wire.body? tag fields = some body ∧ Wire.body? tag others = some other ∧
      Alike body other := by
  cases h with
  | agree h =>
    rw [(h tag).body?]
    cases Wire.body? tag fields with
    | none => exact .inl ⟨rfl, rfl⟩
    | some body => exact .inr ⟨body, body, rfl, rfl, .refl body⟩
  | @inside before after bodyTag body other hbody =>
    by_cases htag : bodyTag = tag
    · subst htag
      have hbodies (body : List Field) :
          Wire.body? bodyTag (before ++ .message bodyTag body :: after) =
            some ((bodies bodyTag before).flatten ++ body ++ (bodies bodyTag after).flatten) := by
        have hsplit : bodies bodyTag (before ++ .message bodyTag body :: after) =
            bodies bodyTag before ++ body :: bodies bodyTag after := by
          simp [bodies, Field.bodyAt]
        rw [Wire.body?, hsplit]
        cases hbefore : bodies bodyTag before <;> simp
      exact .inr ⟨_, _, hbodies body, hbodies other, hbody.between _ _⟩
    · have hbodies (body : List Field) :
          bodies tag (before ++ .message bodyTag body :: after) =
            bodies tag before ++ bodies tag after := by
        simp [bodies, Field.bodyAt, htag]
      rw [Wire.body?, Wire.body?, hbodies body, hbodies other]
      cases bodies tag before ++ bodies tag after with
      | nil => exact .inl ⟨rfl, rfl⟩
      | cons first rest => exact .inr ⟨_, _, rfl, rfl, .refl _⟩

/-- Of bodies that amount to one the same is read. -/
theorem map_body? {α : Type} {read : List Field → α}
    (hread : ∀ {fields others}, Alike fields others → read others = read fields) :
    (Wire.body? tag others).map read = (Wire.body? tag fields).map read := by
  obtain ⟨hnone, hnone'⟩ | ⟨body, other, hbody, hother, halike⟩ := h.body? tag
  · rw [hnone, hnone']
  · rw [hbody, hother, Option.map_some, Option.map_some, hread halike]

theorem bind_body? {α : Type} {read : List Field → Option α}
    (hread : ∀ {fields others}, Alike fields others → read others = read fields) :
    (Wire.body? tag others).bind read = (Wire.body? tag fields).bind read := by
  obtain ⟨hnone, hnone'⟩ | ⟨body, other, hbody, hother, halike⟩ := h.body? tag
  · rw [hnone, hnone']
  · rw [hbody, hother, Option.bind_some, Option.bind_some, hread halike]

end Alike

end StepRunner.Wire
