import StepRunner.Message.Codec
import StepRunner.Proofs.Wire.Pieces

namespace StepRunner

open Wire

section

variable {fields others : List Field} (h : Alike fields others)

include h

theorem SpecInfo.ofFields_of_alike : ofFields others = ofFields fields := by
  rw [ofFields, ofFields, h.text?, h.text?, h.flag?, h.texts]

theorem ScenarioInfo.ofFields_of_alike : ofFields others = ofFields fields := by
  rw [ofFields, ofFields, h.text?, h.flag?, h.texts]

theorem ExecuteStepRequest.ofFields_of_alike : ofFields others = ofFields fields := by
  have hparameter {body other : List Field} (halike : Alike body other) :
      (text? 2 other).getD "" = (text? 2 body).getD "" := by rw [halike.text?]
  have hparameters := h.map_bodies 4 hparameter
  rw [ofFields, ofFields, h.text?, h.text?, h.flag?, hparameters]

theorem StepInfo.ofFields_of_alike : ofFields others = ofFields fields := by
  rw [ofFields, ofFields, h.flag?, h.bind_body? 1 fun halike => halike.text? 1]

theorem ExecutionInfo.ofFields_of_alike : ofFields others = ofFields fields := by
  rw [ofFields, ofFields, h.text?, h.map_body? 1 SpecInfo.ofFields_of_alike,
    h.map_body? 2 ScenarioInfo.ofFields_of_alike, h.map_body? 3 StepInfo.ofFields_of_alike]

theorem ExecutionResult.ofFields_of_alike : ofFields others = ofFields fields := by
  rw [ofFields, ofFields, h.flag?, h.flag?, h.varint?, h.text?, h.text?, h.octets?]

theorem Payload.ofBody?_of_alike (type : MessageType) :
    ofBody? (some others) type = ofBody? (some fields) type := by
  cases type with
  | lifecycle event =>
    have hinfo := h.map_body? 1 ExecutionInfo.ofFields_of_alike
    rw [ofBody?, ofBody?, Option.bind_some, Option.bind_some, hinfo]
  | executeStep =>
    have hrequest := ExecuteStepRequest.ofFields_of_alike h
    simp only [ofBody?, ofBody?.required, bind, Except.bind, hrequest]
  | stepValidateRequest =>
    simp only [ofBody?, ofBody?.required, bind, Except.bind, h.text?, h.varint?]
  | stepValidateResponse =>
    simp only [ofBody?, ofBody?.required, bind, Except.bind, h.text?, h.flag?]
  | executionStatus =>
    obtain ⟨hnone, hnone'⟩ | ⟨body, other, hbody, hother, halike⟩ := h.body? 1
    · simp only [ofBody?, ofBody?.required, bind, Except.bind, hnone, hnone']
    · have hresult := ExecutionResult.ofFields_of_alike halike
      simp only [ofBody?, ofBody?.required, bind, Except.bind, hbody, hother, hresult]
  | stepNamesResponse =>
    rw [ofBody?, ofBody?, Option.map_some, Option.map_some, h.texts]
  | stepNamesRequest | killProcess | storeInit scope => rfl

end

namespace Message

variable {fields others : List Field}

/-- The type that a message of these fields has, if it is one that there is. -/
def wireType? (fields : List Field) : Option MessageType :=
  MessageType.ofNumber? (wireNumber fields)

/-- Only the type, the id and the payload of that type are looked at. -/
theorem ofFields?_of_agreeAt (htype : AgreeAt 1 fields others) (hid : AgreeAt 2 fields others)
    (hpayload : ∀ type ∈ wireType? fields, AgreeAt type.payloadTag fields others) :
    ofFields? others = ofFields? fields := by
  have hnumber : wireNumber others = wireNumber fields := by
    rw [wireNumber, wireNumber, htype.varint?]
  rw [ofFields?, ofFields?, hnumber, hid.varint?, MessageType.ofWireNumber]
  cases htype : MessageType.ofNumber? (wireNumber fields) with
  | none => rfl
  | some type =>
    have hbody := (hpayload type htype).body?
    simp only [bind, Except.bind, hbody]

theorem ofFields?_of_alike (h : Alike fields others) : ofFields? others = ofFields? fields := by
  have hpayload (type : MessageType) :
      Payload.ofBody? (body? type.payloadTag others) type =
        Payload.ofBody? (body? type.payloadTag fields) type := by
    obtain ⟨hnone, hnone'⟩ | ⟨body, other, hbody, hother, halike⟩ := h.body? type.payloadTag
    · rw [hnone, hnone']
    · rw [hbody, hother, Payload.ofBody?_of_alike halike]
  rw [ofFields?, ofFields?, wireNumber, wireNumber, h.varint?, h.varint?]
  simp only [hpayload]

/-- A field of a message, as it may stand on the wire. -/
abbrev Part := Piece Shape.layout depthLimit .message

/-- The field is none of those that make up a message of the type. -/
def Foreign (type? : Option MessageType) (part : Part) : Prop :=
  part.tag ≠ 1 ∧ part.tag ≠ 2 ∧ ∀ type ∈ type?, part.tag ≠ type.payloadTag

open Piece

theorem decode_join (parts : List Part) :
    decode (join parts) = (ofFields? (Piece.fields parts)).mapError .invalid := by
  rw [decode, Piece.decode_join]
  rfl

/-- **The order of fields with different tags, and fields nothing looks at, do not show in a
message,** however deep they are. -/
theorem decode_rearranged :
    (∀ bytes, (∃ fields, Wire.decode Shape.layout .message bytes = .ok fields) ↔
      ∃ parts : List Part, bytes = join parts) ∧
      (∀ parts : List Part, ∃ result, decode (join parts) = Except.mapError .invalid result) ∧
      (∀ parts parts' : List Part, Reorders parts parts' →
        decode (join parts') = decode (join parts)) ∧
      (∀ parts parts' : List Part, Inserts (Foreign (wireType? (Piece.fields parts))) parts parts' →
        decode (join parts') = decode (join parts)) ∧
      (∀ bytes bytes', Rearranges Shape.layout depthLimit .message bytes bytes' →
        decode bytes' = decode bytes) ∧
      ∀ (depth : Nat) (shape : Shape) (body body' : List (Piece Shape.layout depth shape))
        (size size' : Bytes), Reorders body body' ∨ Inserts Unknown body body' →
        Takes Input.readVarint size ((join body).length, ·) →
        Takes Input.readVarint size' ((join body').length, ·) →
        Takes (readBody (readField Shape.layout depth shape)) (size ++ join body)
          (Piece.fields body, ·) ∧
        Takes (readBody (readField Shape.layout depth shape)) (size' ++ join body')
          (Piece.fields body', ·) ∧
        ∀ tag, AgreeAt tag (Piece.fields body) (Piece.fields body') := by
  refine ⟨?_, ?_, ?_, ?_, ?_, ?_⟩
  · intro bytes
    constructor
    · rintro ⟨fields, hfields⟩
      exact exists_join_of_decode hfields
    · rintro ⟨parts, rfl⟩
      exact ⟨_, Piece.decode_join parts⟩
  · intro parts
    exact ⟨_, decode_join parts⟩
  · intro parts parts' h
    rw [decode_join, decode_join,
      ofFields?_of_agreeAt (h.agreeAt 1) (h.agreeAt 2) fun type _ => h.agreeAt _]
  · intro parts parts' h
    have htype : AgreeAt 1 (Piece.fields parts) (Piece.fields parts') :=
      h.agreeAt fun _ hforeign => hforeign.1
    have hid : AgreeAt 2 (Piece.fields parts) (Piece.fields parts') :=
      h.agreeAt fun _ hforeign => hforeign.2.1
    have hpayload (type : MessageType) (hmem : type ∈ wireType? (Piece.fields parts)) :
        AgreeAt type.payloadTag (Piece.fields parts) (Piece.fields parts') :=
      h.agreeAt fun _ hforeign => hforeign.2.2 type hmem
    rw [decode_join, decode_join, ofFields?_of_agreeAt htype hid hpayload]
  · intro bytes bytes' h
    obtain ⟨parts, parts', rfl, rfl, halike⟩ := h.exists_alike
    rw [decode_join, decode_join, ofFields?_of_alike halike]
  · intro depth shape body body' size size' h hsize hsize'
    refine ⟨takes_readBody_join body hsize, takes_readBody_join body' hsize', ?_⟩
    intro tag
    obtain h | h := h
    · exact h.agreeAt tag
    · rw [h.fields_eq]
      exact .refl tag _

/-- A group of the fields of some other program, and fields turned round inside and outside. -/
theorem decode_rearranged_of_group :
    let type : Part := ⟨[8, 11], some (.varint 1 11), rfl⟩
    let id : Part := ⟨[16, 5], some (.varint 2 5), rfl⟩
    let payload : Part := ⟨[114, 6, 10, 4, 8, 1, 48, 5],
      some (.message 14 [.message 1 [.varint 1 1, .varint 6 5]]), rfl⟩
    let group : Part := ⟨[211, 5, 8, 5, 212, 5], none, rfl⟩
    Reorders [type, id, payload] [payload, type, id] ∧
      Inserts (Foreign (wireType? (Piece.fields [type, id, payload]))) [type, id, payload]
        [type, group, id, payload] ∧
      Rearranges Shape.layout depthLimit .message
        [114, 6, 10, 4, 8, 1, 48, 5] [114, 6, 10, 4, 48, 5, 8, 1] ∧
      decode [114, 6, 10, 4, 8, 1, 48, 5, 8, 11, 16, 5] =
        decode [8, 11, 16, 5, 114, 6, 10, 4, 8, 1, 48, 5] ∧
      decode [8, 11, 211, 5, 8, 5, 212, 5, 16, 5, 114, 6, 10, 4, 8, 1, 48, 5] =
        decode [8, 11, 16, 5, 114, 6, 10, 4, 8, 1, 48, 5] ∧
      decode [114, 6, 10, 4, 48, 5, 8, 1] = decode [114, 6, 10, 4, 8, 1, 48, 5] := by
  intro type id payload group
  obtain ⟨-, -, hreorder, hinsert, hinside, -⟩ := decode_rearranged
  have hreorders : Reorders [type, id, payload] [payload, type, id] := by
    -- the tags differ, so each filter keeps at most one field
    intro tag
    have htype : type.tag = 1 := rfl
    have hid : id.tag = 2 := rfl
    have hpayload : payload.tag = 14 := rfl
    simp only [List.filter_cons, List.filter_nil, htype, hid, hpayload, decide_eq_true_eq]
    split <;> split <;> split <;> first | rfl | omega
  have hinserts : Inserts (Foreign (wireType? (Piece.fields [type, id, payload])))
      [type, id, payload] [type, group, id, payload] := by
    refine .keep type (.insert group ?_ (.keep id (.keep payload .nil)))
    have htag : group.tag = 90 := rfl
    refine ⟨by rw [htag]; decide, by rw [htag]; decide, ?_⟩
    intro found _
    have hlow : ∀ found ∈ MessageType.all, (90 : Nat) ≠ found.payloadTag := by decide
    rw [htag]
    exact hlow found (MessageType.mem_all found)
  have hrearranges : Rearranges Shape.layout depthLimit .message
      [114, 6, 10, 4, 8, 1, 48, 5] [114, 6, 10, 4, 48, 5, 8, 1] := by
    let failed : Piece Shape.layout 98 .executionResult := ⟨[8, 1], some (.varint 1 1), rfl⟩
    let time : Piece Shape.layout 98 .executionResult := ⟨[48, 5], some (.varint 6 5), rfl⟩
    have hturned : Reorders [failed, time] [time, failed] := by
      intro tag
      have hfailed : failed.tag = 1 := rfl
      have htime : time.tag = 6 := rfl
      simp only [List.filter_cons, List.filter_nil, hfailed, htime, decide_eq_true_eq]
      split <;> split <;> first | rfl | omega
    have hresult : Rearranges Shape.layout 98 .executionResult [8, 1, 48, 5] [48, 5, 8, 1] :=
      .reorder hturned
    have hsix : Takes Input.readVarint [6] (6, ·) := fun _ => rfl
    have hfour : Takes Input.readVarint [4] (4, ·) := fun _ => rfl
    have houter : Takes Input.readKey [114] (14, .lengthDelimited, ·) := fun _ => rfl
    have hinner : Takes Input.readKey [10] (1, .lengthDelimited, ·) := fun _ => rfl
    have hrule : Shape.message.layout.rule? 14 =
        some ⟨14, "execution_status_response", .body .executionStatus⟩ := rfl
    have hstatus : Rearranges Shape.layout 99 .executionStatus
        [10, 4, 8, 1, 48, 5] [10, 4, 48, 5, 8, 1] :=
      .inside [] [] rfl hinner hfour hfour hresult
    exact .inside [] [] hrule houter hsix hsix hstatus
  exact ⟨hreorders, hinserts, hrearranges, hreorder _ _ hreorders, hinsert _ _ hinserts,
    hinside _ _ hrearranges⟩

end Message

end StepRunner
