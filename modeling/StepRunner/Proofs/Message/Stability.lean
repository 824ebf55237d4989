import StepRunner.Proofs.Message.Decoding
import StepRunner.Proofs.Message.RoundTrip
import StepRunner.Proofs.Wire.Size

namespace StepRunner

open Wire

theorem toNat_toInt64_le (value : Nat) : (Int64.ofNat value).toInt.toNat ≤ maxTime := by
  have hlt := (Int64.ofNat value).toInt_lt
  have hmax : maxTime = 2 ^ 63 - 1 := rfl
  omega

theorem toNat_toInt32_le (value : Nat) : (Int32.ofNat value).toInt.toNat ≤ maxCount := by
  have hlt := (Int32.ofNat value).toInt_lt
  have hmax : maxCount = 2 ^ 31 - 1 := rfl
  omega

theorem ExecutionResult.capped_ofFields (fields : List Field) :
    (ofFields fields).capped = ofFields fields := by
  have hle := toNat_toInt64_le ((varint? 6 fields).getD 0)
  have hsize : maxTime < UInt64.size := by decide
  rw [capped, ofFields]
  dsimp only
  rw [UInt64.toNat_ofNat_of_lt' (Nat.lt_of_le_of_lt hle hsize), Nat.min_eq_left hle]

theorem Payload.capped_of_ofBody? {body : Option (List Field)} {type : MessageType}
    {payload : Payload} (h : ofBody? body type = .ok payload) : payload.capped = payload := by
  cases type with
  | lifecycle | stepNamesRequest | stepNamesResponse | killProcess | storeInit =>
    cases h
    rfl
  | executeStep | stepValidateResponse =>
    obtain ⟨fields, -, hfields⟩ := exists_of_bind_eq_ok h
    cases hfields
    rfl
  | stepValidateRequest =>
    obtain ⟨fields, -, hfields⟩ := exists_of_bind_eq_ok h
    cases hfields
    have hle := toNat_toInt32_le ((varint? 2 fields).getD 0)
    have hsize : maxCount < UInt64.size := by decide
    rw [capped, StepValidateRequest.capped]
    dsimp only
    rw [UInt64.toNat_ofNat_of_lt' (Nat.lt_of_le_of_lt hle hsize), Nat.min_eq_left hle]
  | executionStatus =>
    obtain ⟨fields, -, hfields⟩ := exists_of_bind_eq_ok h
    obtain ⟨result, -, hresult⟩ := exists_of_bind_eq_ok hfields
    cases hresult
    rw [capped, ExecutionResult.capped_ofFields]

theorem Message.capped_of_decode {bytes : Bytes} {message : Message}
    (h : decode bytes = .ok message) : message.capped = message := by
  obtain ⟨fields, -, hfields⟩ := exists_of_bind_eq_ok h
  obtain ⟨type, -, htype⟩ := exists_of_bind_eq_ok (eq_ok_of_mapError hfields)
  obtain ⟨payload, hpayload, hmessage⟩ := exists_of_bind_eq_ok htype
  cases hmessage
  rw [capped, Payload.capped_of_ofBody? hpayload]

section

variable {tag : Nat} (fields : List Field)

theorem length_encode_varint_le (htag : tag < 16) (value : Nat) :
    (Field.varint tag value).encode.length ≤ 11 := by
  have hkey := length_key_of_lt htag .varint
  have hvalue : (Varint.encode value).length ≤ 10 := Varint.length_groups_le 10 value
  rw [Field.encode, List.length_append]
  omega

theorem length_encode_message_le (htag : tag < 16) (body : List Field) :
    (Field.message tag body).encode.length ≤ 11 + (encode body).length := by
  have hkey := length_key_of_lt htag .lengthDelimited
  have hlength : (Varint.encode (encode body).length).length ≤ 10 := Varint.length_groups_le 10 _
  rw [Field.encode, List.length_append, length_delimited]
  omega

theorem length_encode_text_le (htag : tag < 16) :
    (Field.text tag ((text? tag fields).getD "")).encode.length ≤ (encode fields).length + 2 := by
  cases htext : text? tag fields with
  | none =>
    have hkey := length_key_of_lt htag .lengthDelimited
    have hempty : (delimited (Utf8.encode "")).length = 1 := rfl
    rw [Option.getD_none, Field.encode, List.length_append]
    omega
  | some text =>
    have hlast := length_encode_optionalText tag fields
    rw [htext, optionalText, Option.toList_some, List.map_singleton, encode, encode,
      List.append_nil] at hlast
    rw [Option.getD_some]
    omega

/-- A body that is read and written again, if it is there. -/
theorem length_encode_optionalBody {α : Type} {read : List Field → α} {write : α → List Field}
    {factor extra : Nat} (htag : tag < 16)
    (h : ∀ body, (encode (write (read body))).length ≤ factor * (encode body).length + extra) :
    (encode (((body? tag fields).map read).toList.map fun value =>
        .message tag (write value))).length ≤ factor * (encode fields).length + (11 + extra) := by
  cases hbody : body? tag fields with
  | none => exact Nat.zero_le _
  | some body =>
    have hinside := Nat.mul_le_mul_left factor (length_encode_of_body? tag fields hbody)
    have hwritten := h body
    have hmessage := length_encode_message_le htag (write (read body))
    simp only [Option.map_some, Option.toList_some, List.map_singleton, length_encode_cons,
      length_encode_nil]
    omega

theorem SpecInfo.length_toFields_le :
    (encode (ofFields fields).toFields).length ≤ 3 * (encode fields).length + 15 := by
  have hname := length_encode_text_le fields (show 1 < 16 by decide)
  have hfile := length_encode_text_le fields (show 2 < 16 by decide)
  have hfailed := length_encode_varint_le (show 3 < 16 by decide)
    ((flag? 3 fields).getD false).toNat
  have htags := length_encode_texts 4 fields
  simp only [toFields, ofFields, flag, length_encode_append, length_encode_cons, length_encode_nil]
  omega

theorem ScenarioInfo.length_toFields_le :
    (encode (ofFields fields).toFields).length ≤ 2 * (encode fields).length + 13 := by
  have hname := length_encode_text_le fields (show 1 < 16 by decide)
  have hfailed := length_encode_varint_le (show 2 < 16 by decide)
    ((flag? 2 fields).getD false).toNat
  have htags := length_encode_texts 3 fields
  simp only [toFields, ofFields, flag, length_encode_append, length_encode_cons, length_encode_nil]
  omega

theorem StepInfo.length_toFields_le :
    (encode (ofFields fields).toFields).length ≤ (encode fields).length + 26 := by
  have hstep : (Field.text 1 (ofFields fields).stepText).encode.length ≤
      (encode fields).length + 2 := by
    rw [ofFields]
    dsimp only
    cases hbody : body? 1 fields with
    | none =>
      have hempty : (Field.text 1 "").encode.length = 2 := rfl
      rw [Option.bind_none, Option.getD_none]
      omega
    | some body =>
      have htext := length_encode_text_le body (show 1 < 16 by decide)
      have hinside := length_encode_of_body? 1 fields hbody
      rw [Option.bind_some]
      omega
  have hbody := length_encode_message_le (show 1 < 16 by decide)
    [.text 1 (ofFields fields).stepText, .text 2 ""]
  have hfailed := length_encode_varint_le (show 2 < 16 by decide)
    (ofFields fields).isFailed.toNat
  have hempty : (Field.text 2 "").encode.length = 2 := rfl
  simp only [toFields, flag, length_encode_cons, length_encode_nil] at hbody ⊢
  omega

/-- A parameter takes four bytes besides its value, or needs none at all. -/
theorem ExecuteStepRequest.length_toFields_le :
    (encode (ofFields fields).toFields).length ≤ 10 * (encode fields).length + 15 := by
  have hactual := length_encode_text_le fields (show 1 < 16 by decide)
  have hparsed := length_encode_text_le fields (show 2 < 16 by decide)
  have hfailing := length_encode_varint_le (show 3 < 16 by decide)
    ((flag? 3 fields).getD false).toNat
  have hparameter (body : List Field) :
      (Field.message 4 [.varint 1 1, .text 2 ((text? 2 body).getD "")]).encode.length ≤
        8 * ((encode body).length + 2) := by
    have hmessage := length_encode_message_le (show 4 < 16 by decide)
      [.varint 1 1, .text 2 ((text? 2 body).getD "")]
    have hvalue := length_encode_text_le body (show 2 < 16 by decide)
    have htype : (Field.varint 1 1).encode.length = 2 := rfl
    simp only [length_encode_cons, length_encode_nil] at hmessage
    omega
  have hparameters := length_encode_map_bodies 4 fields hparameter
  simp only [toFields, ofFields, flag, length_encode_append, length_encode_cons, length_encode_nil,
    List.map_map, Function.comp_def]
  omega

theorem ExecutionInfo.length_toFields_le :
    (encode (ofFields fields).toFields).length ≤ 7 * (encode fields).length + 87 := by
  have hspec := length_encode_optionalBody fields (show 1 < 16 by decide)
    SpecInfo.length_toFields_le
  have hscenario := length_encode_optionalBody fields (show 2 < 16 by decide)
    ScenarioInfo.length_toFields_le
  have hone (body : List Field) : (encode (StepInfo.ofFields body).toFields).length ≤
      1 * (encode body).length + 26 := by
    have hbody := StepInfo.length_toFields_le body
    omega
  have hstep := length_encode_optionalBody fields (show 3 < 16 by decide) hone
  have htrace := length_encode_optionalText 4 fields
  simp only [toFields, ofFields, length_encode_append]
  omega

theorem ExecutionResult.length_toFields_le :
    (encode (ofFields fields).toFields).length ≤ 3 * (encode fields).length + 33 := by
  have hfailed := length_encode_varint_le (show 1 < 16 by decide) (ofFields fields).failed.toNat
  have hrecoverable := length_encode_varint_le (show 2 < 16 by decide)
    (ofFields fields).recoverableError.toNat
  have hmessage := length_encode_optionalText 3 fields
  have htrace := length_encode_optionalText 4 fields
  have hscreenshot := length_encode_optionalOctets 5 fields
  have htime := length_encode_varint_le (show 6 < 16 by decide)
    (min (ofFields fields).executionTime.toNat maxTime)
  simp only [toFields, ofFields, flag, length_encode_append, length_encode_cons,
    length_encode_nil] at *
  omega

/-- The payload of a message that was read, in terms of its field. -/
theorem Payload.length_toFields_le {body : Option (List Field)} {type : MessageType}
    {payload : Payload} (h : ofBody? body type = .ok payload) :
    (encode payload.toFields).length ≤ 10 * (encode (body.getD [])).length + 98 := by
  cases type with
  | lifecycle event =>
    cases h
    cases body with
    | none => exact Nat.zero_le _
    | some fields =>
      have hinfo := length_encode_optionalBody fields (show 1 < 16 by decide)
        ExecutionInfo.length_toFields_le
      simp only [toFields, Option.bind_some, Option.getD_some]
      omega
  | executeStep =>
    obtain ⟨fields, hfields, hok⟩ := exists_of_bind_eq_ok h
    obtain rfl := eq_some_of_required hfields
    cases hok
    have hrequest := ExecuteStepRequest.length_toFields_le fields
    rw [toFields, Option.getD_some]
    omega
  | stepValidateRequest =>
    obtain ⟨fields, hfields, hok⟩ := exists_of_bind_eq_ok h
    obtain rfl := eq_some_of_required hfields
    cases hok
    have htext := length_encode_text_le fields (show 1 < 16 by decide)
    have hcount (count : Nat) := length_encode_varint_le (show 2 < 16 by decide) count
    simp only [toFields, length_encode_cons, length_encode_nil, Option.getD_some]
    specialize hcount (min (UInt64.ofNat
      (Int32.ofNat ((varint? 2 fields).getD 0)).toInt.toNat).toNat maxCount)
    omega
  | stepValidateResponse =>
    obtain ⟨fields, hfields, hok⟩ := exists_of_bind_eq_ok h
    obtain rfl := eq_some_of_required hfields
    cases hok
    have hvalid := length_encode_varint_le (show 1 < 16 by decide)
      ((flag? 1 fields).getD false).toNat
    have hmessage := length_encode_optionalText 2 fields
    simp only [toFields, flag, length_encode_cons, Option.getD_some]
    omega
  | executionStatus =>
    obtain ⟨fields, hfields, hresult⟩ := exists_of_bind_eq_ok h
    obtain ⟨result, hbody, hok⟩ := exists_of_bind_eq_ok hresult
    obtain rfl := eq_some_of_required hfields
    have hinside := length_encode_of_body? 1 fields (eq_some_of_required hbody)
    cases hok
    have hwritten := ExecutionResult.length_toFields_le result
    have hmessage := length_encode_message_le (show 1 < 16 by decide)
      (ExecutionResult.ofFields result).toFields
    simp only [toFields, length_encode_cons, length_encode_nil, Option.getD_some]
    omega
  | stepNamesResponse =>
    cases h
    cases body with
    | none => exact Nat.zero_le _
    | some fields =>
      have hsteps := length_encode_texts 1 fields
      simp only [toFields, Option.map_some, Option.getD_some]
      omega
  | stepNamesRequest | killProcess | storeInit =>
    cases h
    exact Nat.zero_le _

namespace Message

/-- Writing what was read takes no more than ten times the bytes, and some for the frame of the
message. -/
theorem length_encode_le_of_decode {bytes : Bytes} {message : Message}
    (h : decode bytes = .ok message) : message.encode.length ≤ 10 * bytes.length + 140 := by
  obtain ⟨fields, hdecode, hfields⟩ := exists_of_bind_eq_ok h
  obtain ⟨type, -, htype⟩ := exists_of_bind_eq_ok (eq_ok_of_mapError hfields)
  obtain ⟨payload, hpayload, hmessage⟩ := exists_of_bind_eq_ok htype
  cases hmessage
  have hread := Wire.length_encode_le_of_decode (eq_ok_of_mapError hdecode)
  have hbody : (Wire.encode ((body? type.payloadTag fields).getD [])).length ≤
      (Wire.encode fields).length := by
    cases hbody : body? type.payloadTag fields with
    | none => exact Nat.zero_le _
    | some body => exact length_encode_of_body? _ fields hbody
  have hwritten := Payload.length_toFields_le hpayload
  have htype := length_encode_varint_le (show 1 < 16 by decide) type.number
  have hid := length_encode_varint_le (show 2 < 16 by decide)
    (Int64.ofNat ((varint? 2 fields).getD 0)).toUInt64.toNat
  have hkey : (key payload.type.payloadTag .lengthDelimited).length ≤ 10 :=
    Varint.length_groups_le 10 _
  have hlength : (Varint.encode (Wire.encode payload.toFields).length).length ≤ 10 :=
    Varint.length_groups_le 10 _
  simp only [encode, toFields, length_encode_cons, length_encode_nil, Field.encode,
    List.length_append, length_delimited] at *
  omega

/-- **What was decoded is decoded again from its own encoding,** which is not much longer than the
bytes were. -/
theorem decode_encode_of_decode {bytes : Bytes} {message : Message}
    (h : decode bytes = .ok message) :
    message.encode.length ≤ 10 * bytes.length + 140 ∧
      (message.encode.length < Nat.pow 2 63 → decode message.encode = .ok message) := by
  refine ⟨length_encode_le_of_decode h, ?_⟩
  intro hlength
  rw [decode_encode_of_fits (fits_of_decode h) hlength, capped_of_decode h]

/-- A negative time, before a padded id and type, with a second payload that is not the type's. -/
theorem decode_encode_of_decode_of_negative_time :
    let bytes : Bytes := [114, 15, 10, 13, 8, 1, 48, 255, 255, 255, 255, 255, 255, 255, 255, 255, 1,
      146, 1, 0, 16, 133, 0, 8, 139, 0]
    let message := executionStatus 5 ⟨true, 0, false, none, none, none⟩
    decode bytes = .ok message ∧ message.encode = [8, 11, 16, 5, 114, 8, 10, 6, 8, 1, 16, 0, 48, 0] ∧
      decode message.encode = .ok message := by
  intro bytes message
  have h : decode bytes = .ok message := rfl
  have hencode : message.encode = [8, 11, 16, 5, 114, 8, 10, 6, 8, 1, 16, 0, 48, 0] := by decide
  have hlength : message.encode.length < Nat.pow 2 63 := by
    rw [hencode]
    decide
  exact ⟨h, hencode, (decode_encode_of_decode h).2 hlength⟩

end Message

end

end StepRunner
