import StepRunner.Message.Codec
import StepRunner.Proofs.Wire.Reading

namespace StepRunner

theorem Payload.eq_some_of_required {body : Option (List Wire.Field)} {name : String}
    {fields : List Wire.Field} (h : ofBody?.required body name = .ok fields) :
    body = some fields := by
  cases body with
  | none => cases h
  | some found =>
    cases h
    rfl

theorem Payload.type_of_ofBody? {body : Option (List Wire.Field)} {type : MessageType}
    {payload : Payload} (h : ofBody? body type = .ok payload) : payload.type = type := by
  cases type with
  | lifecycle | stepNamesRequest | stepNamesResponse | killProcess | storeInit =>
    cases h
    rfl
  | executeStep | stepValidateRequest | stepValidateResponse =>
    obtain ⟨fields, -, hfields⟩ := exists_of_bind_eq_ok h
    cases hfields
    rfl
  | executionStatus =>
    obtain ⟨fields, -, hfields⟩ := exists_of_bind_eq_ok h
    obtain ⟨result, -, hresult⟩ := exists_of_bind_eq_ok hfields
    cases hresult
    rfl

namespace Message

theorem fits_of_ofFields? {fields : List Wire.Field} {message : Message}
    (h : ofFields? fields = .ok message) : message.Fits := by
  obtain ⟨type, -, htype⟩ := exists_of_bind_eq_ok h
  obtain ⟨payload, hpayload, hmessage⟩ := exists_of_bind_eq_ok htype
  cases hmessage
  exact Payload.type_of_ofBody? hpayload

/-- **What is decoded fits its type,** whatever the bytes. -/
theorem fits_of_decode {bytes : Bytes} {message : Message} (h : decode bytes = .ok message) :
    message.Fits := by
  obtain ⟨fields, -, hfields⟩ := exists_of_bind_eq_ok h
  exact fits_of_ofFields? (eq_ok_of_mapError hfields)

end Message

end StepRunner
