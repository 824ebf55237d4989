import StepRunner.Proofs.Message.Conformance

namespace StepRunner

open Wire

/-- The result as far as the wire can hold it. -/
def ExecutionResult.capped (result : ExecutionResult) : ExecutionResult :=
  { result with executionTime := .ofNat (min result.executionTime.toNat maxTime) }

/-- The request as far as the wire can hold it. -/
def StepValidateRequest.capped (request : StepValidateRequest) : StepValidateRequest :=
  { request with numberOfParameters := .ofNat (min request.numberOfParameters.toNat maxCount) }

namespace Payload

/-- The payload as far as the wire can hold it. -/
def capped : Payload → Payload
  | executionStatus result => executionStatus result.capped
  | stepValidateRequest request => stepValidateRequest request.capped
  | payload => payload

@[simp]
theorem type_capped (payload : Payload) : payload.capped.type = payload.type := by
  cases payload <;> rfl

end Payload

/-- The message as far as the wire can hold it. -/
def Message.capped (message : Message) : Message :=
  { message with payload := message.payload.capped }

/-- What a message of the type carries when its payload field is absent; none where the field is
required. -/
def MessageType.emptyPayload? : MessageType → Option Payload
  | lifecycle event => some (.lifecycle event none)
  | stepNamesRequest => some .stepNamesRequest
  | stepNamesResponse => some (.stepNamesResponse [])
  | killProcess => some .killProcess
  | storeInit scope => some (.storeInit scope)
  | executeStep | stepValidateRequest | stepValidateResponse | executionStatus => none

theorem filterMap_none {α β : Type} (list : List α) :
    list.filterMap (fun _ => (none : Option β)) = [] :=
  List.filterMap_eq_nil_iff.mpr fun _ _ => rfl

theorem getLast?_toList {α : Type} (value : Option α) : value.toList.getLast? = value := by
  cases value <;> rfl

theorem toNat_bne_zero (value : Bool) : (value.toNat != 0) = value := by
  cases value <;> rfl

theorem body?_of_bodies {α : Type} {tag : Nat} {fields : List Field} {value : Option α}
    {body : α → List Field} (h : bodies tag fields = value.toList.map body) :
    body? tag fields = value.map body := by
  rw [body?, h]
  cases value with
  | none => rfl
  | some value => simp

theorem body?_singleton {tag : Nat} {fields body : List Field} (h : bodies tag fields = [body]) :
    body? tag fields = some body := by
  rw [body?, h]
  simp

-- Which fields of a list carry a tag is computed, group by group.
attribute [local simp] text? texts flag? flag varint? octets? bodies optionalText
  Field.textAt Field.varintAt Field.octetsAt Field.bodyAt
  List.filterMap_cons List.filterMap_map Function.comp_def
  filterMap_none getLast?_toList toNat_bne_zero
attribute [-simp] List.getLast?_filterMap

theorem SpecInfo.ofFields_toFields (spec : SpecInfo) : ofFields spec.toFields = spec := by
  simp [ofFields, toFields]

theorem ScenarioInfo.ofFields_toFields (scenario : ScenarioInfo) :
    ofFields scenario.toFields = scenario := by
  simp [ofFields, toFields]

theorem ExecuteStepRequest.ofFields_toFields (request : ExecuteStepRequest) :
    ofFields request.toFields = request := by
  simp [ofFields, toFields]

theorem StepInfo.ofFields_toFields (step : StepInfo) : ofFields step.toFields = step := by
  have hbody : body? 1 step.toFields = some [.text 1 step.stepText, .text 2 ""] :=
    body?_singleton (by simp [toFields])
  rw [ofFields, hbody]
  simp [toFields]

theorem ExecutionInfo.ofFields_toFields (info : ExecutionInfo) : ofFields info.toFields = info := by
  have hspec : body? 1 info.toFields = info.currentSpec.map (·.toFields) :=
    body?_of_bodies (by simp [toFields])
  have hscenario : body? 2 info.toFields = info.currentScenario.map (·.toFields) :=
    body?_of_bodies (by simp [toFields])
  have hstep : body? 3 info.toFields = info.currentStep.map (·.toFields) :=
    body?_of_bodies (by simp [toFields])
  have htrace : text? 4 info.toFields = info.stacktrace := by simp [toFields]
  rw [ofFields, hspec, hscenario, hstep, htrace]
  simp [SpecInfo.ofFields_toFields, ScenarioInfo.ofFields_toFields, StepInfo.ofFields_toFields]

theorem toInt_ofNat_time {time : Nat} (h : time ≤ maxTime) :
    (Int64.ofNat time).toInt.toNat = time := by
  rw [Int64.toInt_ofNat_of_lt (Nat.lt_of_le_of_lt h (by decide)), Int.toNat_natCast]

theorem toInt_ofNat_count {count : Nat} (h : count ≤ maxCount) :
    (Int32.ofNat count).toInt.toNat = count := by
  rw [Int32.toInt_ofNat_of_lt (Nat.lt_of_le_of_lt h (by decide)), Int.toNat_natCast]

theorem ExecutionResult.ofFields_toFields (result : ExecutionResult) :
    ofFields result.toFields = result.capped := by
  have htime : varint? 6 result.toFields = some (min result.executionTime.toNat maxTime) := by
    simp [toFields]
  rw [ofFields, htime, Option.getD_some, toInt_ofNat_time (Nat.min_le_right _ _)]
  simp [toFields, capped]

theorem Payload.ofBody?_none (type : MessageType) :
    ofBody? none type =
      match type.emptyPayload? with
      | some payload => .ok payload
      | none => .error (.missingPayload type.payloadName) := by
  cases type <;> rfl

theorem Payload.ofBody?_toFields (payload : Payload) :
    ofBody? (some payload.toFields) payload.type = .ok payload.capped := by
  cases payload with
  | lifecycle event info =>
    have hinfo : body? 1 (lifecycle event info).toFields = info.map (·.toFields) :=
      body?_of_bodies (by simp [toFields])
    rw [type, ofBody?, Option.bind_some, hinfo]
    cases info with
    | none => rfl
    | some info => simp [capped, ExecutionInfo.ofFields_toFields]
  | executeStep request =>
    simp only [type, ofBody?, ofBody?.required, bind, Except.bind, toFields, capped,
      request.ofFields_toFields]
  | stepValidateRequest request =>
    have hcount : varint? 2 (stepValidateRequest request).toFields =
        some (min request.numberOfParameters.toNat maxCount) := by simp [toFields]
    simp only [type, ofBody?, ofBody?.required, bind, Except.bind, hcount, Option.getD_some,
      toInt_ofNat_count (Nat.min_le_right _ _)]
    simp [toFields, capped, StepValidateRequest.capped]
  | stepValidateResponse response =>
    simp [type, ofBody?, ofBody?.required, bind, Except.bind, toFields, capped]
  | executionStatus result =>
    have hresult : body? 1 (executionStatus result).toFields = some result.toFields :=
      body?_singleton (by simp [toFields])
    simp only [type, ofBody?, ofBody?.required, bind, Except.bind, hresult, capped,
      result.ofFields_toFields]
  | stepNamesResponse steps => simp [type, ofBody?, texts, toFields, capped]
  | stepNamesRequest | killProcess | storeInit scope => rfl

namespace Message

theorem body?_toFields (message : Message) (type : MessageType) :
    body? type.payloadTag message.toFields =
      if message.payload.type = type then some message.payload.toFields else none := by
  by_cases h : message.payload.type = type
  · rw [if_pos h, ← h]
    exact body?_singleton (by simp [toFields])
  · have htag : message.payload.type.payloadTag ≠ type.payloadTag :=
      fun htag => h (MessageType.payloadTag_injective htag)
    rw [if_neg h, body?]
    simp [toFields, htag]

theorem wireNumber_toFields (message : Message) :
    wireNumber message.toFields = message.type.number := by
  have hbound : ∀ type ∈ MessageType.all, type.number < 2 ^ 31 := by decide
  have hnumber : varint? 1 message.toFields = some message.type.number := by simp [toFields]
  rw [wireNumber, hnumber, Option.getD_some]
  exact Int32.toInt_ofNat_of_lt (hbound message.type (MessageType.mem_all message.type))

theorem id_toFields (message : Message) :
    Int64.ofNat ((varint? 2 message.toFields).getD 0) = message.id := by
  have hid : varint? 2 message.toFields = some message.id.toUInt64.toNat := by simp [toFields]
  rw [hid, Option.getD_some, ← UInt64.toInt64_ofNat', UInt64.ofNat_toNat, Int64.toInt64_toUInt64]

theorem ofFields?_of_fits {message : Message} (h : message.Fits) :
    ofFields? message.toFields = .ok message.capped := by
  obtain ⟨id, type, payload⟩ := message
  obtain rfl : payload.type = type := h
  rw [ofFields?, wireNumber_toFields, MessageType.ofWireNumber, MessageType.ofNumber?_number]
  simp only [bind, Except.bind, id_toFields, body?_toFields, if_true, payload.ofBody?_toFields]
  rfl

theorem ofFields?_of_not_fits {message : Message} (h : ¬ message.Fits) :
    ofFields? message.toFields =
      match message.type.emptyPayload? with
      | some payload => .ok { message with payload }
      | none => .error (.missingPayload message.type.payloadName) := by
  have htype : message.payload.type ≠ message.type := h
  rw [ofFields?, wireNumber_toFields, MessageType.ofWireNumber, MessageType.ofNumber?_number]
  simp only [bind, Except.bind, id_toFields, body?_toFields, if_neg htype, Payload.ofBody?_none]
  cases message.type.emptyPayload? <;> rfl

theorem decode_encode {message : Message} (h : message.encode.length < Nat.pow 2 63) :
    decode message.encode = (ofFields? message.toFields).mapError .invalid := by
  have hsize : message.encode.length < UInt64.size := Nat.lt_trans h (by decide)
  rw [decode, message.decode_fields hsize]
  rfl

theorem decode_encode_of_fits {message : Message} (hfits : message.Fits)
    (h : message.encode.length < Nat.pow 2 63) : decode message.encode = .ok message.capped := by
  rw [decode_encode h, ofFields?_of_fits hfits]
  rfl

/-- **What reading makes of a written message.** A payload that is not the type's is not looked
at. -/
theorem decode_encode_message (message : Message) (h : message.encode.length < Nat.pow 2 63) :
    decode message.encode =
      if message.Fits then .ok message.capped
      else match message.type.emptyPayload? with
        | some payload => .ok { message with payload }
        | none => .error (.invalid (.missingPayload message.type.payloadName)) := by
  by_cases hfits : message.Fits
  · rw [if_pos hfits, decode_encode_of_fits hfits h]
  · rw [if_neg hfits, decode_encode h, ofFields?_of_not_fits hfits]
    cases message.type.emptyPayload? <;> rfl

theorem decode_encode_endless :
    let message := executionStatus (-1) ⟨true, 0xffffffffffffffff, false, some "", none, some []⟩
    message.encode.length < Nat.pow 2 63 ∧ decode message.encode =
      .ok (executionStatus (-1) ⟨true, 0x7fffffffffffffff, false, some "", none, some []⟩) := by
  intro message
  have h : message.encode.length < Nat.pow 2 63 := by decide
  exact ⟨h, (decode_encode_message message h).trans (if_pos rfl)⟩

end Message

end StepRunner
