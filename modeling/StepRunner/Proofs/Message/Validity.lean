import StepRunner.Proofs.Message.Decoding

namespace StepRunner

open Wire

namespace MessageType

/-- The numbers of types that the protocol has, that of the host's own report among them. -/
def Declared (number : Int) : Prop := 0 ≤ number ∧ number ≤ 18

/-- A message of this type says nothing without its payload. -/
def NeedsPayload : MessageType → Prop
  | executeStep | stepValidateRequest | stepValidateResponse | executionStatus
  | stepNamesResponse => True
  | lifecycle _ | stepNamesRequest | killProcess | storeInit _ => False

theorem number_bounds (type : MessageType) :
    type.number ≤ 18 ∧ (type.number : Int) ≠ suiteResultNumber := by
  have hall : ∀ type ∈ all, type.number ≤ 18 ∧ (type.number : Int) ≠ suiteResultNumber := by
    decide
  exact hall type (mem_all type)

theorem eq_number_of_ofNumber? {number : Int} {type : MessageType}
    (h : ofNumber? number = some type) : number = type.number := by
  have hfound := List.find?_some h
  exact (of_decide_eq_true hfound).symm

/-- A runner knows all types but that of the host's own report. -/
theorem ofNumber?_eq_none_iff {number : Int} :
    ofNumber? number = none ↔ ¬ Declared number ∨ number = suiteResultNumber := by
  constructor
  · intro hnone
    by_cases hdeclared : Declared number
    · right
      have hknown : ∀ n : Fin 19,
          ofNumber? (n.val : Int) = none → (n.val : Int) = suiteResultNumber := by decide
      obtain ⟨hpos, hle⟩ := hdeclared
      obtain ⟨n, rfl⟩ := Int.eq_ofNat_of_zero_le hpos
      exact hknown ⟨n, by omega⟩ hnone
    · exact .inl hdeclared
  · intro h
    cases htype : ofNumber? number with
    | none => rfl
    | some type =>
      obtain rfl := eq_number_of_ofNumber? htype
      obtain ⟨hle, hne⟩ := type.number_bounds
      rcases h with hdeclared | hsuite
      · exact absurd ⟨by omega, by omega⟩ hdeclared
      · exact absurd hsuite hne

end MessageType

namespace Message

/-- Why the fields are not a message, as the protocol has it. -/
inductive Invalid (fields : List Field) : InvalidMessage → Prop
  | unknownType (hundeclared : ¬ MessageType.Declared (wireNumber fields)) :
      Invalid fields (.unknownType (wireNumber fields))
  | notForRunners (hsuite : wireNumber fields = suiteResultNumber) : Invalid fields .notForRunners
  | missingPayload {type : MessageType} (htype : wireNumber fields = type.number)
      (hneeds : type.NeedsPayload) (hmissing : body? type.payloadTag fields = none) :
      Invalid fields (.missingPayload type.payloadName)
  | missingResult {status : List Field}
      (htype : wireNumber fields = MessageType.executionStatus.number)
      (hstatus : body? MessageType.executionStatus.payloadTag fields = some status)
      (hmissing : body? 1 status = none) : Invalid fields (.missingPayload "executionResult")

/-- The fault the protocol asks for, or else a message that has the id of the fields. -/
structure Judges (fields : List Field) (decoded : Except CodecError Message) : Prop where
  error_iff : ∀ reason, decoded = .error (.invalid reason) ↔ Invalid fields reason
  ok : (∀ reason, ¬ Invalid fields reason) →
    ∃ message, decoded = .ok message ∧ message.id = .ofNat ((varint? 2 fields).getD 0)

/-- The fields are those of an answer with step names, but without the names. -/
def LacksNames (fields : List Field) : Prop :=
  wireNumber fields = MessageType.stepNamesResponse.number ∧
    body? MessageType.stepNamesResponse.payloadTag fields = none

end Message

namespace Payload

/-- Without a payload that is needed there is no message, but for the list of names. -/
theorem ofBody?_none_of_needsPayload {type : MessageType} (h : type.NeedsPayload)
    (hne : type ≠ .stepNamesResponse) :
    ofBody? none type = .error (.missingPayload type.payloadName) := by
  cases type with
  | executeStep | stepValidateRequest | stepValidateResponse | executionStatus => rfl
  | stepNamesResponse => exact absurd rfl hne
  | lifecycle | stepNamesRequest | killProcess | storeInit => cases h

theorem ofBody?_executionStatus (status : List Field) :
    ofBody? (some status) .executionStatus =
      match body? 1 status with
      | some result => .ok (.executionStatus (.ofFields result))
      | none => .error (.missingPayload "executionResult") := by
  have hstatus : ofBody? (some status) .executionStatus =
      (ofBody?.required (body? 1 status) "executionResult").bind
        fun result => .ok (.executionStatus (.ofFields result)) := rfl
  rw [hstatus]
  cases body? 1 status <;> rfl

theorem exists_ofBody? {body : Option (List Field)} {type : MessageType}
    (hbody : type.NeedsPayload → body ≠ none)
    (hresult : type = .executionStatus → ∀ status, body = some status → body? 1 status ≠ none) :
    ∃ payload, ofBody? body type = .ok payload := by
  cases type with
  | lifecycle | stepNamesRequest | stepNamesResponse | killProcess | storeInit => exact ⟨_, rfl⟩
  | executeStep | stepValidateRequest | stepValidateResponse =>
    obtain ⟨fields, rfl⟩ := Option.ne_none_iff_exists'.mp (hbody trivial)
    exact ⟨_, rfl⟩
  | executionStatus =>
    obtain ⟨status, rfl⟩ := Option.ne_none_iff_exists'.mp (hbody trivial)
    obtain ⟨result, hsome⟩ := Option.ne_none_iff_exists'.mp (hresult rfl status rfl)
    rw [ofBody?_executionStatus, hsome]
    exact ⟨_, rfl⟩

end Payload

namespace Message

variable {fields : List Field} {reason : InvalidMessage}

theorem ofFields?_of_ofNumber? {type : MessageType}
    (h : MessageType.ofNumber? (wireNumber fields) = some type) :
    ofFields? fields = (Payload.ofBody? (body? type.payloadTag fields) type).map
      fun payload => ⟨.ofNat ((varint? 2 fields).getD 0), type, payload⟩ := by
  rw [ofFields?, MessageType.ofWireNumber, h]
  cases hpayload : Payload.ofBody? (body? type.payloadTag fields) type with
  | error reason => simp [hpayload, bind, Except.bind, Except.map]
  | ok payload => simp [hpayload, bind, Except.bind, Except.map]

theorem ofFields?_of_number {type : MessageType} (h : wireNumber fields = type.number) :
    ofFields? fields = (Payload.ofBody? (body? type.payloadTag fields) type).map
      fun payload => ⟨.ofNat ((varint? 2 fields).getD 0), type, payload⟩ := by
  apply ofFields?_of_ofNumber?
  rw [h, MessageType.ofNumber?_number]

theorem ofFields?_of_ofNumber?_eq_none (h : MessageType.ofNumber? (wireNumber fields) = none) :
    ofFields? fields = .error
      (if wireNumber fields = suiteResultNumber then .notForRunners
        else .unknownType (wireNumber fields)) := by
  rw [ofFields?, MessageType.ofWireNumber, h]
  rfl

/-- Each fault is found, unless it is that the names are left out. -/
theorem ofFields?_of_invalid (h : Invalid fields reason) (hnames : ¬ LacksNames fields) :
    ofFields? fields = .error reason := by
  cases h with
  | unknownType hundeclared =>
    have hnone := MessageType.ofNumber?_eq_none_iff.mpr (.inl hundeclared)
    have hsuite : wireNumber fields ≠ suiteResultNumber := by
      intro hsuite
      rw [hsuite] at hundeclared
      exact hundeclared ⟨by decide, by decide⟩
    rw [ofFields?_of_ofNumber?_eq_none hnone, if_neg hsuite]
  | notForRunners hsuite =>
    have hnone := MessageType.ofNumber?_eq_none_iff.mpr (.inr hsuite)
    rw [ofFields?_of_ofNumber?_eq_none hnone, if_pos hsuite]
  | missingPayload htype hneeds hmissing =>
    have hne : ‹MessageType› ≠ .stepNamesResponse := by
      rintro rfl
      exact hnames ⟨htype, hmissing⟩
    rw [ofFields?_of_number htype, hmissing, Payload.ofBody?_none_of_needsPayload hneeds hne]
    rfl
  | missingResult htype hstatus hmissing =>
    rw [ofFields?_of_number htype, hstatus, Payload.ofBody?_executionStatus, hmissing]
    rfl

/-- Without a fault there is a message, with the id of the fields. -/
theorem exists_ofFields?_of_not_invalid (h : ∀ reason, ¬ Invalid fields reason) :
    ∃ message, ofFields? fields = .ok message ∧
      message.id = .ofNat ((varint? 2 fields).getD 0) := by
  cases hnumber : MessageType.ofNumber? (wireNumber fields) with
  | none =>
    rcases MessageType.ofNumber?_eq_none_iff.mp hnumber with hundeclared | hsuite
    · exact absurd (.unknownType hundeclared) (h _)
    · exact absurd (.notForRunners hsuite) (h _)
  | some type =>
    have htype := MessageType.eq_number_of_ofNumber? hnumber
    have hbody : type.NeedsPayload → body? type.payloadTag fields ≠ none :=
      fun hneeds hmissing => h _ (.missingPayload htype hneeds hmissing)
    have hresult : type = .executionStatus → ∀ status, body? type.payloadTag fields = some status →
        body? 1 status ≠ none := by
      rintro rfl status hstatus hmissing
      exact h _ (.missingResult htype hstatus hmissing)
    obtain ⟨payload, hpayload⟩ := Payload.exists_ofBody? hbody hresult
    refine ⟨⟨_, type, payload⟩, ?_, rfl⟩
    rw [ofFields?_of_ofNumber? hnumber, hpayload]
    rfl

theorem ofFields?_of_lacksNames (h : LacksNames fields) :
    ofFields? fields =
      .ok ⟨.ofNat ((varint? 2 fields).getD 0), .stepNamesResponse, .stepNamesResponse []⟩ := by
  rw [ofFields?_of_number h.1, h.2]
  rfl

/-- What decoding finds is a fault. -/
theorem invalid_of_ofFields? (h : ofFields? fields = .error reason) : Invalid fields reason := by
  by_cases hinvalid : ∃ found, Invalid fields found
  · obtain ⟨found, hfound⟩ := hinvalid
    have hnames : ¬ LacksNames fields := by
      intro hnames
      rw [ofFields?_of_lacksNames hnames] at h
      cases h
    rw [ofFields?_of_invalid hfound hnames] at h
    cases h
    exact hfound
  · have hvalid : ∀ found, ¬ Invalid fields found := fun found hfound => hinvalid ⟨found, hfound⟩
    obtain ⟨message, hmessage, -⟩ := exists_ofFields?_of_not_invalid hvalid
    rw [h] at hmessage
    cases hmessage

theorem LacksNames.invalid (h : LacksNames fields) :
    Invalid fields (.missingPayload MessageType.stepNamesResponse.payloadName) :=
  .missingPayload h.1 trivial h.2

theorem decode_of_fields {bytes : Bytes}
    (h : Wire.decode Shape.layout .message bytes = .ok fields) :
    decode bytes = (ofFields? fields).mapError .invalid := by
  rw [decode, h]
  rfl

/-- **Decoding is what the protocol asks for, but for an answer that lacks the step names.** -/
theorem judges_decode_iff {bytes : Bytes}
    (h : Wire.decode Shape.layout .message bytes = .ok fields) :
    (Judges fields (decode bytes) ↔ ¬ LacksNames fields) ∧
      (LacksNames fields → decode bytes =
        .ok ⟨.ofNat ((varint? 2 fields).getD 0), .stepNamesResponse, .stepNamesResponse []⟩) := by
  have hlacks (hnames : LacksNames fields) : decode bytes =
      .ok ⟨.ofNat ((varint? 2 fields).getD 0), .stepNamesResponse, .stepNamesResponse []⟩ := by
    rw [decode_of_fields h, ofFields?_of_lacksNames hnames]
    rfl
  refine ⟨⟨?_, ?_⟩, hlacks⟩
  · intro hjudges hnames
    have herror := (hjudges.error_iff _).mpr hnames.invalid
    rw [hlacks hnames] at herror
    cases herror
  · intro hnames
    have hdecode := decode_of_fields h
    constructor
    · intro reason
      constructor
      · intro herror
        rw [hdecode] at herror
        cases hfields : ofFields? fields with
        | ok message =>
          rw [hfields] at herror
          cases herror
        | error found =>
          rw [hfields] at herror
          cases herror
          exact invalid_of_ofFields? hfields
      · intro hinvalid
        rw [hdecode, ofFields?_of_invalid hinvalid hnames]
        rfl
    · intro hvalid
      obtain ⟨message, hmessage, hid⟩ := exists_ofFields?_of_not_invalid hvalid
      refine ⟨message, ?_, hid⟩
      rw [hdecode, hmessage]
      rfl

/-- Type and id alone: no names, and no complaint. -/
theorem judges_decode_iff_of_missing_names :
    let bytes : Bytes := [8, 13, 16, 3]
    let fields : List Field := [.varint 1 13, .varint 2 3]
    Wire.decode Shape.layout .message bytes = .ok fields ∧
      decode bytes = .ok ⟨3, .stepNamesResponse, .stepNamesResponse []⟩ ∧
      ¬ Judges fields (decode bytes) := by
  intro bytes fields
  have hfields : Wire.decode Shape.layout .message bytes = .ok fields := rfl
  have hnames : LacksNames fields := ⟨by decide, rfl⟩
  obtain ⟨hiff, hdecode⟩ := judges_decode_iff hfields
  exact ⟨hfields, hdecode hnames, fun hjudges => hiff.mp hjudges hnames⟩

end Message

end StepRunner
