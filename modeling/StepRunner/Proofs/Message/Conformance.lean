import StepRunner.Message.Codec
import StepRunner.Proofs.Wire.RoundTrip

namespace StepRunner

open Wire

namespace Shape

theorem tag_bounds (shape : Shape) :
    ∀ rule ∈ shape.layout.rules, 0 < rule.tag ∧ rule.tag < 32 := by
  cases shape with
  | lifecycle event => simp [layout]
  | storeInit scope => cases scope <;> simp [layout]
  | _ => simp [layout, MessageType.all, MessageType.payloadTag]

theorem knows {shape : Shape} {tag : Nat} {name : String} {content : Content Shape}
    (h : shape.layout.rule? tag = some ⟨tag, name, content⟩) :
    shape.layout.Knows tag content := by
  obtain ⟨hpos, hlt⟩ := shape.tag_bounds _ (List.mem_of_find?_eq_some h)
  have hsize : 8 * 32 < UInt32.size := by decide
  have hkey : 8 * tag + 7 < 8 * 32 := by
    dsimp only at hlt
    omega
  exact ⟨⟨name, h⟩, hpos, Nat.lt_trans hkey hsize⟩

theorem knows_payload (type : MessageType) :
    message.layout.Knows type.payloadTag (.body type.shape) := by
  cases type with
  | lifecycle event => cases event <;> exact knows rfl
  | storeInit scope => cases scope <;> exact knows rfl
  | _ => exact knows rfl

end Shape

open Shape (knows knows_payload)

variable (depth : Nat)

theorem conforms_flag {shape : Shape} {tag : Nat} (hk : shape.layout.Knows tag .varint)
    (value : Bool) : (flag tag value).Conforms Shape.layout depth shape := by
  refine .varint hk ?_
  cases value <;> decide

theorem conforms_optionalText {shape : Shape} {tag : Nat} (hk : shape.layout.Knows tag .text)
    (value : Option String) :
    ∀ field ∈ optionalText tag value, field.Conforms Shape.layout depth shape := by
  intro field h
  obtain ⟨text, -, rfl⟩ := List.mem_map.mp h
  exact .text hk

theorem SpecInfo.conforms (spec : SpecInfo) :
    ∀ field ∈ spec.toFields, field.Conforms Shape.layout depth .specInfo := by
  simp only [toFields, List.forall_mem_append, List.forall_mem_cons, List.forall_mem_map]
  refine ⟨⟨.text (knows rfl), .text (knows rfl), conforms_flag depth (knows rfl) _, ?_⟩, ?_⟩
  · simp
  · exact fun tag _ => .text (knows rfl)

theorem ScenarioInfo.conforms (scenario : ScenarioInfo) :
    ∀ field ∈ scenario.toFields, field.Conforms Shape.layout depth .scenarioInfo := by
  simp only [toFields, List.forall_mem_append, List.forall_mem_cons, List.forall_mem_map]
  refine ⟨⟨.text (knows rfl), conforms_flag depth (knows rfl) _, ?_⟩, ?_⟩
  · simp
  · exact fun tag _ => .text (knows rfl)

theorem ExecuteStepRequest.conforms (request : ExecuteStepRequest) :
    ∀ field ∈ request.toFields, field.Conforms Shape.layout (depth + 1) .executeStep := by
  simp only [toFields, List.forall_mem_append, List.forall_mem_cons, List.forall_mem_map]
  refine ⟨⟨.text (knows rfl), .text (knows rfl), conforms_flag _ (knows rfl) _, ?_⟩, ?_⟩
  · simp
  · intro value _
    refine .message (knows rfl) ?_
    simp only [List.forall_mem_cons]
    refine ⟨.varint (knows rfl) (by decide), .text (knows rfl), ?_⟩
    simp

theorem StepInfo.conforms (step : StepInfo) :
    ∀ field ∈ step.toFields, field.Conforms Shape.layout (depth + 1) .stepInfo := by
  simp only [toFields, List.forall_mem_cons]
  refine ⟨.message (knows rfl) ?_, conforms_flag _ (knows rfl) _, ?_⟩
  · simp only [List.forall_mem_cons]
    refine ⟨.text (knows rfl), .text (knows rfl), ?_⟩
    simp
  · simp

theorem ExecutionInfo.conforms (info : ExecutionInfo) :
    ∀ field ∈ info.toFields, field.Conforms Shape.layout (depth + 2) .executionInfo := by
  simp only [toFields, List.forall_mem_append, List.forall_mem_map]
  refine ⟨⟨⟨?spec, ?scenario⟩, ?step⟩, conforms_optionalText _ (knows rfl) _⟩
  case spec => exact fun spec _ => .message (knows rfl) (spec.conforms _)
  case scenario => exact fun scenario _ => .message (knows rfl) (scenario.conforms _)
  case step => exact fun step _ => .message (knows rfl) (step.conforms _)

theorem ExecutionResult.conforms (result : ExecutionResult) :
    ∀ field ∈ result.toFields, field.Conforms Shape.layout depth .executionResult := by
  have htime : min result.executionTime.toNat maxTime < UInt64.size :=
    Nat.lt_of_le_of_lt (Nat.min_le_right _ _) (by decide)
  simp only [toFields, List.forall_mem_append, List.forall_mem_cons, List.forall_mem_map]
  refine ⟨⟨⟨⟨⟨?failed, ?recoverable, ?_⟩, ?message⟩, ?trace⟩, ?screenshot⟩, ?time, ?_⟩
  case failed => exact conforms_flag _ (knows rfl) _
  case recoverable => exact conforms_flag _ (knows rfl) _
  case message => exact conforms_optionalText _ (knows rfl) _
  case trace => exact conforms_optionalText _ (knows rfl) _
  case screenshot => exact fun screenshot _ => .octets (knows rfl)
  case time => exact .varint (knows rfl) htime
  all_goals simp

theorem Payload.conforms (payload : Payload) :
    ∀ field ∈ payload.toFields, field.Conforms Shape.layout (depth + 3) payload.type.shape := by
  cases payload with
  | lifecycle event info =>
    simp only [toFields, List.forall_mem_map]
    exact fun info _ => .message (knows rfl) (info.conforms _)
  | executeStep request => exact request.conforms _
  | stepValidateRequest request =>
    have hcount : min request.numberOfParameters.toNat maxCount < UInt64.size :=
      Nat.lt_of_le_of_lt (Nat.min_le_right _ _) (by decide)
    simp only [toFields, List.forall_mem_cons]
    refine ⟨.text (knows rfl), .varint (knows rfl) hcount, ?_⟩
    simp
  | stepValidateResponse response =>
    simp only [toFields, List.forall_mem_cons]
    exact ⟨conforms_flag _ (knows rfl) _, conforms_optionalText _ (knows rfl) _⟩
  | executionStatus result =>
    simp only [toFields, List.forall_mem_cons]
    refine ⟨.message (knows rfl) (result.conforms _), ?_⟩
    simp
  | stepNamesResponse steps =>
    simp only [toFields, List.forall_mem_map]
    exact fun step _ => .text (knows rfl)
  | stepNamesRequest | killProcess | storeInit scope => simp [toFields]

theorem Message.conforms (message : Message) :
    ∀ field ∈ message.toFields, field.Conforms Shape.layout (depth + 4) .message := by
  have htype : message.type.number < UInt64.size := by
    have hbound : ∀ type ∈ MessageType.all, type.number < UInt64.size := by decide
    exact hbound message.type (MessageType.mem_all message.type)
  simp only [toFields, List.forall_mem_cons]
  refine ⟨.varint (knows rfl) htype, .varint (knows rfl) message.id.toUInt64.toNat_lt_size, ?_, ?_⟩
  · exact .message (knows_payload _) (message.payload.conforms _)
  · simp

/-- What is written can be read again as fields. -/
theorem Message.decode_fields (message : Message) (h : message.encode.length < UInt64.size) :
    Wire.decode Shape.layout .message message.encode = .ok message.toFields :=
  decode_encode_fields (message.conforms 96) h

/-- A written message takes at least a byte. -/
theorem Message.encode_ne_nil (message : Message) : message.encode ≠ [] := by
  have hmem : .varint 1 message.type.number ∈ message.toFields := List.mem_cons_self ..
  have hpos := (Field.varint 1 message.type.number).length_encode_pos
  exact List.ne_nil_of_length_pos (Nat.lt_of_lt_of_le hpos (length_encode_le_of_mem hmem))

end StepRunner
