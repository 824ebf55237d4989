import StepRunner.Loop
import StepRunner.Proofs.Message.Validity
import StepRunner.Proofs.Session.Steps

namespace StepRunner

open Wire

namespace Message

/-- The fields ask whether there is a step of this text with so many parameters. -/
structure AsksFor (fields : List Field) (id : Int64) (text : String) (count : Int32) : Prop where
  type : wireNumber fields = MessageType.stepValidateRequest.number
  id : Int64.ofNat ((varint? 2 fields).getD 0) = id
  body : ∃ body, body? MessageType.stepValidateRequest.payloadTag fields = some body ∧
    (text? 1 body).getD "" = text ∧ Int32.ofNat ((varint? 2 body).getD 0) = count

theorem AsksFor.ofFields? {fields : List Field} {id : Int64} {text : String} {count : Int32}
    (h : AsksFor fields id text count) :
    Message.ofFields? fields =
      .ok ⟨id, .stepValidateRequest, .stepValidateRequest ⟨text, .ofNat count.toInt.toNat⟩⟩ := by
  obtain ⟨body, hbody, rfl, rfl⟩ := h.body
  rw [ofFields?_of_number h.type, hbody, h.id]
  rfl

end Message

/-- What is left of a count is the count, or zero for one below zero. -/
theorem toNat_ofNat_count (count : Int32) :
    ((UInt64.ofNat count.toInt.toNat).toNat : Int) = max count.toInt 0 := by
  have hlt := count.toInt_lt
  have hsize : count.toInt.toNat < UInt64.size := by
    have : (2 : Int) ^ 31 ≤ UInt64.size := by decide
    omega
  rw [UInt64.toNat_ofNat_of_lt' hsize, Int.toNat_eq_max]

namespace StepRegistry

/-- There is a step of this text, and it takes so many parameters. -/
def Takes (steps : StepRegistry) (text : String) (count : Int) : Prop :=
  ∃ step, steps.get? text = some step ∧ (step.arity : Int) = count

/-- The verdict is what the protocol asks for: that there is such a step, or a message why not. -/
structure Decides (steps : StepRegistry) (text : String) (count : Int)
    (verdict : StepValidateResponse) : Prop where
  isValid_iff : verdict.isValid = true ↔ steps.Takes text count
  errorMessage : verdict.isValid = false → verdict.errorMessage ≠ none

variable {steps : StepRegistry} {text : String} {count : Int} {verdict : StepValidateResponse}

theorem Takes.nonneg (h : steps.Takes text count) : 0 ≤ count := by
  obtain ⟨step, -, rfl⟩ := h
  exact Int.natCast_nonneg _

variable (steps) in
theorem decides_validate (request : StepValidateRequest) :
    steps.Decides request.stepText request.numberOfParameters.toNat (steps.validate request) := by
  rw [validate]
  cases hget : steps.get? request.stepText with
  | none => exact ⟨by simp [Takes, hget], by simp⟩
  | some step =>
    have htakes : steps.Takes request.stepText request.numberOfParameters.toNat ↔
        step.arity = request.numberOfParameters.toNat := by
      simp only [Takes, hget, Option.some.injEq, exists_eq_left', Int.natCast_inj]
    by_cases harity : step.arity = request.numberOfParameters.toNat
    · simp only [ne_eq, harity, not_true, if_false]
      exact ⟨by simp [htakes, harity], by simp⟩
    · simp only [ne_eq, harity, not_false_eq_true, if_true]
      exact ⟨by simp [htakes, harity], by simp⟩

/-- A verdict on no parameters is wrong for fewer, exactly if there is a step without any. -/
theorem Decides.iff_of_neg (h : steps.Decides text 0 verdict) (hcount : count < 0) :
    steps.Decides text count verdict ↔ ¬ steps.Takes text 0 := by
  have hnone : ¬ steps.Takes text count := fun htakes => absurd htakes.nonneg (by omega)
  constructor
  · intro hdecides htakes
    exact hnone (hdecides.isValid_iff.mp (h.isValid_iff.mpr htakes))
  · intro hfree
    refine ⟨?_, h.errorMessage⟩
    rw [h.isValid_iff]
    exact iff_of_false hfree hnone

end StepRegistry

namespace Dispatcher

variable (hooks : HookRegistry) (steps : StepRegistry) (executor : Executor)

/-- **The verdict on a step is right but for a count below zero,** which is judged as zero. -/
theorem decides_iff_of_answer {frame : Bytes} {fields : List Field} {id : Int64} {text : String}
    {count : Int32} (hframe : Wire.decode Shape.layout .message frame = .ok fields)
    (hasks : Message.AsksFor fields id text count) (world : World) :
    ∃ verdict, (standard hooks steps executor).answer frame world =
        (.done (.ok ⟨⟨id, .stepValidateResponse, .stepValidateResponse verdict⟩, false⟩), world) ∧
      steps.Decides text (max count.toInt 0) verdict ∧
      (steps.Decides text count.toInt verdict ↔ ¬ (count.toInt < 0 ∧ steps.Takes text 0)) := by
  have hdecides : steps.Decides text (max count.toInt 0)
      (steps.validate ⟨text, .ofNat count.toInt.toNat⟩) := by
    rw [← toNat_ofNat_count]
    exact steps.decides_validate ⟨text, .ofNat count.toInt.toNat⟩
  refine ⟨_, ?_, hdecides, ?_⟩
  · have hdecode : Message.decode frame = .ok ⟨id, .stepValidateRequest,
        .stepValidateRequest ⟨text, .ofNat count.toInt.toNat⟩⟩ := by
      rw [Message.decode_of_fields hframe, hasks.ofFields?]
      rfl
    simp only [answer, hdecode, judges_validate hooks steps executor text _ id world]
    rfl
  · by_cases hneg : count.toInt < 0
    · rw [Int.max_eq_right (Int.le_of_lt hneg)] at hdecides
      rw [hdecides.iff_of_neg hneg, and_iff_right hneg]
    · rw [Int.max_eq_left (Int.not_lt.mp hneg)] at hdecides
      exact iff_of_true hdecides fun h => hneg h.1

/-- Asked for a step with fewer parameters than none, the dispatcher says that there is one. -/
theorem decides_iff_of_answer_of_negative_count :
    let steps : StepRegistry := .ofList [.ofText "Wait" fun _ => .done (.ok ())]
    let frame : Bytes := [8, 9, 16, 7, 98, 17, 10, 4, 87, 97, 105, 116,
      16, 255, 255, 255, 255, 255, 255, 255, 255, 255, 1]
    let fields : List Field :=
      [.varint 1 9, .varint 2 7, .message 12 [.text 1 "Wait", .varint 2 0xffffffffffffffff]]
    Wire.decode Shape.layout .message frame = .ok fields ∧
      Message.AsksFor fields 7 "Wait" (-1) ∧
      ∃ verdict, (standard .empty steps ⟨none⟩).answer frame .fresh =
          (.done (.ok ⟨⟨7, .stepValidateResponse, .stepValidateResponse verdict⟩, false⟩), .fresh) ∧
        verdict.isValid = true ∧ ¬ steps.Decides "Wait" (-1) verdict := by
  intro steps frame fields
  have hframe : Wire.decode Shape.layout .message frame = .ok fields := by
    simp only [frame, fields]
    rfl
  have hasks : Message.AsksFor fields 7 "Wait" (-1) := ⟨rfl, rfl, _, rfl, rfl, by decide⟩
  have htakes : steps.Takes "Wait" 0 := ⟨_, rfl, rfl⟩
  obtain ⟨verdict, hanswer, hdecides, hright⟩ :=
    decides_iff_of_answer .empty steps ⟨none⟩ hframe hasks .fresh
  refine ⟨hframe, hasks, verdict, hanswer, hdecides.isValid_iff.mpr htakes, ?_⟩
  intro h
  exact hright.mp h ⟨by decide, htakes⟩

end Dispatcher

end StepRunner
