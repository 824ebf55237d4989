import StepRunner.Proofs.Message.JsonForm
import StepRunner.Proofs.Json.Printing

namespace StepRunner

open Json (TextFault Exact Closed Fits64 PrintsBack ReadsEntries)

namespace Json

section

variable {α : Type} {depth : Nat}

attribute [simp] Exact.null Exact.bool Exact.string

theorem fits64_toInt (value : Int64) : Fits64 value.toInt := by
  have hlow : -2 ^ 63 ≤ value.toInt := value.le_toInt
  have hhigh : value.toInt < 2 ^ 63 := value.toInt_lt
  have hsize : (2 ^ 63 : Int) < UInt64.size := by decide
  exact ⟨hlow, Int.lt_trans hhigh hsize⟩

theorem fits64_toNat (value : UInt64) : Fits64 value.toNat :=
  ⟨by omega, Int.ofNat_lt.mpr value.toNat_lt_size⟩

@[simp]
theorem exact_ofNat (value : UInt64) : Exact depth (ofNat value.toNat) :=
  .integer (fits64_toNat value)

@[simp]
theorem exact_ofStrings (texts : List String) : Exact (depth + 1) (ofStrings texts) := by
  refine .array ?_
  intro item hitem
  obtain ⟨text, -, rfl⟩ := List.mem_map.mp hitem
  exact .string text

theorem exact_ofOption {form : α → Json} (h : ∀ value, Exact depth (form value))
    (value : Option α) : Exact depth (ofOption form value) := by
  cases value with
  | none => exact .null
  | some value => exact h value

theorem exact_optionalEntry {form : α → Json} (h : ∀ value, Exact depth (form value))
    (name : String) (value : Option α) :
    ∀ entry ∈ optionalEntry name form value, Exact depth entry.2 := by
  cases value with
  | none => nofun
  | some value =>
    intro entry hentry
    obtain rfl := List.mem_singleton.mp hentry
    exact h value

end

end Json

open Json (exact_ofOption exact_optionalEntry)

section

variable {depth : Nat}

theorem SpecInfo.exact_toJson (spec : SpecInfo) : Exact (depth + 2) spec.toJson :=
  .object (by simp)

theorem ScenarioInfo.exact_toJson (scenario : ScenarioInfo) : Exact (depth + 2) scenario.toJson :=
  .object (by simp)

theorem StepInfo.exact_toJson (step : StepInfo) : Exact (depth + 1) step.toJson :=
  .object (by simp)

theorem ExecutionInfo.exact_toJson (info : ExecutionInfo) : Exact (depth + 3) info.toJson := by
  refine .object ?_
  simp only [List.forall_mem_cons]
  exact ⟨exact_ofOption SpecInfo.exact_toJson _, exact_ofOption ScenarioInfo.exact_toJson _,
    exact_ofOption StepInfo.exact_toJson _, exact_ofOption .string _, nofun⟩

theorem ExecutionResult.exact_toJson (result : ExecutionResult) :
    Exact (depth + 1) result.toJson := by
  have hmessage : ∀ entry ∈ Json.optionalEntry "errorMessage" .string result.errorMessage,
      Exact depth entry.2 := exact_optionalEntry .string _ _
  have htrace : ∀ entry ∈ Json.optionalEntry "stackTrace" .string result.stackTrace,
      Exact depth entry.2 := exact_optionalEntry .string _ _
  have hscreenshot : ∀ entry ∈ Json.optionalEntry "screenShot" screenshotText result.screenshot,
      Exact depth entry.2 := exact_optionalEntry (fun _ => .string _) _ _
  refine .object ?_
  simp only [List.forall_mem_append, List.forall_mem_cons]
  exact ⟨⟨⟨⟨.bool _, Json.exact_ofNat _, .bool _, nofun⟩, hmessage⟩, htrace⟩, hscreenshot⟩

theorem Payload.exact_toJson (payload : Payload) : Exact (depth + 4) payload.toJson := by
  cases payload with
  | lifecycle event info =>
    refine .object ?_
    simp only [List.forall_mem_singleton]
    exact exact_ofOption ExecutionInfo.exact_toJson info
  | stepValidateResponse response =>
    refine .object ?_
    rw [List.forall_mem_cons]
    exact ⟨.bool _, exact_optionalEntry .string _ _⟩
  | executionStatus result =>
    refine .object ?_
    simp only [List.forall_mem_singleton]
    exact result.exact_toJson
  | _ => exact .object (by simp)

theorem Message.exact_toJson (message : Message) : Exact (depth + 5) message.toJson := by
  refine .object ?_
  simp only [List.forall_mem_cons]
  exact ⟨.integer (Json.fits64_toInt _), .string _, Payload.exact_toJson _, nofun⟩

end

namespace Message

section

variable {rest : List Char}

theorem readColon_cons (cs : List Char) : Json.readColon (':' :: cs) = .ok cs := rfl

theorem readType_quote (type : MessageType) (rest : List Char) :
    readType (Json.quote type.name.toList ++ rest) = .ok (type.toJson, rest) := by
  have hkey := Json.readKey_quote rest type.name
  have hname := MessageType.ofName_name type
  have htypeName : readTypeName (Json.quote type.name.toList ++ rest) = .ok (type.name, rest) := by
    rw [readTypeName, hkey]
    simp only [bind, Except.bind, hname]
    rfl
  have hskip : Json.skipBlanks (Json.quote type.name.toList ++ rest) =
      Json.quote type.name.toList ++ rest := rfl
  rw [readType, hskip]
  split
  · next hobject => exact absurd (List.cons.inj hobject).1 (by decide)
  · simp only [htypeName, bind, Except.bind]
    rfl

theorem readEntry_type (type : MessageType) :
    readEntry ["messageId"] "messageType" (':' :: (type.toJson.print ++ rest)) =
      .ok (("messageType", type.toJson), ["messageType", "messageId"], rest) := by
  have htype := readType_quote type rest
  have hprint : type.toJson.print = Json.quote type.name.toList := by
    rw [MessageType.toJson, Json.print]
  rw [readEntry, if_neg (by decide), if_neg (by decide), if_pos rfl, readColon_cons, hprint]
  simp only [bind, Except.bind, htype]

variable (hrest : Closed rest)

include hrest

theorem readId_integerText (id : Int64) :
    readId (Json.integerText id.toInt ++ rest) = .ok (.integer id.toInt, rest) := by
  obtain ⟨c, cs, hcons, hfirst⟩ := Json.exists_cons_integerText id.toInt
  have hnumber := Json.readNumber_integerText hrest (Json.fits64_toInt id)
  have hfits : Json.asInt64 (.integer id.toInt) = .ok id :=
    (Json.reads_int64 Json.keeps_id).reads id
  have hskip : Json.skipBlanks (c :: (cs ++ rest)) = c :: (cs ++ rest) :=
    List.dropWhile_cons_of_neg (by simp [Json.isBlank_eq_false hfirst])
  rw [hcons, List.cons_append] at hnumber ⊢
  rw [readId, hskip]
  simp only [if_pos hfirst, hnumber, bind, Except.bind, hfits]
  rfl

theorem readEntry_id (id : Int64) :
    readEntry [] "messageId" (':' :: ((Json.integer id.toInt).print ++ rest)) =
      .ok (("messageId", .integer id.toInt), ["messageId"], rest) := by
  have hid := readId_integerText hrest id
  rw [readEntry, if_neg List.not_mem_nil, if_pos rfl, readColon_cons, Json.print]
  simp only [bind, Except.bind, hid]

theorem readEntry_payload (payload : Payload) :
    readEntry ["messageType", "messageId"] payload.name (':' :: (payload.toJson.print ++ rest)) =
      .ok ((payload.name, payload.toJson), ["messageType", "messageId"], rest) := by
  obtain ⟨hid, htype⟩ : payload.name ≠ "messageId" ∧ payload.name ≠ "messageType" :=
    payloadName_ne payload.type
  have hnew : payload.name ∉ ["messageType", "messageId"] := by simp [hid, htype]
  have hvalue : PrintsBack (Json.readValue (Json.depthLimit - 1)) payload.toJson :=
    Json.readValue_print payload.exact_toJson
  have hentry := Json.printsBack_readEntry hvalue payload.name hrest
  rw [readEntry, if_neg hnew, if_neg hid, if_neg htype]
  simp only [bind, Except.bind, hentry]

end

/-- The id and the type are checked where they stand, and the payload is read whole. -/
theorem readsEntries (message : Message) : ReadsEntries readEntry [] message.entries :=
  .cons (fun _ hrest => readEntry_id hrest message.id)
    (.cons (fun _ _ => readEntry_type message.type)
      (.cons (fun _ hrest => readEntry_payload hrest message.payload) (.nil _)))

theorem ofText?_text (message : Message) : ofText? message.text = .ok message := by
  obtain ⟨body, hprint, hmembers⟩ := Json.readMembers_print (readsEntries message)
  have htext : message.text.toList = '\x7b' :: body := by
    rw [text, Json.text, String.toList_ofList]
    exact hprint
  have hskip : Json.skipBlanks ('\x7b' :: body) = '\x7b' :: body := rfl
  have hentries : Json.readMembers readEntry [] body = .ok (message.entries, []) := by
    have hclosed := hmembers []
    rwa [List.append_nil] at hclosed
  have hmessage : ofEntries message.entries = .ok message :=
    ofEntries_of_lookup Json.keeps_id message (nodup_entries message) fun _ => by simp
  rw [ofText?, htext, hskip]
  simp only [bind, Except.bind, hentries, hmessage]
  rfl

/-- **Messages are read back from JSON,** from the text, from the value, and from the value that the
text holds. -/
theorem json_roundtrip (message : Message) :
    ofText? message.text = .ok message ∧ ofJson? message.toJson = .ok message ∧
      Json.parse message.text = .ok message.toJson := by
  refine ⟨ofText?_text message, ofJson?_toJson message, ?_⟩
  exact Json.parse_text message.exact_toJson

end Message

end StepRunner
