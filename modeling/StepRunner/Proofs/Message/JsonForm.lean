import StepRunner.Message.Text
import StepRunner.Proofs.Bytes.Base64
import StepRunner.Proofs.Json.Printing
import StepRunner.Proofs.Json.Record

namespace StepRunner

open Json (Misfit Place Record Keeps Exact)

namespace Json

section

variable {α β : Type} {f : Json → Json} (hf : Keeps f)

theorem asOption_of_ne_null {read : Json → Except Misfit α} {json : Json} (h : json ≠ null) :
    asOption read json = some <$> read json := by
  cases json <;> first | rfl | contradiction

/-- A form is told from the null that stands for an absent value, and is read back. -/
structure Reads (f : Json → Json) (form : α → Json) (read : Json → Except Misfit α) : Prop where
  ne_null (value : α) : f (form value) ≠ null
  reads (value : α) : read (f (form value)) = .ok value

theorem Reads.some {form : α → Json} {read : Json → Except Misfit α} (h : Reads f form read)
    (value : α) : asOption read (f (form value)) = .ok (some value) := by
  rw [asOption_of_ne_null (h.ne_null value), h.reads value]
  rfl

include hf

theorem reads_string : Reads f string asString where
  ne_null value := by rw [hf.string]; nofun
  reads value := by rw [hf.string]; rfl

theorem reads_bool : Reads f bool asBool where
  ne_null value := by rw [hf.bool]; nofun
  reads value := by rw [hf.bool]; rfl

theorem reads_uint64 (expected : String) :
    Reads f (fun value : UInt64 => ofNat value.toNat) (asUInt64 expected) where
  ne_null value := by rw [ofNat, hf.integer]; nofun
  reads value := by
    have hlow : 0 ≤ (value.toNat : Int) := Int.natCast_nonneg _
    have hhigh : (value.toNat : Int) < UInt64.size := Int.ofNat_lt.mpr value.toNat_lt_size
    rw [ofNat, hf.integer, asUInt64, if_pos ⟨hlow, hhigh⟩, Int.toNat_natCast, UInt64.ofNat_toNat]

theorem reads_int64 : Reads f (fun value : Int64 => integer value.toInt) asInt64 where
  ne_null value := by rw [hf.integer]; nofun
  reads value := by
    have hlow : Int64.minValue.toInt ≤ value.toInt := Int64.minValue_le_toInt value
    have hhigh : value.toInt ≤ Int64.maxValue.toInt := Int64.toInt_le value
    rw [hf.integer, asInt64, if_pos ⟨hlow, hhigh⟩, Int64.ofInt_toInt]

theorem reads_strings : Reads f ofStrings asStrings where
  ne_null value := by rw [ofStrings, hf.array]; nofun
  reads texts := by
    have hitems : ((texts.map string).map f).mapM asString = .ok texts := by
      induction texts with
      | nil => rfl
      | cons text texts ih =>
        rw [List.map_cons, List.map_cons, List.mapM_cons, ih, (reads_string hf).reads]
        rfl
    rw [ofStrings, hf.array, asStrings, hitems]

/-- An object is not null. -/
theorem object_ne_null {entries : List (String × Json)} (h : (entries.map Prod.fst).Nodup) :
    f (object entries) ≠ null := by
  obtain ⟨others, hobject, -⟩ := hf.object h
  rw [hobject]
  nofun

/-- A field that may be null is read back. -/
theorem reads_option {form : α → Json} {read : Json → Except Misfit α} (h : Reads f form read)
    (value : Option α) : asOption read (f (ofOption form value)) = .ok value := by
  cases value with
  | none => rw [ofOption, hf.null]; rfl
  | some value => exact h.some value

omit hf

/-- A field that may be left out is read back. -/
theorem Record.Fills.and_optional {record : Record (Option α → β)} {field? : String → Option Json}
    {make : Option α → β} {name : String} {form : α → Json} {read : Json → Except Misfit α}
    (h : record.Fills field? make) (hreads : Reads f form read) {value : Option α} {result : β}
    (hfield : field? name = value.map fun value => f (form value)) (hmake : make value = result) :
    (record.defaulting name (asOption read) none).Fills field? result := by
  cases value with
  | none => exact h.and_absent hfield rfl hmake
  | some value => exact h.and_present hfield (hreads.some value) hmake

end

end Json

open Json (reads_string reads_bool reads_uint64 reads_int64 reads_strings reads_option
  object_ne_null Reads)

section

variable {f : Json → Json} (hf : Keeps f) (place : Place)

include hf

theorem SpecInfo.reads_toJson : Reads f toJson (record.read place "SpecInfo") where
  ne_null spec := object_ne_null hf (by simp)
  reads spec := by
    obtain ⟨name, fileName, isFailed, tags⟩ := spec
    refine Record.read_of_fills hf place "SpecInfo" (by simp) ?_
    refine .and_present ?_ rfl ((reads_strings hf).reads tags) rfl
    refine .and_present ?_ rfl ((reads_bool hf).reads isFailed) rfl
    refine .and_present ?_ rfl ((reads_string hf).reads fileName) rfl
    refine .and_present ?_ rfl ((reads_string hf).reads name) rfl
    exact Record.fills_pure mk

theorem ScenarioInfo.reads_toJson : Reads f toJson (record.read place "ScenarioInfo") where
  ne_null scenario := object_ne_null hf (by simp)
  reads scenario := by
    obtain ⟨name, isFailed, tags⟩ := scenario
    refine Record.read_of_fills hf place "ScenarioInfo" (by simp) ?_
    refine .and_present ?_ rfl ((reads_strings hf).reads tags) rfl
    refine .and_present ?_ rfl ((reads_bool hf).reads isFailed) rfl
    refine .and_present ?_ rfl ((reads_string hf).reads name) rfl
    exact Record.fills_pure mk

theorem StepInfo.reads_toJson : Reads f toJson (record.read place "StepInfo") where
  ne_null step := object_ne_null hf (by simp)
  reads step := by
    obtain ⟨stepText, isFailed⟩ := step
    refine Record.read_of_fills hf place "StepInfo" (by simp) ?_
    refine .and_present ?_ rfl ((reads_bool hf).reads isFailed) rfl
    refine .and_present ?_ rfl ((reads_string hf).reads stepText) rfl
    exact Record.fills_pure mk

theorem ExecutionInfo.reads_toJson : Reads f toJson (read place) where
  ne_null info := object_ne_null hf (by simp)
  reads info := by
    obtain ⟨spec, scenario, step, stacktrace⟩ := info
    refine Record.read_of_fills hf place "ExecutionInfo" (by simp) ?_
    refine .and_present ?_ rfl (reads_option hf (reads_string hf) stacktrace) rfl
    refine .and_present ?_ rfl (reads_option hf (StepInfo.reads_toJson hf place) step) rfl
    refine .and_present ?_ rfl (reads_option hf (ScenarioInfo.reads_toJson hf place) scenario) rfl
    refine .and_present ?_ rfl (reads_option hf (SpecInfo.reads_toJson hf place) spec) rfl
    exact Record.fills_pure mk

theorem ExecutionResult.reads_screenshot : Reads f screenshotText asScreenshot where
  ne_null screenshot := (reads_string hf).ne_null _
  reads screenshot := by
    rw [screenshotText, asScreenshot, (reads_string hf).reads]
    simp only [bind, Except.bind, Base64.decode_encode_text]
    rfl

theorem ExecutionResult.reads_toJson : Reads f toJson (read place) where
  ne_null result := by
    obtain ⟨failed, time, recoverable, message, trace, screenshot⟩ := result
    refine object_ne_null hf ?_
    cases message <;> cases trace <;> cases screenshot <;> simp [Json.optionalEntry]
  reads result := by
    obtain ⟨failed, time, recoverable, message, trace, screenshot⟩ := result
    have hnodup : (([("failed", Json.bool failed), ("executionTime", .ofNat time.toNat),
        ("recoverableError", .bool recoverable)] ++
        Json.optionalEntry "errorMessage" .string message ++
        Json.optionalEntry "stackTrace" .string trace ++
        Json.optionalEntry "screenShot" screenshotText screenshot).map Prod.fst).Nodup := by
      cases message <;> cases trace <;> cases screenshot <;> simp [Json.optionalEntry]
    refine Record.read_of_fills hf place "ExecutionResult" hnodup ?_
    refine .and_optional ?_ (reads_screenshot hf) ?screenshot rfl
    refine .and_optional ?_ (reads_string hf) ?trace rfl
    refine .and_optional ?_ (reads_string hf) ?message rfl
    refine .and_present ?_ rfl ((reads_bool hf).reads recoverable) rfl
    refine .and_present ?_ rfl ((reads_uint64 hf "u64").reads time) rfl
    refine .and_present ?_ rfl ((reads_bool hf).reads failed) rfl
    exact Record.fills_pure mk
    all_goals cases message <;> cases trace <;> cases screenshot <;> rfl

/-- A payload is read back as one of its own type. -/
theorem Payload.read_toJson (payload : Payload) :
    (record payload.type).read place (recordName payload.type) (f payload.toJson) =
      .ok payload := by
  cases payload with
  | lifecycle event info =>
    refine Record.read_of_fills hf place _ (by simp) ?_
    refine .and_present ?_ rfl (reads_option hf (ExecutionInfo.reads_toJson hf .inPayload) info) rfl
    exact Record.fills_pure (lifecycle event)
  | executeStep request =>
    obtain ⟨actual, parsed, parameters, failing⟩ := request
    -- a name for what is made of the fields, so that they come off it one by one
    let make (actual parsed : String) (parameters : List String) (failing : Bool) :=
      executeStep ⟨actual, parsed, parameters, failing⟩
    refine Record.read_of_fills hf place _ (by simp)
      (?_ : Record.Fills _ _ (make actual parsed parameters failing))
    refine .and_present ?_ rfl ((reads_bool hf).reads failing) rfl
    refine .and_present ?_ rfl ((reads_strings hf).reads parameters) rfl
    refine .and_present ?_ rfl ((reads_string hf).reads parsed) rfl
    refine .and_present ?_ rfl ((reads_string hf).reads actual) rfl
    exact Record.fills_pure make
  | stepValidateRequest request =>
    obtain ⟨text, count⟩ := request
    let make (text : String) (count : UInt64) := stepValidateRequest ⟨text, count⟩
    refine Record.read_of_fills hf place _ (by simp) (?_ : Record.Fills _ _ (make text count))
    refine .and_present ?_ rfl ((reads_uint64 hf "usize").reads count) rfl
    refine .and_present ?_ rfl ((reads_string hf).reads text) rfl
    exact Record.fills_pure make
  | stepValidateResponse response =>
    obtain ⟨valid, message⟩ := response
    let make (valid : Bool) (message : Option String) := stepValidateResponse ⟨valid, message⟩
    have hnodup : ((("isValid", Json.bool valid) ::
        Json.optionalEntry "errorMessage" .string message).map Prod.fst).Nodup := by
      cases message <;> simp [Json.optionalEntry]
    refine Record.read_of_fills hf place _ hnodup (?_ : Record.Fills _ _ (make valid message))
    refine .and_optional ?_ (reads_string hf) ?message rfl
    refine .and_present ?_ rfl ((reads_bool hf).reads valid) rfl
    exact Record.fills_pure make
    all_goals cases message <;> rfl
  | executionStatus result =>
    refine Record.read_of_fills hf place _ (by simp) ?_
    refine .and_present ?_ rfl ((ExecutionResult.reads_toJson hf .inPayload).reads result) rfl
    exact Record.fills_pure executionStatus
  | stepNamesResponse steps =>
    refine Record.read_of_fills hf place _ (by simp) ?_
    refine .and_present ?_ rfl ((reads_strings hf).reads steps) rfl
    exact Record.fills_pure stepNamesResponse
  | stepNamesRequest | killProcess | storeInit =>
    exact Record.read_of_fills hf place _ List.nodup_nil (Record.fills_pure _)

end

namespace MessageType

theorem ofPayloadName?_payloadName (type : MessageType) :
    ofPayloadName? type.payloadName = some type := by
  cases type with
  | lifecycle event => cases event <;> rfl
  | storeInit scope => cases scope <;> rfl
  | _ => rfl

theorem ofName?_name (type : MessageType) : ofName? type.name = some type := by
  cases type with
  | lifecycle event => cases event <;> rfl
  | storeInit scope => cases scope <;> rfl
  | _ => rfl

theorem ofName_name (type : MessageType) : ofName type.name = .ok type := by
  rw [ofName, ofName?_name]

theorem reads_toJson {f : Json → Json} (hf : Keeps f) : Reads f toJson ofJson? where
  ne_null type := (reads_string hf).ne_null type.name
  reads type := by
    rw [toJson, hf.string, ofJson?]
    exact ofName_name type

theorem payloadName_of_ofPayloadName? {name : String} {type : MessageType}
    (h : ofPayloadName? name = some type) : type.payloadName = name := by
  simpa using List.find?_some h

end MessageType

/-- A payload is found by its name, when no other entry has the name of one. -/
theorem Payload.ofEntries_of_lookup {entries : List (String × Json)} {type : MessageType}
    {value : Json} (h : entries.lookup type.payloadName = some value)
    (honly : ∀ key ∈ entries.map Prod.fst, ∀ other ∈ MessageType.ofPayloadName? key, other = type) :
    ofEntries entries = (record type).read .inPayload (recordName type) value := by
  induction entries with
  | nil => cases h
  | cons entry entries ih =>
    obtain ⟨key, first⟩ := entry
    rw [List.lookup_cons] at h
    rw [ofEntries]
    cases hkey : MessageType.ofPayloadName? key with
    | some other =>
      obtain rfl := honly key List.mem_cons_self other hkey
      rw [MessageType.payloadName_of_ofPayloadName? hkey, beq_self_eq_true] at h
      obtain rfl := Option.some.inj h
      rfl
    | none =>
      have hne : type.payloadName ≠ key := by
        rintro rfl
        rw [MessageType.ofPayloadName?_payloadName] at hkey
        cases hkey
      rw [beq_eq_false_iff_ne.mpr hne] at h
      exact ih h fun key hmem => honly key (List.mem_cons_of_mem _ hmem)

namespace Message

def entries (message : Message) : List (String × Json) :=
  [("messageId", .integer message.id.toInt), ("messageType", message.type.toJson),
    (message.payload.name, message.payload.toJson)]

/-- No payload has the name of another field. -/
theorem payloadName_ne (type : MessageType) :
    type.payloadName ≠ "messageId" ∧ type.payloadName ≠ "messageType" := by
  have hall : ∀ type ∈ MessageType.all,
      type.payloadName ≠ "messageId" ∧ type.payloadName ≠ "messageType" := by decide
  exact hall type (MessageType.mem_all type)

theorem nodup_entries (message : Message) : (message.entries.map Prod.fst).Nodup := by
  obtain ⟨hid, htype⟩ := payloadName_ne message.payload.type
  simp [entries, Payload.name, hid.symm, htype.symm]

/-- A payload is the only entry that has the name of one. -/
theorem eq_type_of_mem_entries {message : Message} {entry : String × Json}
    (h : entry ∈ message.entries) :
    ∀ other ∈ MessageType.ofPayloadName? entry.1, other = message.payload.type := by
  have hid : MessageType.ofPayloadName? "messageId" = none := by decide
  have htype : MessageType.ofPayloadName? "messageType" = none := by decide
  intro other hother
  simp only [entries, List.mem_cons, List.not_mem_nil, or_false] at h
  rcases h with rfl | rfl | rfl
  · rw [hid] at hother
    cases hother
  · rw [htype] at hother
    cases hother
  · rw [Payload.name, MessageType.ofPayloadName?_payloadName] at hother
    exact (Option.some.inj hother).symm

/-- A message is read from its entries, in whatever order they come. -/
theorem ofEntries_of_lookup {f : Json → Json} (hf : Keeps f) (message : Message)
    {entries : List (String × Json)} (hnodup : (entries.map Prod.fst).Nodup)
    (hlookup : ∀ key, entries.lookup key = (message.entries.lookup key).map f) :
    ofEntries entries = .ok message := by
  obtain ⟨id, type, payload⟩ := message
  have hheader : header.ofEntries entries = .ok (mk id type) := by
    apply Record.ofEntries_of_fills hnodup
    simp only [hlookup]
    refine .and_present ?_ rfl ((MessageType.reads_toJson hf).reads type) rfl
    refine .and_present ?_ rfl ((reads_int64 hf).reads id) rfl
    exact Record.fills_pure mk
  have hpayload : Payload.ofEntries entries = .ok payload := by
    have hmem : (payload.name, payload.toJson) ∈ Message.entries ⟨id, type, payload⟩ :=
      List.mem_cons_of_mem _ (List.mem_cons_of_mem _ List.mem_cons_self)
    have hname : entries.lookup payload.name = some (f payload.toJson) := by
      rw [hlookup, (Json.lookup_eq_some_iff_mem (nodup_entries _)).mpr hmem]
      rfl
    rw [Payload.ofEntries_of_lookup hname, payload.read_toJson hf]
    intro key hkey
    obtain ⟨entry, hentry, rfl⟩ := List.mem_map.mp hkey
    have hfound := (Json.lookup_eq_some_iff_mem hnodup).mpr hentry
    rw [hlookup] at hfound
    obtain ⟨value, hvalue, -⟩ := Option.map_eq_some_iff.mp hfound
    exact eq_type_of_mem_entries ((Json.lookup_eq_some_iff_mem (nodup_entries _)).mp hvalue)
  rw [ofEntries, hheader]
  simp only [hpayload, bind, Except.bind]

/-- A message is read from its value, though its keys come sorted. -/
theorem ofJson?_toJson (message : Message) : ofJson? message.toJson = .ok message := by
  obtain ⟨entries, hobject, hnodup, hlookup⟩ :=
    Json.keeps_canonical.object (nodup_entries message)
  have hcanonical : message.toJson.canonical = .object entries := hobject
  rw [ofJson?, hcanonical]
  exact ofEntries_of_lookup Json.keeps_canonical message hnodup hlookup

end Message

end StepRunner
