import StepRunner.Proofs.Bytes.Spelling
import StepRunner.Proofs.Message.Text

namespace StepRunner

open Json (Misfit Place Record)

namespace Json.Record

variable {α β : Type} {record : Record (α → β)} {name : String} {read : Json → Except Misfit α}
  {absent : Except Misfit α} {field? : String → Option Json} {result : β}

/-- What a record with one more field was made of. -/
theorem exists_of_build_and (h : (record.and name read absent).build field? = .ok result) :
    ∃ make value, record.build field? = .ok make ∧
      (field? name).elim absent read = .ok value ∧ make value = result := by
  obtain ⟨make, hmake, hrest⟩ := exists_of_bind_eq_ok h
  cases hfield : field? name with
  | none =>
    simp only [hfield] at hrest
    obtain ⟨value, hvalue, hresult⟩ := exists_of_bind_eq_ok hrest
    exact ⟨make, value, hmake, hvalue, Except.ok.inj hresult⟩
  | some json =>
    simp only [hfield] at hrest
    obtain ⟨value, hvalue, hresult⟩ := exists_of_bind_eq_ok hrest
    exact ⟨make, value, hmake, hvalue, Except.ok.inj hresult⟩

end Json.Record

namespace ExecutionResult

/-- The value has this text where a result has its screenshot. -/
inductive HasScreenshotText (text : String) : Json → Prop
  | named {entries : List (String × Json)}
      (h : entries.lookup "screenShot" = some (.string text)) :
      HasScreenshotText text (.object entries)
  | placed {items : List Json} (h : items[5]? = some (.string text)) :
      HasScreenshotText text (.array items)

variable {field? : String → Option Json} {place : Place} {json : Json} {text : String}
  {result : ExecutionResult}

/-- The screenshot of a result is what was read in its place, and nothing where there was nothing. -/
theorem screenshot_of_build (h : record.build field? = .ok result) :
    (field? "screenShot").elim (.ok none) (Json.asOption asScreenshot) =
      .ok result.screenshot := by
  obtain ⟨makeScreenshot, screenshot, hrest, hscreenshot, rfl⟩ := Record.exists_of_build_and h
  obtain ⟨makeTrace, trace, hrest, -, htrace⟩ := Record.exists_of_build_and hrest
  obtain ⟨makeMessage, message, hrest, -, hmessage⟩ := Record.exists_of_build_and hrest
  obtain ⟨makeRecoverable, recoverable, hrest, -, hrecoverable⟩ := Record.exists_of_build_and hrest
  obtain ⟨makeTime, time, hrest, -, htime⟩ := Record.exists_of_build_and hrest
  obtain ⟨makeFailed, failed, hrest, -, hfailed⟩ := Record.exists_of_build_and hrest
  cases hrest
  subst hfailed htime hrecoverable hmessage htrace
  exact hscreenshot

theorem lookup_zip_items (items : List Json) :
    ((record.rules.map (·.name)).zip items).lookup "screenShot" = items[5]? := by
  rcases items with _ | ⟨_, _ | ⟨_, _ | ⟨_, _ | ⟨_, _ | ⟨_, _ | ⟨_, _⟩⟩⟩⟩⟩⟩ <;> rfl

/-- The fields that a result was made of, in an object or an array. -/
theorem exists_build_of_read (h : read place json = .ok result) (htext : HasScreenshotText text json) :
    ∃ field?, field? "screenShot" = some (.string text) ∧ record.build field? = .ok result := by
  cases htext with
  | @named entries hlookup =>
    obtain ⟨_, -, hbuild⟩ := exists_of_bind_eq_ok h
    exact ⟨fun name => entries.lookup name, hlookup, hbuild⟩
  | @placed items hitem =>
    obtain ⟨_, -, hmatch⟩ := exists_of_bind_eq_ok h
    refine ⟨fun name => ((record.rules.map (·.name)).zip items).lookup name, ?_, ?_⟩
    · rw [← hitem]
      exact lookup_zip_items items
    · split at hmatch
      · cases hmatch
      · next value hbuild =>
        split at hmatch
        · cases hmatch
        · cases hmatch
          exact hbuild

theorem asScreenshot_eq_ok_iff {bytes : Bytes} :
    asScreenshot (.string text) = .ok bytes ↔ text = String.ofList (Base64.encode bytes) := by
  have hread : asScreenshot (.string text) =
      (Base64.decode (Utf8.encode text)).mapError fun fault => .other fault.message := rfl
  rw [hread, ← Base64.decode_eq_ok_iff]
  constructor
  · exact eq_ok_of_mapError
  · intro h
    rw [h]
    rfl

/-- A result that was read has the bytes that the text spells. -/
theorem exists_screenshot_of_read (h : read place json = .ok result)
    (htext : HasScreenshotText text json) :
    ∃ bytes, result.screenshot = some bytes ∧ text = String.ofList (Base64.encode bytes) := by
  obtain ⟨field?, hfield, hbuild⟩ := exists_build_of_read h htext
  have hscreenshot := screenshot_of_build hbuild
  have hsome : Json.asOption asScreenshot (.string text) = some <$> asScreenshot (.string text) := rfl
  rw [hfield, Option.elim_some, hsome] at hscreenshot
  cases hread : asScreenshot (.string text) with
  | error misfit =>
    rw [hread] at hscreenshot
    cases hscreenshot
  | ok bytes =>
    rw [hread] at hscreenshot
    exact ⟨bytes, (Except.ok.inj hscreenshot).symm, asScreenshot_eq_ok_iff.mp hread⟩

theorem hasScreenshotText_toJson {bytes : Bytes} (h : result.screenshot = some bytes) :
    HasScreenshotText (String.ofList (Base64.encode bytes)) result.toJson := by
  obtain ⟨failed, time, recoverable, message, trace, screenshot⟩ := result
  cases h
  apply HasScreenshotText.named
  cases message <;> cases trace <;> rfl

/-- Sorting keys of their own leaves the text where it was. -/
theorem HasScreenshotText.canonical (h : HasScreenshotText text json)
    (hkeys : ∀ entries, json = .object entries → (entries.map Prod.fst).Nodup) :
    HasScreenshotText text json.canonical := by
  cases h with
  | @named entries hlookup =>
    obtain ⟨others, hobject, -, hothers⟩ := Json.keeps_canonical.object (hkeys entries rfl)
    rw [hobject]
    apply HasScreenshotText.named
    rw [hothers, hlookup, Option.map_some, Json.keeps_canonical.string]
  | @placed items hitem =>
    rw [Json.keeps_canonical.array]
    apply HasScreenshotText.placed
    rw [List.getElem?_map, hitem, Option.map_some, Json.keeps_canonical.string]

/-- **A screenshot has one form in JSON.** It is read back from that, and every other text in its
place is refused. -/
theorem one_screenshot_text :
    (∀ result : ExecutionResult, ofJson? result.toJson = .ok result ∧
      Json.parse result.toJson.text = .ok result.toJson ∧
      ∀ bytes, result.screenshot = some bytes →
        HasScreenshotText (String.ofList (Base64.encode bytes)) result.toJson) ∧
    (∀ place json text, HasScreenshotText text json →
      (∀ result, read place json = .ok result → ∃ bytes,
        result.screenshot = some bytes ∧ screenshotText bytes = .string text) ∧
      (Base64.Misspelled text.toList → ∃ misfit, read place json = .error misfit)) ∧
    (∀ place json text result, HasScreenshotText text json → read place json = .ok result →
      ∀ place' json' text' result', HasScreenshotText text' json' → read place' json' = .ok result' →
        result.screenshot = result'.screenshot → text = text') ∧
    (∀ text, Base64.Misspelled text.toList ↔ ∀ bytes, asScreenshot (.string text) ≠ .ok bytes) ∧
    ∀ json text, HasScreenshotText text json →
      (∀ entries, json = .object entries → (entries.map Prod.fst).Nodup) →
      ofJson? json = read .alone json.canonical ∧ HasScreenshotText text json.canonical := by
  have hmisspelled (text : String) :
      Base64.Misspelled text.toList ↔ ∀ bytes, asScreenshot (.string text) ≠ .ok bytes := by
    simp only [Base64.misspelled_iff_decode, ne_eq, asScreenshot_eq_ok_iff, Base64.decode_eq_ok_iff]
  refine ⟨?_, ?_, ?_, hmisspelled, ?_⟩
  · intro result
    refine ⟨(reads_toJson Json.keeps_canonical .alone).reads result, ?_, ?_⟩
    · exact Json.parse_text result.exact_toJson
    · intro bytes hbytes
      exact hasScreenshotText_toJson hbytes
  · intro place json text htext
    constructor
    · intro result hread
      obtain ⟨bytes, hbytes, rfl⟩ := exists_screenshot_of_read hread htext
      exact ⟨bytes, hbytes, rfl⟩
    · intro hwrong
      cases hread : read place json with
      | error misfit => exact ⟨misfit, rfl⟩
      | ok result =>
        obtain ⟨bytes, -, hspelled⟩ := exists_screenshot_of_read hread htext
        exact absurd (asScreenshot_eq_ok_iff.mpr hspelled) ((hmisspelled text).mp hwrong bytes)
  · intro place json text result htext hread place' json' text' result' htext' hread' hsame
    obtain ⟨bytes, hbytes, rfl⟩ := exists_screenshot_of_read hread htext
    obtain ⟨bytes', hbytes', rfl⟩ := exists_screenshot_of_read hread' htext'
    rw [hbytes, hbytes'] at hsame
    cases hsame
    rfl
  · intro json text htext hkeys
    exact ⟨rfl, htext.canonical hkeys⟩

end ExecutionResult

end StepRunner
