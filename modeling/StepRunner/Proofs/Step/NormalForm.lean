import Mathlib.Data.List.Induction
import StepRunner.Proofs.Step.Text

namespace StepRunner

namespace StepText

theorem Cut.not_mem_normalized_pieces (cut : Cut) :
    '<' ∉ cut.pieces.flatMap Piece.normalized := by
  intro hmem
  obtain ⟨piece, -, hpiece⟩ := List.mem_flatMap.mp hmem
  rw [Piece.normalized, List.mem_append] at hpiece
  rcases hpiece with hliteral | hplaceholder
  · exact piece.literal_plain hliteral
  · simp [placeholder] at hplaceholder

/-- A `<` that was left over is not closed by what was put in for the names before it. -/
theorem normalize_normalize (text : List Char) : normalize (normalize text) = normalize text := by
  obtain ⟨cut, rfl⟩ := exists_cut text
  have hlast : normalize cut.last = cut.last := normalize_of_not_hasName cut.last_plain
  rw [cut.normalize_written, Cut.normalized,
    normalize_append_of_plain cut.not_mem_normalized_pieces, hlast]

end StepText

namespace Step

variable (text : String) (body other : List String → Action (Except HookError Unit))

theorem text_ofText :
    (ofText text body).text = String.ofList (StepText.normalize text.toList) := rfl

/-- A step made from the text of a step has that text. -/
theorem text_ofText_text : (ofText (ofText text body).text other).text = (ofText text body).text := by
  have htwice := StepText.normalize_normalize text.toList
  rw [text_ofText (ofText text body).text other, text_ofText, String.toList_ofList, htwice]

end Step

namespace StepRegistry

theorem texts_register (registry : StepRegistry) (step : Step) :
    (registry.register step).texts =
      registry.texts ++ if step.text ∈ registry.texts then [] else [step.text] := by
  by_cases hmem : step.text ∈ registry.texts
  · rw [register, dif_pos hmem, if_pos hmem, List.append_nil]
  · rw [register, dif_neg hmem, if_neg hmem]
    simp [texts]

theorem register_of_mem {registry : StepRegistry} {step : Step}
    (h : step.text ∈ registry.texts) : registry.register step = registry := by
  rw [register, dif_pos h]

theorem ofList_append_singleton (steps : List Step) (step : Step) :
    ofList (steps ++ [step]) = (ofList steps).register step := by
  rw [ofList, List.foldl_append]
  rfl

theorem eraseDups_append_singleton (texts : List String) (text : String) :
    (texts ++ [text]).eraseDups = texts.eraseDups ++ if text ∈ texts then [] else [text] := by
  rw [List.eraseDups_append, List.removeAll, List.filter_cons]
  by_cases hmem : text ∈ texts
  · simp [hmem]
  · simp [hmem, List.eraseDups_cons]

/-- The texts of a registry are those that were new when they came in. -/
theorem texts_ofList (steps : List Step) :
    (ofList steps).texts = (steps.map (·.text)).eraseDups := by
  induction steps using List.reverseRecOn with
  | nil => rfl
  | append_singleton steps step ih =>
    rw [ofList_append_singleton, texts_register, ih, List.map_append, List.map_singleton,
      eraseDups_append_singleton]
    simp only [List.mem_eraseDups]

theorem exists_get?_of_mem {registry : StepRegistry} {text : String} (h : text ∈ registry.texts) :
    ∃ step, registry.get? text = some step ∧ step.text = text := by
  cases hfound : registry.get? text with
  | none => exact absurd h (get?_eq_none_iff.mp hfound)
  | some step => exact ⟨step, rfl, text_of_get? hfound⟩

/-- **The texts that steps are kept under are normal forms.** A registry lists each where it first
came in, with the step that came in first. -/
theorem registry_of_normal_texts
    (registrations : List (String × (List String → Action (Except HookError Unit)))) :
    let steps := registrations.map fun (text, body) => Step.ofText text body
    let registry := ofList steps
    (∀ text body other,
      (Step.ofText (Step.ofText text body).text other).text = (Step.ofText text body).text ∧
      (Step.ofText (Step.ofText text body).text other).arity = (Step.ofText text body).arity) ∧
    registry.texts = (steps.map (·.text)).eraseDups ∧
    (∀ text ∈ registry.texts, ∃ step, registry.get? text = some step ∧ step.text = text ∧
      steps.find? (·.text = text) = some step) ∧
    (∀ raw body, (Step.ofText raw body).text ∈ registry.texts →
      registry.register (Step.ofText raw body) = registry) ∧
    ∀ text ∈ registry.texts, ∀ body,
      (Step.ofText text body).text = text ∧
      registry.register (Step.ofText text body) = registry := by
  intro steps registry
  -- A listed text is the text of a step that came in, hence a normal form.
  have hnormal : ∀ text ∈ registry.texts, ∀ body, (Step.ofText text body).text = text := by
    intro text hmem body
    have hsteps : text ∈ steps.map (·.text) := (mem_texts_ofList steps text).mp hmem
    obtain ⟨step, hstep, rfl⟩ := List.mem_map.mp hsteps
    obtain ⟨⟨raw, first⟩, -, rfl⟩ := List.mem_map.mp hstep
    exact Step.text_ofText_text raw first body
  refine ⟨?_, texts_ofList steps, ?_, ?_, ?_⟩
  · intro text body other
    have htext := Step.text_ofText_text text body other
    refine ⟨htext, ?_⟩
    rw [Step.arity, Step.arity, htext]
  · intro text hmem
    obtain ⟨step, hstep, htext⟩ := exists_get?_of_mem hmem
    refine ⟨step, hstep, htext, ?_⟩
    rw [← get?_ofList]
    exact hstep
  · intro raw body hmem
    exact register_of_mem hmem
  · intro text hmem body
    have htext := hnormal text hmem body
    refine ⟨htext, ?_⟩
    apply register_of_mem
    rw [htext]
    exact hmem

end StepRegistry

end StepRunner
