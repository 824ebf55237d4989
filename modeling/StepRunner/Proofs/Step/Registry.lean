import StepRunner.Step.Registry

namespace StepRunner

namespace StepText

/-- The number of places at which a placeholder stands. -/
def occurrences : List Char → Nat
  | [] => 0
  | c :: text => (if placeholder.isPrefixOf (c :: text) then 1 else 0) + occurrences text

/-- A placeholder does not overlap another, so none is passed over. -/
theorem arity_eq_occurrences (text : List Char) : arity text = occurrences text := by
  fun_induction arity text with
  | case1 text ih =>
    have hbrace : placeholder.isPrefixOf ('\x7d' :: text) = false := by
      simp [placeholder, List.isPrefixOf]
    have hpair : placeholder.isPrefixOf ('\x7b' :: '\x7d' :: text) = true := by
      simp [placeholder, List.isPrefixOf]
    rw [ih, occurrences, occurrences, hpair, hbrace]
    simp only [if_true, Bool.false_eq_true, if_false]
    omega
  | case2 c text hpair ih =>
    have hnot : placeholder.isPrefixOf (c :: text) = false := by
      cases text with
      | nil => simp [placeholder, List.isPrefixOf]
      | cons d text =>
        have hne : ¬('\x7b' = c ∧ '\x7d' = d) := by
          rintro ⟨rfl, rfl⟩
          exact hpair text rfl rfl
        simpa [placeholder, List.isPrefixOf] using hne
    rw [ih, occurrences, hnot]
    simp
  | case3 => rfl

theorem arity_le_length (text : List Char) : arity text ≤ text.length := by
  fun_induction arity text with
  | case1 text ih => simp only [List.length_cons]; omega
  | case2 c text _ ih => simp only [List.length_cons]; omega
  | case3 => exact Nat.le_refl 0

end StepText

namespace StepRegistry

variable {steps : StepRegistry} {text : String} {step : Step}

theorem text_of_get? (h : steps.get? text = some step) : step.text = text := by
  simpa using List.find?_some h

theorem get?_eq_none_iff : steps.get? text = none ↔ text ∉ steps.texts := by
  simp [get?, texts]

/-- A step is found where it was, or else under its own text. -/
theorem get?_register (steps : StepRegistry) (step : Step) (text : String) :
    (steps.register step).get? text =
      (steps.get? text).or (if step.text = text then some step else none) := by
  rw [register]
  by_cases hmem : step.text ∈ steps.texts
  · rw [dif_pos hmem]
    by_cases htext : step.text = text
    · obtain ⟨found, hfound⟩ := Option.ne_none_iff_exists'.mp
        (fun hnone => get?_eq_none_iff.mp hnone (htext ▸ hmem) : steps.get? text ≠ none)
      rw [hfound, Option.some_or]
    · rw [if_neg htext, Option.or_none]
  · rw [dif_neg hmem]
    simp [get?, List.find?_append, List.find?_cons]
    split <;> simp_all

/-- **Of several steps with one text the first is found.** -/
theorem get?_ofList (list : List Step) (text : String) :
    (ofList list).get? text = list.find? (·.text = text) := by
  have hfold (registry : StepRegistry) : (list.foldl register registry).get? text =
      (registry.get? text).or (list.find? (·.text = text)) := by
    induction list generalizing registry with
    | nil => simp
    | cons step list ih =>
      rw [List.foldl_cons, ih, get?_register, Option.or_assoc, List.find?_cons]
      split <;> simp_all
  exact hfold empty

theorem mem_texts_ofList (list : List Step) (text : String) :
    text ∈ (ofList list).texts ↔ text ∈ list.map (·.text) := by
  rw [← Decidable.not_iff_not, ← get?_eq_none_iff, get?_ofList, List.find?_eq_none]
  simp

end StepRegistry

end StepRunner
