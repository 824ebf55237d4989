import Mathlib.Data.Finset.Card
import StepRunner.Hook.Registry

namespace StepRunner

namespace Hook

/-- The hook at this place is the first of its name. -/
def IsFirstAt (hooks : List Hook) (hook : Hook) (place : Nat) : Prop :=
  hook.name ∉ (hooks.take place).map (·.name)

instance (hooks : List Hook) (hook : Hook) (place : Nat) : Decidable (IsFirstAt hooks hook place) :=
  inferInstanceAs (Decidable (¬ hook.name ∈ (hooks.take place).map (·.name)))

/-- The hooks of a list that are the first of their name. -/
def firsts (hooks : List Hook) : List Hook :=
  (hooks.zipIdx.filter fun entry => IsFirstAt hooks entry.1 entry.2).map Prod.fst

theorem firsts_append_singleton (hooks : List Hook) (hook : Hook) :
    firsts (hooks ++ [hook]) =
      firsts hooks ++ if hook.name ∈ hooks.map (·.name) then [] else [hook] := by
  -- No hook sees more or fewer hooks before it when one is added at the end.
  have hearlier : hooks.zipIdx.filter (fun entry => IsFirstAt (hooks ++ [hook]) entry.1 entry.2) =
      hooks.zipIdx.filter fun entry => IsFirstAt hooks entry.1 entry.2 := by
    apply List.filter_congr
    rintro ⟨earlier, place⟩ hmem
    have hplace : place ≤ hooks.length := by
      have hlt := (List.mem_zipIdx hmem).2.1
      omega
    apply decide_eq_decide.mpr
    rw [IsFirstAt, IsFirstAt, List.take_append_of_le_length hplace]
  have hlast : IsFirstAt (hooks ++ [hook]) hook hooks.length ↔ hook.name ∉ hooks.map (·.name) := by
    rw [IsFirstAt, List.take_left]
  rw [firsts, List.zipIdx_append, List.filter_append, List.map_append, hearlier, firsts]
  by_cases hmem : hook.name ∈ hooks.map (·.name) <;> simp [hlast, hmem]

theorem mem_names_firsts (hooks : List Hook) (name : String) :
    name ∈ (firsts hooks).map (·.name) ↔ name ∈ hooks.map (·.name) := by
  induction hooks using List.reverseRecOn with
  | nil => rfl
  | append_singleton hooks hook ih =>
    rw [firsts_append_singleton, List.map_append, List.map_append, List.mem_append, List.mem_append,
      ih]
    split
    · next hmem =>
      constructor
      · rintro (hname | hname)
        · exact .inl hname
        · cases hname
      · rintro (hname | hname)
        · exact .inl hname
        · obtain rfl := List.mem_singleton.mp hname
          exact .inl hmem
    · rfl

end Hook

namespace HookSet

theorem eq_of_hooks_eq {set other : HookSet} (h : set.hooks = other.hooks) : set = other := by
  cases set
  cases other
  cases h
  rfl

theorem hooks_insert (set : HookSet) (hook : Hook) :
    (set.insert hook).1.hooks = set.hooks ++ if hook.name ∈ set.names then [] else [hook] := by
  rw [insert]
  split
  · exact (List.append_nil _).symm
  · rfl

theorem insert_snd_eq_false_iff (set : HookSet) (hook : Hook) :
    (set.insert hook).2 = false ↔ hook.name ∈ set.names := by
  rw [insert]
  split <;> simp [*]

theorem insert_fst_eq_self_iff (set : HookSet) (hook : Hook) :
    (set.insert hook).1 = set ↔ hook.name ∈ set.names := by
  constructor
  · intro h
    by_contra hfree
    have hhooks := set.hooks_insert hook
    rw [h, if_neg hfree] at hhooks
    simp at hhooks
  · intro hmem
    apply eq_of_hooks_eq
    rw [hooks_insert, if_pos hmem, List.append_nil]

theorem ofList_append_singleton (hooks : List Hook) (hook : Hook) :
    ofList (hooks ++ [hook]) = ((ofList hooks).insert hook).1 := by
  rw [ofList, List.foldl_append]
  rfl

theorem hooks_ofList (hooks : List Hook) : (ofList hooks).hooks = Hook.firsts hooks := by
  induction hooks using List.reverseRecOn with
  | nil => rfl
  | append_singleton hooks hook ih =>
    have hnames : hook.name ∈ (ofList hooks).names ↔ hook.name ∈ hooks.map (·.name) := by
      rw [names, ih]
      exact Hook.mem_names_firsts hooks hook.name
    simp only [ofList_append_singleton, hooks_insert, Hook.firsts_append_singleton, ih, hnames]

theorem mem_names_ofList (hooks : List Hook) (name : String) :
    name ∈ (ofList hooks).names ↔ name ∈ hooks.map (·.name) := by
  rw [names, hooks_ofList]
  exact Hook.mem_names_firsts hooks name

end HookSet

namespace HookRegistry

/-- The hooks that come in under a category, in order. -/
def under (category : HookCategory) (registrations : List (HookCategory × Hook)) : List Hook :=
  (registrations.filter (·.1 = category)).map Prod.snd

/-- What is registered under other categories does not show. -/
theorem get_ofList (registrations : List (HookCategory × Hook)) (category : HookCategory) :
    (ofList registrations).get category = HookSet.ofList (under category registrations) := by
  induction registrations using List.reverseRecOn with
  | nil => rfl
  | append_singleton registrations registration ih =>
    obtain ⟨other, hook⟩ := registration
    have hregister : ofList (registrations ++ [(other, hook)]) =
        (ofList registrations).register other hook := by
      rw [ofList, List.foldl_append]
      rfl
    rw [hregister, register]
    by_cases hcategory : category = other
    · subst hcategory
      have hunder : under category (registrations ++ [(category, hook)]) =
          under category registrations ++ [hook] := by simp [under]
      rw [hunder, HookSet.ofList_append_singleton, ← ih]
      exact if_pos rfl
    · have hunder : under category (registrations ++ [(other, hook)]) =
          under category registrations := by simp [under, Ne.symm hcategory]
      rw [hunder, ← ih]
      exact if_neg hcategory

/-- The name of each hook that is held, with its category. -/
def heldNames (registry : HookRegistry) : List (HookCategory × String) :=
  HookCategory.all.flatMap fun category => (registry.get category).names.map (category, ·)

theorem length_heldNames (registry : HookRegistry) : registry.heldNames.length = registry.count := by
  rw [heldNames, count, List.length_flatMap, List.length_flatMap]
  simp [HookSet.names]

theorem nodup_heldNames (registry : HookRegistry) : registry.heldNames.Nodup := by
  have hall : HookCategory.all.Nodup := by decide
  rw [heldNames, List.nodup_flatMap]
  constructor
  · intro category _
    exact (registry.get category).nodup.map (Prod.mk_right_injective category)
  · refine hall.imp ?_
    intro category other hne entry hmem hmem'
    obtain ⟨name, -, rfl⟩ := List.mem_map.mp hmem
    obtain ⟨name', -, heq⟩ := List.mem_map.mp hmem'
    exact hne (congrArg Prod.fst heq).symm

theorem mem_heldNames_ofList (registrations : List (HookCategory × Hook))
    (entry : HookCategory × String) :
    entry ∈ (ofList registrations).heldNames ↔
      entry ∈ registrations.map fun registration => (registration.1, registration.2.name) := by
  obtain ⟨category, name⟩ := entry
  have hall : category ∈ HookCategory.all := by cases category <;> decide
  have hheld : (category, name) ∈ (ofList registrations).heldNames ↔
      name ∈ ((ofList registrations).get category).names := by
    rw [heldNames, List.mem_flatMap]
    constructor
    · rintro ⟨other, -, hname⟩
      obtain ⟨name, hname, hsame⟩ := List.mem_map.mp hname
      cases hsame
      exact hname
    · intro hname
      exact ⟨category, hall, List.mem_map_of_mem hname⟩
  rw [hheld, get_ofList, HookSet.mem_names_ofList]
  simp [under]

theorem count_ofList (registrations : List (HookCategory × Hook)) :
    (ofList registrations).count =
      (registrations.map fun registration => (registration.1, registration.2.name)).toFinset.card := by
  rw [← length_heldNames, ← List.toFinset_card_of_nodup (nodup_heldNames _)]
  congr 1
  ext entry
  rw [List.mem_toFinset, List.mem_toFinset, mem_heldNames_ofList]

/-- **A built registry holds under each category the hooks that were the first of their name
there,** in the order they came in, whatever came in elsewhere. -/
theorem ofList_holds_firsts (registrations : List (HookCategory × Hook)) (category : HookCategory) :
    ((ofList registrations).get category).hooks = Hook.firsts (under category registrations) ∧
      (∀ others, under category others = under category registrations →
        (ofList others).get category = (ofList registrations).get category) ∧
      ((ofList registrations).get category).names.Nodup ∧
      (ofList registrations).count =
        (registrations.map fun registration =>
          (registration.1, registration.2.name)).toFinset.card ∧
      HookSet.ofList (under category registrations) = (ofList registrations).get category ∧
      ∀ (set : HookSet) (hook : Hook),
        ((set.insert hook).2 = false ↔ hook.name ∈ set.names) ∧
        ((set.insert hook).1 = set ↔ hook.name ∈ set.names) ∧
        (hook.name ∉ set.names → (set.insert hook).1.hooks = set.hooks ++ [hook]) := by
  refine ⟨?_, ?_, HookSet.nodup _, count_ofList registrations, ?_, ?_⟩
  · rw [get_ofList, HookSet.hooks_ofList]
  · intro others hothers
    rw [get_ofList, get_ofList, hothers]
  · exact (get_ofList registrations category).symm
  · intro set hook
    refine ⟨set.insert_snd_eq_false_iff hook, set.insert_fst_eq_self_iff hook, ?_⟩
    intro hfree
    rw [HookSet.hooks_insert, if_neg hfree]

end HookRegistry

end StepRunner
