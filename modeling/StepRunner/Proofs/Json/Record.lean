import StepRunner.Json.Record

namespace StepRunner.Json

section

variable {α : Type} {key : String} {value : α} {entries others : List (String × α)}

/-- Where keys differ, what is found under a key is what stands there. -/
theorem lookup_eq_some_iff_mem (h : (entries.map Prod.fst).Nodup) :
    entries.lookup key = some value ↔ (key, value) ∈ entries := by
  induction entries with
  | nil => simp
  | cons entry entries ih =>
    obtain ⟨first, found⟩ := entry
    rw [List.map_cons, List.nodup_cons] at h
    rw [List.lookup_cons, List.mem_cons, Prod.mk.injEq]
    by_cases hkey : key = first
    · subst hkey
      have habsent : (key, value) ∉ entries :=
        fun hmem => h.1 (List.mem_map.mpr ⟨(key, value), hmem, rfl⟩)
      simp [habsent, eq_comm]
    · rw [beq_eq_false_iff_ne.mpr hkey, ih h.2]
      simp [hkey]

/-- The order of entries does not matter to what is found. -/
theorem lookup_of_perm (h : others.Perm entries) (hnodup : (entries.map Prod.fst).Nodup)
    (key : String) : others.lookup key = entries.lookup key := by
  have hnodup' : (others.map Prod.fst).Nodup := (h.map Prod.fst).nodup_iff.mpr hnodup
  apply Option.ext
  intro value
  rw [lookup_eq_some_iff_mem hnodup, lookup_eq_some_iff_mem hnodup', h.mem_iff]

theorem insertEntry_perm (h : key ∉ entries.map Prod.fst) :
    (insertEntry key value entries).Perm ((key, value) :: entries) := by
  induction entries with
  | nil => exact .refl _
  | cons entry entries ih =>
    obtain ⟨first, found⟩ := entry
    rw [List.map_cons, List.mem_cons, not_or] at h
    rw [insertEntry]
    split
    · exact .refl _
    · rw [if_neg h.1]
      exact ((ih h.2).cons _).trans (.swap _ _ _)

theorem foldl_insertEntry_perm {sorted : List (String × α)}
    (h : ((sorted ++ entries).map Prod.fst).Nodup) :
    (entries.foldl (fun sorted (key, value) => insertEntry key value sorted) sorted).Perm
      (sorted ++ entries) := by
  induction entries generalizing sorted with
  | nil => simp
  | cons entry entries ih =>
    obtain ⟨key, value⟩ := entry
    have hmiddle : (sorted ++ (key, value) :: entries).Perm ((key, value) :: sorted ++ entries) :=
      List.perm_middle
    have hnodup := (hmiddle.map Prod.fst).nodup_iff.mp h
    have hkey : key ∉ sorted.map Prod.fst := by
      rw [List.cons_append, List.map_cons, List.nodup_cons, List.map_append] at hnodup
      exact fun hmem => hnodup.1 (List.mem_append_left _ hmem)
    have hinsert : (insertEntry key value sorted ++ entries).Perm
        ((key, value) :: sorted ++ entries) := (insertEntry_perm hkey).append_right entries
    have hrest := ih ((hinsert.map Prod.fst).nodup_iff.mpr hnodup)
    exact (hrest.trans hinsert).trans hmiddle.symm

/-- Entries with keys of their own are sorted and nothing else. -/
theorem sortEntries_perm (h : (entries.map Prod.fst).Nodup) :
    (sortEntries entries).Perm entries :=
  foldl_insertEntry_perm h

end

/-- Strings and numbers stay, and so does what is in an array or under a key. -/
structure Keeps (f : Json → Json) : Prop where
  null : f null = null
  bool (value : Bool) : f (bool value) = bool value
  integer (value : Int) : f (integer value) = integer value
  string (value : String) : f (string value) = string value
  array (items : List Json) : f (array items) = array (items.map f)
  object {entries : List (String × Json)} (h : (entries.map Prod.fst).Nodup) :
    ∃ others, f (object entries) = object others ∧ (others.map Prod.fst).Nodup ∧
      ∀ key, others.lookup key = (entries.lookup key).map f

theorem canonicalItems_eq (items : List Json) : canonicalItems items = items.map canonical := by
  induction items with
  | nil => rfl
  | cons item items ih => rw [canonicalItems, ih, List.map_cons]

theorem canonicalEntries_eq (entries : List (String × Json)) :
    canonicalEntries entries = entries.map fun entry => (entry.1, entry.2.canonical) := by
  induction entries with
  | nil => rfl
  | cons entry entries ih => rw [canonicalEntries, ih, List.map_cons]

theorem lookup_map_snd (f : Json → Json) (entries : List (String × Json)) (key : String) :
    (entries.map fun entry => (entry.1, f entry.2)).lookup key = (entries.lookup key).map f := by
  induction entries with
  | nil => rfl
  | cons entry entries ih =>
    rw [List.map_cons, List.lookup_cons, List.lookup_cons, ih]
    split <;> rfl

theorem keeps_id : Keeps id where
  null := rfl
  bool _ := rfl
  integer _ := rfl
  string _ := rfl
  array items := by rw [List.map_id]; rfl
  object h := ⟨_, rfl, h, fun key => by rw [Option.map_id]; rfl⟩

theorem keeps_canonical : Keeps canonical where
  null := by rw [canonical]
  bool _ := by rw [canonical]
  integer _ := by rw [canonical]
  string _ := by rw [canonical]
  array items := by rw [canonical, canonicalItems_eq]
  object {entries} h := by
    have hkeys : (canonicalEntries entries).map Prod.fst = entries.map Prod.fst := by
      rw [canonicalEntries_eq, List.map_map]
      rfl
    have hnodup : ((canonicalEntries entries).map Prod.fst).Nodup := hkeys ▸ h
    have hsorted := sortEntries_perm hnodup
    refine ⟨_, by rw [canonical], (hsorted.map Prod.fst).nodup_iff.mpr hnodup, ?_⟩
    intro key
    rw [lookup_of_perm hsorted hnodup, canonicalEntries_eq, lookup_map_snd]

namespace Record

section

variable {α β : Type} {field? : String → Option Json}

/-- The fields that are there fit the record, and make up this value. -/
structure Fills (record : Record α) (field? : String → Option Json) (value : α) : Prop where
  checks : ∀ rule ∈ record.rules, ∀ json ∈ field? rule.name, rule.check json = .ok ()
  builds : record.build field? = .ok value

theorem fills_pure (value : α) : (pure value).Fills field? value :=
  ⟨by simp [pure], rfl⟩

variable {record : Record (α → β)} {make : α → β} {name : String} {read : Json → Except Misfit α}
  {absent : Except Misfit α} {value : α} {result : β}

/-- A field that is there is read. -/
theorem Fills.and_present (h : record.Fills field? make) {json : Json}
    (hfield : field? name = some json) (hread : read json = .ok value)
    (hmake : make value = result) : (record.and name read absent).Fills field? result := by
  subst hmake
  refine ⟨?_, ?_⟩
  · intro rule hrule found hfound
    rcases List.mem_append.mp hrule with hrule | hrule
    · exact h.checks rule hrule found hfound
    · obtain rfl := List.mem_singleton.mp hrule
      obtain rfl : json = found := Option.some.inj (hfield.symm.trans hfound)
      dsimp only
      rw [hread]
      rfl
  · simp only [and, h.builds, hfield, hread, bind, Except.bind]

/-- A field that is not there is filled in. -/
theorem Fills.and_absent (h : record.Fills field? make) (hfield : field? name = none)
    (habsent : absent = .ok value) (hmake : make value = result) :
    (record.and name read absent).Fills field? result := by
  subst hmake
  refine ⟨?_, ?_⟩
  · intro rule hrule found hfound
    rcases List.mem_append.mp hrule with hrule | hrule
    · exact h.checks rule hrule found hfound
    · obtain rfl := List.mem_singleton.mp hrule
      rw [hfield] at hfound
      cases hfound
  · simp only [and, h.builds, hfield, habsent, bind, Except.bind]

end

section

variable {α : Type} {record : Record α} {entries : List (String × Json)} {value : α}

theorem checkEntries_eq_ok {seen : List String} (hnodup : (entries.map Prod.fst).Nodup)
    (hseen : ∀ key ∈ entries.map Prod.fst, key ∉ seen)
    (h : ∀ entry ∈ entries, ∀ rule ∈ record.rule? entry.1, rule.check entry.2 = .ok ()) :
    record.checkEntries seen entries = .ok () := by
  induction entries generalizing seen with
  | nil => rfl
  | cons entry entries ih =>
    obtain ⟨key, json⟩ := entry
    rw [List.map_cons, List.nodup_cons] at hnodup
    have hrest (entry : String × Json) (hmem : entry ∈ entries) :=
      h entry (List.mem_cons_of_mem _ hmem)
    have hseenRest : ∀ other ∈ entries.map Prod.fst, other ∉ seen := fun other hmem =>
      hseen other (List.mem_cons_of_mem _ hmem)
    rw [checkEntries]
    cases hrule : record.rule? key with
    | none => exact ih hnodup.2 hseenRest hrest
    | some rule =>
      have hcheck := h (key, json) List.mem_cons_self rule hrule
      have hnew : ∀ other ∈ entries.map Prod.fst, other ∉ key :: seen := by
        intro other hmem hother
        rcases List.mem_cons.mp hother with rfl | hother
        · exact hnodup.1 hmem
        · exact hseenRest other hmem hother
      dsimp only at hcheck ⊢
      rw [if_neg (hseen key List.mem_cons_self), hcheck]
      exact ih hnodup.2 hnew hrest

/-- Entries with keys of their own are read as the record they fill. -/
theorem ofEntries_of_fills (hnodup : (entries.map Prod.fst).Nodup)
    (h : record.Fills (fun name => entries.lookup name) value) :
    record.ofEntries entries = .ok value := by
  have hchecks : ∀ entry ∈ entries, ∀ rule ∈ record.rule? entry.1,
      rule.check entry.2 = .ok () := by
    rintro ⟨key, json⟩ hmem rule hrule
    have hname : rule.name = key := by simpa using List.find?_some hrule
    have hfound := (lookup_eq_some_iff_mem hnodup).mpr hmem
    rw [← hname] at hfound
    exact h.checks rule (List.mem_of_find?_eq_some hrule) json hfound
  have hall : record.checkEntries [] entries = .ok () :=
    checkEntries_eq_ok hnodup (fun _ _ => List.not_mem_nil) hchecks
  rw [ofEntries, hall]
  exact h.builds

/-- An object is read as the record it fills, whatever became of it on the way. -/
theorem read_of_fills {f : Json → Json} (hf : Keeps f) (place : Place) (name : String)
    (hnodup : (entries.map Prod.fst).Nodup)
    (h : record.Fills (fun name => (entries.lookup name).map f) value) :
    record.read place name (f (object entries)) = .ok value := by
  obtain ⟨others, hobject, hnodup', hlookup⟩ := hf.object hnodup
  rw [hobject, read]
  apply ofEntries_of_fills hnodup'
  simp only [hlookup]
  exact h

end

end Record

end StepRunner.Json
