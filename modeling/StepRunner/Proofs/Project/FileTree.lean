import StepRunner.Proofs.Project.Path

namespace StepRunner

/-- What is at a place, apart from what is in it. -/
inductive Kind where
  | directory
  | file (contents : String)

def Kind.contents? : Kind → Option String
  | directory => none
  | file contents => some contents

namespace FileTree

def kind : FileTree → Kind
  | file contents => .file contents
  | directory _ => .directory

def kind? (tree : FileTree) (place : Path) : Option Kind := (tree.get? place).map kind

/-- The contents of the file at a place, if there is one. -/
def contents? (tree : FileTree) (place : Path) : Option String :=
  (tree.kind? place).bind Kind.contents?

section

variable {tree : FileTree} {place other : Path}

theorem isDirectory_iff : tree.isDirectory place = true ↔ tree.kind? place = some .directory := by
  rw [isDirectory, kind?]
  cases tree.get? place with
  | none => simp
  | some found => cases found <;> simp [kind]

theorem isSome_kind? : (tree.kind? place).isSome = (tree.get? place).isSome :=
  Option.isSome_map

theorem kind?_ne_none_iff :
    tree.kind? place ≠ none ↔ tree.isDirectory place = true ∨ tree.contents? place ≠ none := by
  rw [isDirectory_iff, contents?]
  rcases tree.kind? place with _ | (_ | contents) <;> simp [Kind.contents?]

theorem contents?_of_isDirectory (h : tree.isDirectory place = true) :
    tree.contents? place = none := by
  rw [contents?, isDirectory_iff.mp h]
  rfl

theorem isDirectory_of_clear (h : tree.kind? place ≠ none) (hclear : tree.contents? place = none) :
    tree.isDirectory place = true :=
  (kind?_ne_none_iff.mp h).resolve_right (absurd hclear)

theorem get?_append (tree : FileTree) (place rest : Path) :
    tree.get? (place ++ rest) = (tree.get? place).bind fun found => found.get? rest := by
  induction place generalizing tree with
  | nil => rfl
  | cons name place ih =>
    cases tree with
    | file contents => rfl
    | directory entries =>
      rw [List.cons_append, get?, get?]
      cases entries.lookup name with
      | none => rfl
      | some found => exact ih found

/-- Whatever is above something is a directory. -/
theorem isDirectory_of_above (hupto : place <+: other) (hne : place ≠ other)
    (h : tree.kind? other ≠ none) : tree.isDirectory place = true := by
  obtain ⟨rest, rfl⟩ := hupto
  cases rest with
  | nil => exact absurd (List.append_nil place).symm hne
  | cons name rest =>
    rw [kind?, get?_append] at h
    rw [isDirectory]
    cases hget : tree.get? place with
    | none =>
      rw [hget] at h
      exact absurd rfl h
    | some found =>
      cases found with
      | directory entries => rfl
      | file contents =>
        rw [hget] at h
        exact absurd rfl h

/-- Nothing is below what is no directory. -/
theorem kind?_eq_none_below (hupto : place <+: other) (hne : place ≠ other)
    (h : tree.isDirectory place = false) : tree.kind? other = none := by
  apply Classical.byContradiction
  intro hthere
  rw [isDirectory_of_above hupto hne hthere] at h
  cases h

theorem kind?_of_above (hupto : place <+: other) (h : tree.kind? other ≠ none) :
    tree.kind? place ≠ none := by
  by_cases heq : place = other
  · rw [heq]
    exact h
  · exact kind?_ne_none_iff.mpr (.inl (isDirectory_of_above hupto heq h))

theorem isDirectory_dropLast (h : tree.isDirectory place = true) :
    tree.isDirectory place.dropLast = true := by
  by_cases heq : place.dropLast = place
  · rw [heq]
    exact h
  · exact isDirectory_of_above (List.dropLast_prefix place) heq
      (kind?_ne_none_iff.mpr (.inl h))

end

/-- A file, or a directory without entries. -/
def IsLeaf (tree : FileTree) : Prop := ∀ name place, tree.kind? (name :: place) = none

theorem isLeaf_file (contents : String) : (file contents).IsLeaf := fun _ _ => rfl

theorem isLeaf_empty : empty.IsLeaf := fun _ _ => rfl

theorem kind?_directory (entries : List (String × FileTree)) (name : String) (place : Path) :
    (directory entries).kind? (name :: place) =
      (entries.lookup name).bind fun found => found.kind? place := by
  rw [kind?, get?]
  cases entries.lookup name <;> rfl

/-- Only what is below the entry that is put is changed. -/
theorem kind?_setEntry (entries : List (String × FileTree)) (name : String) (new : FileTree)
    (first : String) (rest : Path) :
    (directory (setEntry name new entries)).kind? (first :: rest) =
      if first = name then new.kind? rest else (directory entries).kind? (first :: rest) := by
  rw [kind?_directory, kind?_directory, lookup_setEntry]
  split <;> rfl

theorem exists_entries_of_isDirectory {tree : FileTree} {name : String} {place : Path}
    (h : tree.isDirectory (name :: place) = true) : ∃ entries found,
      tree = directory entries ∧ entries.lookup name = some found ∧
      found.isDirectory place = true := by
  cases tree with
  | file contents => cases h
  | directory entries =>
    rw [isDirectory, get?] at h
    cases hlookup : entries.lookup name with
    | none =>
      rw [hlookup] at h
      cases h
    | some found =>
      rw [hlookup] at h
      exact ⟨entries, found, rfl, hlookup, h⟩

/-- Put into a directory where no directory is, a leaf changes that place alone. -/
theorem kind?_set {tree leaf : FileTree} (hleaf : leaf.IsLeaf) {place : Path} {name : String}
    (habove : tree.isDirectory place = true) (hfree : tree.isDirectory (place ++ [name]) = false)
    (other : Path) :
    (tree.set (place ++ [name]) leaf).kind? other =
      if other = place ++ [name] then some leaf.kind else tree.kind? other := by
  induction place generalizing tree other with
  | nil =>
    cases tree with
    | file contents => cases habove
    | directory entries =>
      have hset : (directory entries).set [name] leaf =
          directory (setEntry name leaf entries) := rfl
      rw [List.nil_append] at hfree ⊢
      rw [hset]
      cases other with
      | nil => rfl
      | cons first rest =>
        rw [kind?_setEntry]
        by_cases hfirst : first = name
        · rw [if_pos hfirst, hfirst]
          cases rest with
          | nil => exact (if_pos rfl).symm
          | cons second rest =>
            have hbelow : [name] <+: name :: second :: rest := ⟨second :: rest, rfl⟩
            have hne : [name] ≠ name :: second :: rest := by simp
            rw [if_neg hne.symm, hleaf, kind?_eq_none_below hbelow hne hfree]
        · have hne : first :: rest ≠ [name] := fun heq => hfirst (List.cons.inj heq).1
          rw [if_neg hfirst, if_neg hne]
  | cons above place ih =>
    obtain ⟨entries, found, rfl, hlookup, hfound⟩ := exists_entries_of_isDirectory habove
    have hbelow (rest : Path) : (directory entries).kind? (above :: rest) = found.kind? rest := by
      rw [kind?_directory, hlookup]
      rfl
    have hset : (directory entries).set (above :: (place ++ [name])) leaf =
        directory (setEntry above (found.set (place ++ [name]) leaf) entries) := by
      rw [set, hlookup]
      rfl
    have hfoundFree : found.isDirectory (place ++ [name]) = false := by
      rw [← Bool.not_eq_true, isDirectory_iff, ← hbelow, ← isDirectory_iff, Bool.not_eq_true]
      exact hfree
    rw [List.cons_append, hset]
    cases other with
    | nil => rfl
    | cons first rest =>
      rw [kind?_setEntry]
      by_cases hfirst : first = above
      · rw [if_pos hfirst, hfirst, hbelow, ih hfound hfoundFree]
        simp only [List.cons.injEq, true_and]
      · have hne : first :: rest ≠ above :: (place ++ [name]) := fun heq =>
          hfirst (List.cons.inj heq).1
        rw [if_neg hfirst, if_neg hne]

section

variable {tree : FileTree}

theorem step?_any (tree : FileTree) (place : Path) (name : String) :
    tree.step? Naming.any.name place name =
      if tree.isDirectory place then some (place.next name) else none := by
  rw [step?, Path.next]
  cases tree.isDirectory place with
  | false => rfl
  | true => by_cases hname : name = ".." <;> simp [hname, Naming.any]

/-- A path leads to its goal if directories are all that it passes. -/
theorem resolve?_any (tree : FileTree) (path : Path) :
    tree.resolve? Naming.any.name path =
      if ∀ place ∈ Path.passed [] path, tree.isDirectory place then some (Path.goal [] path)
      else none := by
  rw [resolve?]
  generalize ([] : Path) = place
  induction path generalizing place with
  | nil => exact (if_pos fun _ hmem => absurd hmem List.not_mem_nil).symm
  | cons name path ih =>
    rw [List.foldlM_cons, step?_any]
    simp only [Path.passed, List.forall_mem_cons]
    by_cases hdir : tree.isDirectory place = true
    · rw [if_pos hdir]
      simp only [hdir, true_and]
      exact ih (Path.next place name)
    · rw [if_neg hdir, if_neg fun hall => hdir hall.1]
      rfl

theorem contains_any_iff (path : Path) :
    tree.contains Naming.any.name path = true ↔
      (∀ place ∈ Path.passed [] path, tree.isDirectory place = true) ∧
        tree.kind? (Path.goal [] path) ≠ none := by
  rw [contains, resolve?_any]
  split
  · next hall =>
    rw [Option.any_some, ← isSome_kind?, Option.isSome_iff_ne_none]
    exact (and_iff_right hall).symm
  · next hall => exact iff_of_false Bool.false_ne_true fun h => hall h.1

end

section

/-- Files are as they were, and directories are still there. -/
structure Grows (tree after : FileTree) : Prop where
  contents : ∀ place, after.contents? place = tree.contents? place
  directory : ∀ place, tree.isDirectory place = true → after.isDirectory place = true

theorem Grows.rfl {tree : FileTree} : tree.Grows tree := ⟨fun _ => .refl _, fun _ h => h⟩

theorem Grows.trans {tree middle after : FileTree} (h : tree.Grows middle)
    (h' : middle.Grows after) : tree.Grows after :=
  ⟨fun place => (h'.contents place).trans (h.contents place),
    fun place hdir => h'.directory place (h.directory place hdir)⟩

/-- The tree once a directory has been made for the next name, where there is nothing. -/
def ensure (tree : FileTree) (place : Path) : FileTree :=
  if (tree.get? place).isSome then tree else tree.set place empty

variable {tree : FileTree} {place : Path} {name : String}

/-- Only a new directory comes of it. -/
theorem kind?_ensure (habove : tree.isDirectory place = true) (other : Path) :
    (tree.ensure (place.next name)).kind? other =
      if other = place.next name ∧ tree.kind? other = none then some .directory
      else tree.kind? other := by
  rw [ensure]
  by_cases hthere : (tree.get? (place.next name)).isSome = true
  · rw [if_pos hthere, if_neg]
    rintro ⟨rfl, hnone⟩
    rw [← isSome_kind?, hnone] at hthere
    cases hthere
  · have hnone : tree.kind? (place.next name) = none := by
      rw [← Option.not_isSome_iff_eq_none, isSome_kind?]
      exact hthere
    have hname : name ≠ ".." := by
      rintro rfl
      have hup := isDirectory_iff.mp (isDirectory_dropLast habove)
      rw [Path.next, if_pos rfl, hup] at hnone
      cases hnone
    rw [Path.next_of_ne place hname] at hthere hnone ⊢
    have hfree : tree.isDirectory (place ++ [name]) = false := by
      rw [← Bool.not_eq_true, isDirectory_iff, hnone]
      intro h
      cases h
    rw [if_neg hthere, kind?_set isLeaf_empty habove hfree]
    by_cases heq : other = place ++ [name]
    · rw [if_pos heq, if_pos ⟨heq, heq ▸ hnone⟩]
      rfl
    · rw [if_neg heq, if_neg fun h => heq h.1]

theorem grows_ensure (habove : tree.isDirectory place = true) :
    tree.Grows (tree.ensure (place.next name)) := by
  constructor
  · intro other
    rw [contents?, contents?, kind?_ensure habove]
    split
    · next h => rw [h.2]; rfl
    · rfl
  · intro other hdir
    rw [isDirectory_iff] at hdir ⊢
    rw [kind?_ensure habove, hdir, if_neg]
    rintro ⟨-, hnone⟩
    cases hnone

theorem isDirectory_ensure (habove : tree.isDirectory place = true) (other : Path) :
    (tree.ensure (place.next name)).isDirectory other = true ↔
      tree.isDirectory other = true ∨ other = place.next name ∧ tree.contents? other = none := by
  rw [isDirectory_iff, isDirectory_iff, kind?_ensure habove, contents?]
  rcases tree.kind? other with _ | (_ | contents) <;> simp [Kind.contents?]

theorem createFrom_cons (place : Path) (name : String) (path : Path) (tree : FileTree) :
    tree.createFrom Naming.any.name place (name :: path) =
      if tree.isDirectory place then
        (tree.ensure (place.next name)).createFrom Naming.any.name (place.next name) path
      else (false, tree) := by
  rw [createFrom, step?_any]
  cases tree.isDirectory place <;> rfl

theorem grows_createFrom (place path : Path) (tree : FileTree) :
    tree.Grows (tree.createFrom Naming.any.name place path).2 := by
  induction path generalizing place tree with
  | nil => exact .rfl
  | cons name path ih =>
    rw [createFrom_cons]
    split
    · next hdir => exact (grows_ensure hdir).trans (ih ..)
    · exact .rfl

/-- Directories are created where no file is in the way. -/
theorem createFrom_fst_iff (place path : Path) (tree : FileTree) :
    (tree.createFrom Naming.any.name place path).1 = true ↔
      tree.isDirectory place = true ∧
        ∀ other ∈ Path.visited place path, tree.contents? other = none := by
  induction path generalizing place tree with
  | nil =>
    constructor
    · intro hdir
      refine ⟨hdir, fun other hmem => ?_⟩
      rw [List.mem_singleton.mp hmem]
      exact contents?_of_isDirectory hdir
    · exact And.left
  | cons name path ih =>
    rw [createFrom_cons, Path.visited_cons, List.forall_mem_cons]
    by_cases hdir : tree.isDirectory place = true
    · have hnext := Path.mem_visited_self (Path.next place name) path
      rw [if_pos hdir, ih, isDirectory_ensure hdir]
      simp only [(grows_ensure hdir).contents, hdir, contents?_of_isDirectory hdir, true_and]
      constructor
      · exact And.right
      · intro hclear
        exact ⟨.inr (hclear _ hnext), hclear⟩
    · rw [if_neg hdir]
      exact iff_of_false Bool.false_ne_true fun h => hdir h.1

/-- What the path visits, and no more, is made to directories. -/
theorem isDirectory_createFrom {place path : Path} {tree : FileTree}
    (h : (tree.createFrom Naming.any.name place path).1 = true) (other : Path) :
    (tree.createFrom Naming.any.name place path).2.isDirectory other = true ↔
      tree.isDirectory other = true ∨ other ∈ Path.visited place path := by
  induction path generalizing place tree with
  | nil =>
    have hself : other ∈ Path.visited place [] → tree.isDirectory other = true := by
      intro hmem
      rw [List.mem_singleton.mp hmem]
      exact h
    exact (or_iff_left_of_imp hself).symm
  | cons name path ih =>
    obtain ⟨hdir, -⟩ := (createFrom_fst_iff ..).mp h
    rw [createFrom_cons, if_pos hdir] at h ⊢
    rw [ih h, isDirectory_ensure hdir, Path.visited_cons, List.mem_cons]
    constructor
    · rintro ((hother | ⟨rfl, -⟩) | hmem)
      · exact .inl hother
      · exact .inr (.inr (Path.mem_visited_self _ path))
      · exact .inr (.inr hmem)
    · rintro (hother | rfl | hmem)
      · exact .inl (.inl hother)
      · exact .inl (.inl hdir)
      · exact .inr hmem

theorem createDirectory_fst_iff (path : Path) (tree : FileTree) :
    (tree.createDirectory Naming.any.name path).1 = true ↔
      ∀ place ∈ Path.visited [] path, tree.contents? place = none := by
  rw [createDirectory, createFrom_fst_iff]
  refine and_iff_right_of_imp fun hclear => ?_
  have hthere : tree.kind? [] ≠ none := by
    intro hnone
    cases hnone
  exact isDirectory_of_clear hthere (hclear _ (Path.mem_visited_self [] path))

end

section

variable {tree : FileTree} {path : Path} {name : String}

/-- In a directory that a path leads to by directories, a file is written where no directory is. -/
theorem writeFile_eq (contents : String) (hname : name ≠ "..")
    (hpath : ∀ place ∈ Path.visited [] path, tree.isDirectory place = true) :
    tree.writeFile Naming.any.name contents (path ++ [name]) =
      if tree.isDirectory (Path.goal [] path ++ [name]) then (false, tree)
      else (true, tree.set (Path.goal [] path ++ [name]) (file contents)) := by
  rw [writeFile, resolve?_any, Path.passed_append_singleton, if_pos hpath,
    Path.goal_append_singleton [] path hname]

end

section

/-- The path goes up only from where something is. -/
def Grounded (tree : FileTree) (place path : Path) : Prop :=
  ∀ before after, path = before ++ ".." :: after → tree.kind? (Path.goal place before) ≠ none

variable {tree after : FileTree} {place path : Path}

theorem Grounded.mono (h : tree.Grounded place path)
    (hthere : ∀ place, tree.kind? place ≠ none → after.kind? place ≠ none) :
    after.Grounded place path :=
  fun above below hpath => hthere _ (h above below hpath)

theorem grounded_of_isDirectory
    (h : ∀ between ∈ Path.visited place path, tree.isDirectory between = true) :
    tree.Grounded place path := by
  rintro above below rfl
  have hmem : Path.goal place above ∈ Path.visited place (above ++ ".." :: below) := by
    rw [Path.visited_append]
    exact List.mem_append_right _ (Path.mem_visited_self _ _)
  exact kind?_ne_none_iff.mpr (.inl (h _ hmem))

/-- What a grounded path visits is there, unless it is only above the goal. -/
theorem Grounded.of_mem_visited (h : tree.Grounded place path) {between : Path}
    (hmem : between ∈ Path.visited place path) :
    tree.kind? between ≠ none ∨ between <+: Path.goal place path := by
  induction path generalizing place between with
  | nil =>
    rw [List.mem_singleton.mp hmem]
    exact .inr List.prefix_rfl
  | cons name path ih =>
    have hrest : tree.Grounded (Path.next place name) path := by
      rintro above below rfl
      exact h (name :: above) below rfl
    rcases List.mem_cons.mp hmem with rfl | hmem
    · by_cases hname : name = ".."
      · rw [hname] at h
        exact .inl (h [] path rfl)
      · have hnext := Path.next_of_ne between hname
        have hupto : between <+: Path.next between name := hnext ▸ List.prefix_append _ _
        rcases ih hrest (Path.mem_visited_self _ path) with hthere | hgoal
        · exact .inl (kind?_of_above hupto hthere)
        · exact .inr (hupto.trans hgoal)
    · exact ih hrest hmem

end

end FileTree

end StepRunner
