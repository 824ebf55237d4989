import StepRunner.Proofs.Project.FileTree

namespace StepRunner

open Scaffold

namespace Template

/-- The template's folder leads down, and its file has a name there. -/
structure Fits (template : Template) : Prop where
  path : Path.ofText template.path = Path.ofText template.folder ++ [template.name]
  folder : ".." ∉ Path.ofText template.folder
  name : template.name ≠ ".."

/-- Neither template's path would lead on from the other's. -/
structure Apart (first second : Template) : Prop where
  left : ¬ Path.ofText first.path <+: Path.ofText second.path
  right : ¬ Path.ofText second.path <+: Path.ofText first.path

theorem Apart.symm {first second : Template} (h : first.Apart second) : second.Apart first :=
  ⟨h.right, h.left⟩

/-- Where the template's file comes to stand. -/
def place (template : Template) (root : String) : Path :=
  Path.goal [] (.ofText (join root template.path))

/-- The places that are passed on the way to the file. -/
def passes (template : Template) (root : String) : List Path :=
  Path.visited [] (.ofText (join root template.folder))

/-- The template's path leads to something. -/
def Present (template : Template) (root : String) (tree : FileTree) : Prop :=
  tree.contains Naming.any.name (.ofText (join root template.path)) = true

/-- No file is in the way. -/
def Clear (template : Template) (root : String) (tree : FileTree) : Prop :=
  ∀ place ∈ template.passes root, tree.contents? place = none

section

variable {template other : Template} {root : String} {tree after : FileTree} {place : Path}

theorem fits_of_mem_all (h : template ∈ all) : template.Fits := by
  rcases List.mem_cons.mp h with rfl | h
  · exact ⟨by decide, by decide, by decide⟩
  · obtain rfl := List.mem_singleton.mp h
    exact ⟨by decide, by decide, by decide⟩

theorem pairwise_apart_all : all.Pairwise Apart := by
  refine List.pairwise_pair.mpr ⟨?_, ?_⟩
  · decide
  · decide

theorem Fits.ofText_join (h : template.Fits) (root : String) :
    Path.ofText (join root template.path) =
      Path.ofText (join root template.folder) ++ [template.name] := by
  rw [Path.ofText_join, Path.ofText_join, h.path, List.append_assoc]

theorem Fits.place_eq (h : template.Fits) (root : String) :
    template.place root =
      Path.goal [] (.ofText (join root template.folder)) ++ [template.name] := by
  rw [Template.place, h.ofText_join, Path.goal_append_singleton [] _ h.name]

/-- The file stands below where the root leads. -/
theorem Fits.place_eq_append (h : template.Fits) (root : String) :
    template.place root = Path.goal [] (.ofText root) ++ Path.ofText template.path := by
  rw [h.place_eq, Path.ofText_join, Path.goal_append, Path.goal_of_descending h.folder, h.path,
    List.append_assoc]

theorem Fits.present_iff (h : template.Fits) :
    template.Present root tree ↔
      (∀ place ∈ template.passes root, tree.isDirectory place = true) ∧
        tree.kind? (template.place root) ≠ none := by
  rw [Present, FileTree.contains_any_iff]
  rw [h.ofText_join, Path.passed_append_singleton, ← h.ofText_join]
  rfl

/-- The way to the file is that of the root, and then leads down to it. -/
theorem Fits.mem_passes (h : template.Fits) (hmem : place ∈ template.passes root) :
    place ∈ Path.visited [] (.ofText root) ∨
      Path.goal [] (.ofText root) <+: place ∧ place <+: template.place root ∧
        place ≠ template.place root := by
  rw [passes, Path.ofText_join, Path.visited_append] at hmem
  rcases List.mem_append.mp hmem with hpassed | hvisited
  · exact .inl (List.mem_append_left _ hpassed)
  · obtain ⟨hafter, hbefore⟩ := Path.mem_visited_of_descending h.folder hvisited
    have hplace : template.place root = Path.goal [] (.ofText root) ++
        Path.ofText template.folder ++ [template.name] := by
      rw [h.place_eq_append, h.path, List.append_assoc]
    refine .inr ⟨hafter, ?_, ?_⟩
    · rw [hplace]
      exact hbefore.trans (List.prefix_append _ _)
    · intro heq
      have hlength := hbefore.length_le
      rw [heq, hplace, List.length_append] at hlength
      exact Nat.not_succ_le_self _ hlength

theorem visited_subset_passes (h : place ∈ Path.visited [] (.ofText root)) :
    place ∈ template.passes root := by
  rw [passes, Path.ofText_join, Path.visited_append]
  rcases List.mem_append.mp h with hpassed | hgoal
  · exact List.mem_append_left _ hpassed
  · rw [List.mem_singleton.mp hgoal]
    exact List.mem_append_right _ (Path.mem_visited_self _ _)

/-- Only the root's own way can lead through where a file comes to stand. -/
theorem Fits.mem_visited_of_mem_passes (h : template.Fits) (hother : other.Fits)
    (hapart : template = other ∨ template.Apart other)
    (hmem : template.place root ∈ other.passes root) :
    template.place root ∈ Path.visited [] (.ofText root) := by
  refine (hother.mem_passes hmem).resolve_right ?_
  rintro ⟨-, hbefore, hne⟩
  rcases hapart with rfl | hapart
  · exact hne rfl
  · rw [h.place_eq_append, hother.place_eq_append, List.prefix_append_right_inj] at hbefore
    exact hapart.left hbefore

theorem Fits.place_ne (h : template.Fits) (hother : other.Fits) (hapart : template.Apart other) :
    template.place root ≠ other.place root := by
  rw [h.place_eq_append, hother.place_eq_append]
  intro heq
  exact hapart.left (List.append_cancel_left heq ▸ List.prefix_rfl)

/-- What is there stays there, as a file or as a directory. -/
theorem Present.mono (hfits : template.Fits) (h : template.Present root tree)
    (hdirectory : ∀ place, tree.isDirectory place = true → after.isDirectory place = true)
    (hthere : ∀ place, tree.kind? place ≠ none → after.kind? place ≠ none) :
    template.Present root after := by
  obtain ⟨hpasses, hplace⟩ := hfits.present_iff.mp h
  exact hfits.present_iff.mpr
    ⟨fun place hmem => hdirectory place (hpasses place hmem), hthere _ hplace⟩

end

end Template

/-- No file is in the way that the root leads, but not all of it is there. -/
def FileTree.Strays (tree : FileTree) (root : String) : Prop :=
  (∀ place ∈ Path.visited [] (.ofText root), tree.contents? place = none) ∧
    ∃ place ∈ Path.visited [] (.ofText root), tree.kind? place = none

theorem FileTree.not_strays_of_isDirectory {tree : FileTree} {root : String}
    (h : ∀ place ∈ Path.visited [] (.ofText root), tree.isDirectory place = true) :
    ¬ tree.Strays root := by
  rintro ⟨-, place, hmem, hnone⟩
  have hthere := isDirectory_iff.mp (h place hmem)
  rw [hnone] at hthere
  cases hthere

namespace Template

/-- If the root leads astray, it is not to where the template's file stands or is to stand. -/
def Straight (template : Template) (root : String) (tree : FileTree) : Prop :=
  tree.Strays root → tree.kind? (template.place root) = none ∧
    template.place root ∉ Path.visited [] (.ofText root)

variable {template other : Template} {root : String} {tree : FileTree} {place : Path}

/-- Where a file stands, directories lead to it from where the root leads. -/
theorem Fits.forall_mem_passes_iff (h : template.Fits) {p : Path → Prop}
    (hdirectory : ∀ place, tree.isDirectory place = true → p place)
    (hplace : tree.kind? (template.place root) ≠ none) :
    (∀ place ∈ template.passes root, p place) ↔
      ∀ place ∈ Path.visited [] (.ofText root), p place := by
  constructor
  · exact fun hall place hmem => hall place (visited_subset_passes hmem)
  · intro hall place hmem
    rcases h.mem_passes hmem with hvisited | ⟨-, hbefore, hne⟩
    · exact hall place hvisited
    · exact hdirectory place (FileTree.isDirectory_of_above hbefore hne hplace)

/-- What stands where the root leads astray is not found, and nothing is in the way. -/
theorem Fits.strays_iff (h : template.Fits) (hplace : tree.kind? (template.place root) ≠ none) :
    tree.Strays root ↔ template.Clear root tree ∧ ¬ template.Present root tree := by
  have hclear : template.Clear root tree ↔ _ :=
    h.forall_mem_passes_iff (fun _ => FileTree.contents?_of_isDirectory) hplace
  have hpresent := h.forall_mem_passes_iff (fun _ => id) hplace
  rw [hclear, h.present_iff, hpresent, and_iff_left hplace]
  constructor
  · intro hstrays
    exact ⟨hstrays.1, fun hall => FileTree.not_strays_of_isDirectory hall hstrays⟩
  · rintro ⟨hfree, hall⟩
    refine ⟨hfree, ?_⟩
    apply Classical.byContradiction
    intro hthere
    refine hall fun place hmem => FileTree.isDirectory_of_clear ?_ (hfree place hmem)
    exact fun hnone => hthere ⟨place, hmem, hnone⟩

/-- On a straight way, only a file hides what is there. -/
theorem Fits.present_iff_of_straight (h : template.Fits) (hstraight : template.Straight root tree) :
    template.Present root tree ↔
      template.Clear root tree ∧ tree.kind? (template.place root) ≠ none := by
  constructor
  · intro hpresent
    obtain ⟨hpasses, hplace⟩ := h.present_iff.mp hpresent
    exact ⟨fun place hmem => FileTree.contents?_of_isDirectory (hpasses place hmem), hplace⟩
  · rintro ⟨hclear, hplace⟩
    apply Classical.byContradiction
    intro habsent
    exact hplace (hstraight ((h.strays_iff hplace).mpr ⟨hclear, habsent⟩)).1

/-- On a straight way, what is absent without a file in the way is missing. -/
theorem Fits.kind?_eq_none_of_absent (h : template.Fits) (hstraight : template.Straight root tree)
    (habsent : ¬ template.Present root tree) (hclear : template.Clear root tree) :
    tree.kind? (template.place root) = none := by
  apply Classical.byContradiction
  intro hthere
  exact habsent ((h.present_iff_of_straight hstraight).mpr ⟨hclear, hthere⟩)

/-- On a straight way, nothing leads through where a file is missing. -/
theorem Fits.not_mem_passes (h : template.Fits) (hother : other.Fits)
    (hapart : template = other ∨ template.Apart other) (hstraight : template.Straight root tree)
    (hfree : ∀ place ∈ Path.visited [] (.ofText root), tree.contents? place = none)
    (hmissing : tree.kind? (template.place root) = none) :
    template.place root ∉ other.passes root := by
  intro hmem
  have hvisited := h.mem_visited_of_mem_passes hother hapart hmem
  exact (hstraight ⟨hfree, _, hvisited, hmissing⟩).2 hvisited

/-- A root that goes up only from where something is leads straight. -/
theorem Fits.straight_of_grounded (h : template.Fits) (hroot : tree.Grounded [] (.ofText root)) :
    template.Straight root tree := by
  have hup : Path.goal [] (.ofText root) <+: template.place root := by
    rw [h.place_eq_append]
    exact List.prefix_append _ _
  rintro ⟨-, between, hmem, hnone⟩
  have hmissing : tree.kind? (template.place root) = none := by
    apply Classical.byContradiction
    intro hthere
    rcases hroot.of_mem_visited hmem with hfound | hgoal
    · exact hfound hnone
    · exact FileTree.kind?_of_above (hgoal.trans hup) hthere hnone
  refine ⟨hmissing, fun hvisited => ?_⟩
  rcases hroot.of_mem_visited hvisited with hthere | hgoal
  · exact hthere hmissing
  · have hlength := hgoal.length_le
    rw [h.place_eq_append, h.path, ← List.append_assoc, List.length_append] at hlength
    simp only [List.length_append, List.length_singleton] at hlength
    omega

end Template

/-- The template's file is written, in folders that are made for it. -/
structure Template.Writes (template : Template) (root : String) (tree after : FileTree) : Prop where
  contents : ∀ place, after.contents? place =
    if place = template.place root then some template.contents else tree.contents? place
  directory : ∀ place, after.isDirectory place = true ↔
    tree.isDirectory place = true ∨ place ∈ template.passes root

namespace Template.Writes

variable {template : Template} {root : String} {tree after : FileTree}

theorem kind?_ne_none_iff (h : template.Writes root tree after) (place : Path) :
    after.kind? place ≠ none ↔
      tree.kind? place ≠ none ∨ place ∈ template.passes root ∨ place = template.place root := by
  rw [FileTree.kind?_ne_none_iff, FileTree.kind?_ne_none_iff, h.directory, h.contents]
  by_cases heq : place = template.place root
  · simp [heq]
  · rw [if_neg heq]
    simp only [heq, or_false]
    exact or_right_comm

theorem there (h : template.Writes root tree after) {place : Path}
    (hthere : tree.kind? place ≠ none) : after.kind? place ≠ none :=
  (h.kind?_ne_none_iff place).mpr (.inl hthere)

/-- The way to the file, and that of the root, is one of directories now. -/
theorem isDirectory (h : template.Writes root tree after) {place : Path}
    (hmem : place ∈ template.passes root) : after.isDirectory place = true :=
  (h.directory place).mpr (.inr hmem)

theorem present (h : template.Writes root tree after) (hfits : template.Fits) :
    template.Present root after :=
  hfits.present_iff.mpr ⟨fun _ => h.isDirectory, (h.kind?_ne_none_iff _).mpr (.inr (.inr rfl))⟩

/-- Once a file is written, the root leads straight to every other. -/
theorem straight (h : template.Writes root tree after) (other : Template) :
    other.Straight root after := by
  intro hstrays
  have hall : ∀ place ∈ Path.visited [] (.ofText root), after.isDirectory place = true :=
    fun place hmem => h.isDirectory (Template.visited_subset_passes hmem)
  exact absurd hstrays (FileTree.not_strays_of_isDirectory hall)

end Template.Writes

end StepRunner
