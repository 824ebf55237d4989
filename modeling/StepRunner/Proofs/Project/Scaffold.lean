import StepRunner.Proofs.Project.Template

namespace StepRunner

namespace Scaffold

/-- Scaffolds templates in a tree. -/
def createIn (root : String) (templates : List Template) (tree : FileTree) :
    Except ScaffoldError (List String) × FileTree :=
  (create (FileTree.disk .any) root templates).run tree

/-- What comes first hands on the tree that it leaves. -/
theorem run_bind {α β : Type} (first : StateM FileTree α) (next : α → StateM FileTree β)
    (tree : FileTree) :
    (first >>= next).run tree = (next (first.run tree).1).run (first.run tree).2 := rfl

/-- One template: it is kept, or its folder is created and its file is written. -/
theorem createIn_cons (root : String) (template : Template) (templates : List Template)
    (tree : FileTree) :
    createIn root (template :: templates) tree =
      if tree.contains Naming.any.name (.ofText (join root template.path)) then
        createIn root templates tree
      else
        match tree.createDirectory Naming.any.name (.ofText (join root template.folder)) with
        | (false, tree) => (.error (.createDirectory (join root template.folder)), tree)
        | (true, tree) =>
          match tree.writeFile Naming.any.name template.contents
              (.ofText (join root template.path)) with
          | (false, tree) => (.error (.write (join root template.path)), tree)
          | (true, tree) =>
            ((createIn root templates tree).1.map (template.path :: ·),
              (createIn root templates tree).2) := by
  have hcontains : ((FileTree.disk .any).contains (join root template.path)).run tree =
      (tree.contains Naming.any.name (.ofText (join root template.path)), tree) := rfl
  have hcreate : ((FileTree.disk .any).createDirectory (join root template.folder)).run tree =
      tree.createDirectory Naming.any.name (.ofText (join root template.folder)) := rfl
  have hwrite (middle : FileTree) :
      ((FileTree.disk .any).writeFile (join root template.path) template.contents).run middle =
        middle.writeFile Naming.any.name template.contents
          (.ofText (join root template.path)) := rfl
  rw [createIn, create, run_bind, hcontains]
  split
  · rfl
  · rw [run_bind, hcreate]
    rcases tree.createDirectory Naming.any.name (.ofText (join root template.folder)) with
      ⟨created, middle⟩
    cases created with
    | false => rfl
    | true =>
      simp only [Bool.not_true, Bool.false_eq_true, if_false]
      rw [run_bind, hwrite]
      rcases middle.writeFile Naming.any.name template.contents (.ofText (join root template.path))
        with ⟨written, later⟩
      cases written <;> rfl

theorem createIn_of_present {root : String} {template : Template} {tree : FileTree}
    (h : template.Present root tree) (templates : List Template) :
    createIn root (template :: templates) tree = createIn root templates tree :=
  (createIn_cons root template templates tree).trans (if_pos h)

theorem createIn_of_absent {root : String} {template : Template} {tree : FileTree}
    (h : ¬ template.Present root tree) (templates : List Template) :
    createIn root (template :: templates) tree =
      match tree.createDirectory Naming.any.name (.ofText (join root template.folder)) with
      | (false, tree) => (.error (.createDirectory (join root template.folder)), tree)
      | (true, tree) =>
        match tree.writeFile Naming.any.name template.contents
            (.ofText (join root template.path)) with
        | (false, tree) => (.error (.write (join root template.path)), tree)
        | (true, tree) =>
          ((createIn root templates tree).1.map (template.path :: ·),
            (createIn root templates tree).2) :=
  (createIn_cons root template templates tree).trans (if_neg h)

end Scaffold

/-- How scaffolding can go. -/
inductive Scaffold.Creates (root : String) :
    List Template → FileTree → Except ScaffoldError (List String) → FileTree → Prop
  | done (tree : FileTree) : Creates root [] tree (.ok []) tree
  | kept {template : Template} {templates : List Template} {tree after : FileTree}
      {result : Except ScaffoldError (List String)} (hpresent : template.Present root tree)
      (hrest : Creates root templates tree result after) :
      Creates root (template :: templates) tree result after
  | blocked {template : Template} {templates : List Template} {tree after : FileTree}
      (hblocked : ¬ template.Clear root tree) (hgrows : tree.Grows after) :
      Creates root (template :: templates) tree
        (.error (.createDirectory (join root template.folder))) after
  | taken {template : Template} {templates : List Template} {tree after : FileTree}
      (habsent : ¬ template.Present root tree) (hclear : template.Clear root tree)
      (htaken : tree.isDirectory (template.place root) = true ∨
        template.place root ∈ template.passes root) (hgrows : tree.Grows after) :
      Creates root (template :: templates) tree (.error (.write (join root template.path))) after
  | written {template : Template} {templates : List Template} {tree middle after : FileTree}
      {result : Except ScaffoldError (List String)} (habsent : ¬ template.Present root tree)
      (hclear : template.Clear root tree) (hwrites : template.Writes root tree middle)
      (hrest : Creates root templates middle result after) :
      Creates root (template :: templates) tree (result.map (template.path :: ·)) after

namespace Scaffold

/-- In folders that are all there, a file is written where no directory is. -/
theorem writes_of_set {template : Template} {root : String} {tree middle : FileTree}
    (hfits : template.Fits) (hgrows : tree.Grows middle)
    (hmade : ∀ place, middle.isDirectory place = true ↔
      tree.isDirectory place = true ∨ place ∈ template.passes root)
    (hfree : middle.isDirectory (template.place root) = false) :
    template.Writes root tree
      (middle.set (template.place root) (.file template.contents)) := by
  have hplace := hfits.place_eq root
  have hparent : middle.isDirectory (Path.goal [] (.ofText (join root template.folder))) = true :=
    (hmade _).mpr (.inr (Path.goal_mem_visited _ _))
  rw [hplace] at hfree
  have hkind := FileTree.kind?_set (FileTree.isLeaf_file template.contents) hparent hfree
  rw [← hplace] at hkind hfree
  constructor
  · intro place
    rw [FileTree.contents?, hkind]
    split
    · rfl
    · exact hgrows.contents place
  · intro place
    rw [← hmade, FileTree.isDirectory_iff, FileTree.isDirectory_iff, hkind]
    split
    · next heq =>
      rw [heq, ← FileTree.isDirectory_iff, hfree]
      refine iff_of_false ?_ Bool.false_ne_true
      intro hleaf
      cases hleaf
    · rfl

/-- Scaffolding goes in one of these ways. -/
theorem creates_createIn (root : String) {templates : List Template}
    (hfits : ∀ template ∈ templates, template.Fits) (tree : FileTree) :
    Creates root templates tree (createIn root templates tree).1
      (createIn root templates tree).2 := by
  induction templates generalizing tree with
  | nil => exact .done tree
  | cons template templates ih =>
    obtain ⟨htemplate, hrest⟩ := List.forall_mem_cons.mp hfits
    by_cases hpresent : template.Present root tree
    · rw [createIn_of_present hpresent]
      exact .kept hpresent (ih hrest tree)
    · rw [createIn_of_absent hpresent]
      have hclear := tree.createDirectory_fst_iff (.ofText (join root template.folder))
      have hgrows := tree.grows_createFrom [] (.ofText (join root template.folder))
      have hmade := @FileTree.isDirectory_createFrom [] (.ofText (join root template.folder)) tree
      rw [← FileTree.createDirectory] at hgrows hmade
      rcases hcreated : tree.createDirectory Naming.any.name
        (.ofText (join root template.folder)) with ⟨created, middle⟩
      rw [hcreated] at hclear hgrows hmade
      cases created with
      | false => exact .blocked (fun hfree => Bool.false_ne_true (hclear.mpr hfree)) hgrows
      | true =>
        have hfolders := hmade rfl
        have hwrite := FileTree.writeFile_eq template.contents htemplate.name
          fun place hmem => (hfolders place).mpr (.inr hmem)
        rw [← htemplate.place_eq, ← htemplate.ofText_join] at hwrite
        simp only [hwrite]
        by_cases hdirectory : middle.isDirectory (template.place root) = true
        · rw [if_pos hdirectory]
          exact .taken hpresent (hclear.mp rfl) ((hfolders _).mp hdirectory) hgrows
        · rw [if_neg hdirectory]
          exact .written hpresent (hclear.mp rfl)
            (writes_of_set htemplate hgrows hfolders (Bool.not_eq_true _ ▸ hdirectory)) (ih hrest _)

end Scaffold

namespace Scaffold.Creates

variable {root : String} {templates : List Template} {tree after : FileTree}
  {result : Except ScaffoldError (List String)}

/-- Only where templates stand is there another file than before, and then it is the template's. -/
theorem contents (h : Creates root templates tree result after) (place : Path) :
    after.contents? place = tree.contents? place ∨
      ∃ template ∈ templates, place = template.place root ∧
        after.contents? place = some template.contents := by
  induction h with
  | done => exact .inl rfl
  | kept _ _ ih =>
    rcases ih with hsame | ⟨template, hmem, hplace⟩
    · exact .inl hsame
    · exact .inr ⟨template, List.mem_cons_of_mem _ hmem, hplace⟩
  | blocked _ hgrows | taken _ _ _ hgrows => exact .inl (hgrows.contents place)
  | @written template templates tree middle after result _ _ hwrites _ ih =>
    rcases ih with hsame | ⟨other, hmem, hplace⟩
    · rw [hwrites.contents] at hsame
      by_cases heq : place = template.place root
      · rw [if_pos heq] at hsame
        exact .inr ⟨template, List.mem_cons_self, heq, hsame⟩
      · rw [if_neg heq] at hsame
        exact .inl hsame
    · exact .inr ⟨other, List.mem_cons_of_mem _ hmem, hplace⟩

theorem directory (h : Creates root templates tree result after) {place : Path}
    (hdirectory : tree.isDirectory place = true) : after.isDirectory place = true := by
  induction h with
  | done => exact hdirectory
  | kept _ _ ih => exact ih hdirectory
  | blocked _ hgrows | taken _ _ _ hgrows => exact hgrows.directory place hdirectory
  | written _ _ hwrites _ ih => exact ih ((hwrites.directory place).mpr (.inl hdirectory))

/-- Nothing is removed. -/
theorem there (h : Creates root templates tree result after) {place : Path}
    (hthere : tree.kind? place ≠ none) : after.kind? place ≠ none := by
  rw [FileTree.kind?_ne_none_iff] at hthere ⊢
  rcases hthere with hdirectory | hfile
  · exact .inl (h.directory hdirectory)
  · right
    rcases h.contents place with hsame | ⟨template, -, -, hwritten⟩
    · rw [hsame]
      exact hfile
    · rw [hwritten]
      exact Option.some_ne_none _

theorem present (h : Creates root templates tree result after) {template : Template}
    (hfits : template.Fits) (hpresent : template.Present root tree) :
    template.Present root after :=
  hpresent.mono hfits (fun _ => h.directory) fun _ => h.there

/-- Where all goes well, all templates are present in the end. -/
theorem present_of_ok (h : Creates root templates tree result after)
    (hfits : ∀ template ∈ templates, template.Fits) {created : List String}
    (hok : result = .ok created) : ∀ template ∈ templates, template.Present root after := by
  induction h generalizing created with
  | done => exact fun _ hmem => absurd hmem List.not_mem_nil
  | kept hpresent hrest ih =>
    rw [List.forall_mem_cons] at hfits ⊢
    exact ⟨hrest.present hfits.1 hpresent, ih hfits.2 hok⟩
  | blocked | taken => cases hok
  | @written template templates tree middle after result _ _ hwrites hrest ih =>
    rw [List.forall_mem_cons] at hfits ⊢
    cases result with
    | error e => cases hok
    | ok later => exact ⟨hrest.present hfits.1 (hwrites.present hfits.1), ih hfits.2 rfl⟩

/-- What is listed was missing, and is there as its template has it. -/
theorem listed (h : Creates root templates tree result after)
    (hfits : ∀ template ∈ templates, template.Fits)
    (hapart : templates.Pairwise Template.Apart) {created : List String}
    (hok : result = .ok created) : ∃ written : List Template, written.Sublist templates ∧
      created = written.map Template.path ∧ ∀ template ∈ written,
        ¬ template.Present root tree ∧
          after.contents? (template.place root) = some template.contents := by
  induction h generalizing created with
  | done =>
    cases hok
    exact ⟨[], .slnil, rfl, fun _ hmem => absurd hmem List.not_mem_nil⟩
  | kept _ _ ih =>
    obtain ⟨written, hsublist, hcreated⟩ :=
      ih (List.forall_mem_cons.mp hfits).2 (List.pairwise_cons.mp hapart).2 hok
    exact ⟨written, hsublist.cons _, hcreated⟩
  | blocked | taken => cases hok
  | @written template templates tree middle after result habsent _ hwrites hrest ih =>
    obtain ⟨htemplate, hothers⟩ := List.forall_mem_cons.mp hfits
    obtain ⟨happart, hrestApart⟩ := List.pairwise_cons.mp hapart
    cases result with
    | error e => cases hok
    | ok later =>
      cases hok
      obtain ⟨written, hsublist, rfl, hwritten⟩ := ih hothers hrestApart rfl
      refine ⟨template :: written, hsublist.cons_cons _, rfl, List.forall_mem_cons.mpr ⟨?_, ?_⟩⟩
      · refine ⟨habsent, ?_⟩
        rcases hrest.contents (template.place root) with hsame | ⟨other, hmem, hplace, -⟩
        · rw [hsame, hwrites.contents, if_pos rfl]
        · exact absurd hplace (htemplate.place_ne (hothers other hmem) (happart other hmem))
      · intro other hmem
        obtain ⟨hlater, hcontents⟩ := hwritten other hmem
        refine ⟨fun hpresent => hlater ?_, hcontents⟩
        exact hpresent.mono (hothers other (hsublist.subset hmem))
          (fun place hdirectory => (hwrites.directory place).mpr (.inl hdirectory))
          fun _ => hwrites.there

/-- Where something fails, the templates before it are present. -/
theorem present_of_error (h : Creates root templates tree result after)
    (hfits : ∀ template ∈ templates, template.Fits) {e : ScaffoldError}
    (herror : result = .error e) : ∃ (before : List Template) (failing : Template)
      (rest : List Template), templates = before ++ failing :: rest ∧
      (∀ template ∈ before, template.Present root after) ∧
      (e = .createDirectory (join root failing.folder) ∨ e = .write (join root failing.path)) := by
  induction h generalizing e with
  | done => cases herror
  | @kept template templates tree after result hpresent hrest ih =>
    obtain ⟨htemplate, hothers⟩ := List.forall_mem_cons.mp hfits
    obtain ⟨before, failing, rest, rfl, hbefore, he⟩ := ih hothers herror
    refine ⟨template :: before, failing, rest, rfl, List.forall_mem_cons.mpr ⟨?_, hbefore⟩, he⟩
    exact hrest.present htemplate hpresent
  | blocked =>
    cases herror
    exact ⟨[], _, _, rfl, fun _ hmem => absurd hmem List.not_mem_nil, .inl rfl⟩
  | taken =>
    cases herror
    exact ⟨[], _, _, rfl, fun _ hmem => absurd hmem List.not_mem_nil, .inr rfl⟩
  | @written template templates tree middle after result _ _ hwrites hrest ih =>
    obtain ⟨htemplate, hothers⟩ := List.forall_mem_cons.mp hfits
    cases result with
    | ok later => cases herror
    | error found =>
      cases herror
      obtain ⟨before, failing, rest, rfl, hbefore, he⟩ := ih hothers rfl
      refine ⟨template :: before, failing, rest, rfl, List.forall_mem_cons.mpr ⟨?_, hbefore⟩, he⟩
      exact hrest.present htemplate (hwrites.present htemplate)

/-- Where the root leads straight, no file is changed. -/
theorem keeps_of_straight (h : Creates root templates tree result after)
    (hfits : ∀ template ∈ templates, template.Fits)
    (hstraight : ∀ template ∈ templates, template.Straight root tree)
    {place : Path} {contents : String} (hfile : tree.contents? place = some contents) :
    after.contents? place = some contents := by
  induction h with
  | done => exact hfile
  | kept _ _ ih =>
    exact ih (List.forall_mem_cons.mp hfits).2 (List.forall_mem_cons.mp hstraight).2 hfile
  | blocked _ hgrows | taken _ _ _ hgrows => exact (hgrows.contents place).trans hfile
  | @written template templates tree middle after result habsent hclear hwrites _ ih =>
    obtain ⟨htemplate, hothers⟩ := List.forall_mem_cons.mp hfits
    apply ih hothers fun other _ => hwrites.straight other
    rw [hwrites.contents, if_neg, hfile]
    rintro rfl
    have hown := hstraight template List.mem_cons_self
    have hmissing := htemplate.kind?_eq_none_of_absent hown habsent hclear
    rw [FileTree.contents?, hmissing] at hfile
    cases hfile

end Scaffold.Creates

namespace Scaffold

/-- The templates with nothing where their files stand. -/
def missing (root : String) (templates : List Template) (tree : FileTree) : List Template :=
  templates.filter fun template => (tree.kind? (template.place root)).isNone

/-- Once a file is written, what the other templates find is as before. -/
theorem missing_of_writes {root : String} {template : Template} {templates : List Template}
    {tree after : FileTree} (hfits : ∀ other ∈ template :: templates, other.Fits)
    (hapart : ∀ other ∈ templates, template.Apart other)
    (hstraight : ∀ other ∈ template :: templates, other.Straight root tree)
    (hclear : template.Clear root tree) (hmissing : tree.kind? (template.place root) = none)
    (hwrites : template.Writes root tree after) :
    missing root templates after = missing root templates tree ∧
      ∀ other ∈ templates, other.Clear root after ↔ other.Clear root tree := by
  obtain ⟨htemplate, hothers⟩ := List.forall_mem_cons.mp hfits
  obtain ⟨hown, hstraight⟩ := List.forall_mem_cons.mp hstraight
  have hfree : ∀ place ∈ Path.visited [] (.ofText root), tree.contents? place = none :=
    fun place hmem => hclear place (Template.visited_subset_passes hmem)
  constructor
  · apply List.filter_congr
    intro other hmem
    have hsame : after.kind? (other.place root) ≠ none ↔ tree.kind? (other.place root) ≠ none := by
      rw [hwrites.kind?_ne_none_iff]
      refine or_iff_left_of_imp ?_
      rintro (hpasses | hplace) hnone
      · exact (hothers other hmem).not_mem_passes htemplate (.inr (hapart other hmem).symm)
          (hstraight other hmem) hfree hnone hpasses
      · exact htemplate.place_ne (hothers other hmem) (hapart other hmem) hplace.symm
    rw [Bool.eq_iff_iff, Option.isNone_iff_eq_none, Option.isNone_iff_eq_none]
    exact Decidable.not_iff_not.mp hsame
  · intro other hmem
    have hway := htemplate.not_mem_passes (hothers other hmem) (.inr (hapart other hmem)) hown hfree
      hmissing
    refine forall₂_congr fun place hplace => ?_
    rw [hwrites.contents, if_neg]
    rintro rfl
    exact hway hplace

namespace Creates

variable {root : String} {templates : List Template} {tree after : FileTree}
  {result : Except ScaffoldError (List String)}

/-- Where the root leads straight, only a file in the way can fail a template. -/
theorem result_of_straight (h : Creates root templates tree result after)
    (hfits : ∀ template ∈ templates, template.Fits)
    (hapart : templates.Pairwise Template.Apart)
    (hstraight : ∀ template ∈ templates, template.Straight root tree) :
    ((∀ template ∈ templates, template.Clear root tree) ∧
        result = .ok ((missing root templates tree).map Template.path)) ∨
      ∃ failing ∈ templates, ¬ failing.Clear root tree ∧
        result = .error (.createDirectory (join root failing.folder)) := by
  induction h with
  | done => exact .inl ⟨fun _ hmem => absurd hmem List.not_mem_nil, rfl⟩
  | @kept template templates tree after result hpresent hrest ih =>
    obtain ⟨htemplate, hothers⟩ := List.forall_mem_cons.mp hfits
    obtain ⟨hown, hstraight⟩ := List.forall_mem_cons.mp hstraight
    obtain ⟨hclear, hthere⟩ := (htemplate.present_iff_of_straight hown).mp hpresent
    rcases ih hothers (List.pairwise_cons.mp hapart).2 hstraight with
      ⟨hall, hresult⟩ | ⟨failing, hmem, hfailing⟩
    · refine .inl ⟨List.forall_mem_cons.mpr ⟨hclear, hall⟩, ?_⟩
      have hmissing : missing root (template :: templates) tree = missing root templates tree :=
        List.filter_cons_of_neg (by simpa [Option.isNone_iff_eq_none] using hthere)
      rw [hmissing]
      exact hresult
    · exact .inr ⟨failing, List.mem_cons_of_mem _ hmem, hfailing⟩
  | blocked hblocked => exact .inr ⟨_, List.mem_cons_self, hblocked, rfl⟩
  | @taken template templates tree after habsent hclear htaken =>
    have htemplate := hfits template List.mem_cons_self
    have hown := hstraight template List.mem_cons_self
    have hmissing := htemplate.kind?_eq_none_of_absent hown habsent hclear
    rcases htaken with hdirectory | hmem
    · rw [FileTree.isDirectory_iff, hmissing] at hdirectory
      cases hdirectory
    · refine absurd hmem (htemplate.not_mem_passes htemplate (.inl rfl) hown ?_ hmissing)
      exact fun place hvisited => hclear place (Template.visited_subset_passes hvisited)
  | @written template templates tree middle after result habsent hclear hwrites hrest ih =>
    obtain ⟨htemplate, hothers⟩ := List.forall_mem_cons.mp hfits
    obtain ⟨hfirst, hrestApart⟩ := List.pairwise_cons.mp hapart
    have hown := hstraight template List.mem_cons_self
    have hmissing := htemplate.kind?_eq_none_of_absent hown habsent hclear
    obtain ⟨hsame, hsameClear⟩ :=
      missing_of_writes hfits hfirst hstraight hclear hmissing hwrites
    rcases ih hothers hrestApart fun other _ => hwrites.straight other with
      ⟨hall, rfl⟩ | ⟨failing, hmem, hfailing, rfl⟩
    · refine .inl ⟨List.forall_mem_cons.mpr ⟨hclear, fun other hmem => ?_⟩, ?_⟩
      · exact (hsameClear other hmem).mp (hall other hmem)
      · have hlisted : missing root (template :: templates) tree =
            template :: missing root templates tree :=
          List.filter_cons_of_pos (by rw [hmissing]; rfl)
        rw [hlisted, hsame]
        rfl
    · refine .inr ⟨failing, List.mem_cons_of_mem _ hmem, ?_, rfl⟩
      rw [← hsameClear failing hmem]
      exact hfailing

end Creates

/-- A file is only changed by the first template, where the root leads astray. -/
theorem Creates.changes_iff {root : String} {template : Template} {templates : List Template}
    {tree after : FileTree} {result : Except ScaffoldError (List String)}
    (h : Creates root (template :: templates) tree result after)
    (hfits : ∀ other ∈ template :: templates, other.Fits) {place : Path} {contents : String}
    (hfile : tree.contents? place = some contents) :
    after.contents? place ≠ some contents ↔
      (place = template.place root ∧ contents ≠ template.contents) ∧ tree.Strays root := by
  obtain ⟨htemplate, hothers⟩ := List.forall_mem_cons.mp hfits
  have hstrays (heq : place = template.place root) :
      tree.Strays root ↔ template.Clear root tree ∧ ¬ template.Present root tree := by
    apply htemplate.strays_iff
    rw [← heq, FileTree.kind?_ne_none_iff, hfile]
    exact .inr (Option.some_ne_none _)
  -- Unless the template is written, all files are as they were.
  have hkeeps (hsame : after.contents? place = some contents)
      (hnot : place = template.place root → ¬ tree.Strays root) :
      after.contents? place ≠ some contents ↔
        (place = template.place root ∧ contents ≠ template.contents) ∧ tree.Strays root :=
    iff_of_false (absurd hsame) fun hchanged => hnot hchanged.1.1 hchanged.2
  cases h with
  | kept hpresent hrest =>
    have hnot : ¬ tree.Strays root := FileTree.not_strays_of_isDirectory fun other hmem =>
      (htemplate.present_iff.mp hpresent).1 other (Template.visited_subset_passes hmem)
    have hsame := hrest.keeps_of_straight hothers (fun _ _ hstrays => absurd hstrays hnot) hfile
    exact hkeeps hsame fun _ => hnot
  | blocked hblocked hgrows =>
    apply hkeeps ((hgrows.contents place).trans hfile)
    exact fun heq hstray => hblocked ((hstrays heq).mp hstray).1
  | taken habsent hclear htaken hgrows =>
    apply hkeeps ((hgrows.contents place).trans hfile)
    rintro rfl
    have hnone : tree.contents? (template.place root) = none :=
      htaken.elim FileTree.contents?_of_isDirectory (hclear _)
    rw [hnone] at hfile
    cases hfile
  | @written _ _ _ middle _ result habsent hclear hwrites hrest =>
    have hmiddle := hwrites.contents place
    by_cases heq : place = template.place root
    · rw [if_pos heq] at hmiddle
      rw [hrest.keeps_of_straight hothers (fun other _ => hwrites.straight other) hmiddle]
      simp only [heq, hstrays heq, hclear, habsent, ne_eq, Option.some.injEq, true_and, and_true,
        not_false_eq_true, eq_comm]
    · rw [if_neg heq, hfile] at hmiddle
      have hsame :=
        hrest.keeps_of_straight hothers (fun other _ => hwrites.straight other) hmiddle
      exact hkeeps hsame fun hplace => absurd hplace heq

/-- Scaffolds a project in a tree. -/
def runIn (root : String) (tree : FileTree) : Except ScaffoldError (List String) × FileTree :=
  (run (FileTree.disk .any) root).run tree

/-- Where all templates are present nothing is done. -/
theorem createIn_of_all_present {root : String} {templates : List Template} {tree : FileTree}
    (h : ∀ template ∈ templates, template.Present root tree) :
    createIn root templates tree = (.ok [], tree) := by
  induction templates with
  | nil => rfl
  | cons template templates ih =>
    obtain ⟨hpresent, hrest⟩ := List.forall_mem_cons.mp h
    rw [createIn_of_present hpresent, ih hrest]

/-- **What is there is kept and what is missing is made, unless the root leads astray.** After an
error the templates before the failing one are there, and a later run makes the rest. -/
theorem run_creates_missing (root : String) (tree : FileTree) :
    let result := (runIn root tree).1
    let after := (runIn root tree).2
    (∀ place, tree.isDirectory place = true → after.isDirectory place = true) ∧
    (∀ place, after.contents? place = tree.contents? place ∨ ∃ template ∈ Template.all,
      place = template.place root ∧ after.contents? place = some template.contents) ∧
    (∀ place contents, tree.contents? place = some contents →
      (after.contents? place ≠ some contents ↔
        (∃ first ∈ Template.all.head?, place = first.place root ∧ contents ≠ first.contents) ∧
          tree.Strays root)) ∧
    (∀ created, result = .ok created →
      (∀ template ∈ Template.all, template.Present root after) ∧
      (∃ written : List Template, written.Sublist Template.all ∧
        created = written.map Template.path ∧ ∀ template ∈ written,
          ¬ template.Present root tree ∧
            after.contents? (template.place root) = some template.contents) ∧
      runIn root after = (.ok [], after)) ∧
    (∀ e, result = .error e → ∃ (before : List Template) (failing : Template)
      (rest : List Template), Template.all = before ++ failing :: rest ∧
        (∀ template ∈ before, template.Present root after) ∧
        (e = .createDirectory (join root failing.folder) ∨ e = .write (join root failing.path))) ∧
    ((∀ template ∈ Template.all, template.Straight root tree) →
      (∀ place contents, tree.contents? place = some contents →
        after.contents? place = some contents) ∧
      ((∀ template ∈ Template.all, template.Clear root tree) ∧
          result = .ok ((missing root Template.all tree).map Template.path) ∨
        ∃ failing ∈ Template.all, ¬ failing.Clear root tree ∧
          result = .error (.createDirectory (join root failing.folder)))) ∧
    ∀ later : FileTree, (∀ template ∈ Template.all, template.Straight root later) →
      (∀ template ∈ Template.all, template.Clear root later) →
      (runIn root later).1 = .ok ((missing root Template.all later).map Template.path) := by
  intro result after
  have hfits : ∀ template ∈ Template.all, template.Fits := fun _ => Template.fits_of_mem_all
  have hapart := Template.pairwise_apart_all
  have hcreates : Creates root Template.all tree result after := creates_createIn root hfits tree
  refine ⟨fun _ => hcreates.directory, hcreates.contents, ?_, ?_, ?_, ?_, ?_⟩
  · intro place contents hfile
    rw [hcreates.changes_iff hfits hfile]
    simp [Template.all]
  · intro created hok
    have hpresent := hcreates.present_of_ok hfits hok
    exact ⟨hpresent, hcreates.listed hfits hapart hok, createIn_of_all_present hpresent⟩
  · intro e herror
    exact hcreates.present_of_error hfits herror
  · intro hstraight
    exact ⟨fun _ _ => hcreates.keeps_of_straight hfits hstraight,
      hcreates.result_of_straight hfits hapart hstraight⟩
  · intro later hstraight hclear
    rcases (creates_createIn root hfits later).result_of_straight hfits hapart hstraight with
      ⟨-, hresult⟩ | ⟨failing, hmem, hblocked, -⟩
    · exact hresult
    · exact absurd (hclear failing hmem) hblocked

/-- The settings are written over from a root that goes up from nowhere, and kept from one that does
not. -/
theorem run_creates_missing_of_stray_root :
    let tree : FileTree := .directory [("env", .directory [("default",
      .directory [("rust.properties", .file "mine")])])]
    let settings := ["env", "default", "rust.properties"]
    tree.contents? settings = some "mine" ∧
      (runIn "x/.." tree).2.contents? settings ≠ some "mine" ∧
      (runIn "" tree).2.contents? settings = some "mine" ∧
      (runIn "" tree).1 = .ok ["src/step_implementation.rs"] := by
  intro tree settings
  have hfile : tree.contents? settings = some "mine" := rfl
  obtain ⟨-, -, hchanged, -⟩ := run_creates_missing "x/.." tree
  have hstrays : tree.Strays "x/.." := ⟨by decide, ["x"], by decide, by decide⟩
  obtain ⟨-, -, -, -, -, hkept, hlater⟩ := run_creates_missing "" tree
  have hstraight : ∀ template ∈ Template.all, template.Straight "" tree := by
    intro template hmem
    apply (Template.fits_of_mem_all hmem).straight_of_grounded
    exact FileTree.grounded_of_isDirectory (by decide)
  have hclear : ∀ template ∈ Template.all, template.Clear "" tree := by
    rw [Template.all, List.forall_mem_cons, List.forall_mem_singleton]
    constructor
    · rw [Template.Clear]
      decide
    · rw [Template.Clear]
      decide
  refine ⟨hfile, ?_, (hkept hstraight).1 settings "mine" hfile, hlater tree hstraight hclear⟩
  rw [hchanged settings "mine" hfile]
  exact ⟨⟨_, rfl, by decide, by decide⟩, hstrays⟩

end Scaffold

end StepRunner
