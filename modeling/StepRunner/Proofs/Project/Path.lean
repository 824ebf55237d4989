import StepRunner.Project.Scaffold

namespace StepRunner

namespace Path

/-- Where a name leads from a place. -/
def next (place : Path) (name : String) : Path :=
  if name = ".." then place.dropLast else place ++ [name]

/-- Where a path leads from a place. -/
def goal (place : Path) (path : Path) : Path := path.foldl next place

/-- The places on the way, from where the path starts to where the last name is looked up. -/
def passed : Path → Path → List Path
  | _, [] => []
  | place, name :: path => place :: passed (next place name) path

/-- All places on the way, the goal too. -/
def visited (place path : Path) : List Path := passed place path ++ [goal place path]

theorem next_of_ne (place : Path) {name : String} (h : name ≠ "..") :
    next place name = place ++ [name] := if_neg h

theorem visited_cons (place : Path) (name : String) (path : Path) :
    visited place (name :: path) = place :: visited (next place name) path := rfl

theorem mem_visited_self (place path : Path) : place ∈ visited place path := by
  cases path with
  | nil => exact List.mem_singleton_self place
  | cons name path => exact List.mem_cons_self

theorem goal_mem_visited (place path : Path) : goal place path ∈ visited place path :=
  List.mem_append_right _ (List.mem_singleton_self _)

theorem goal_append (place path rest : Path) :
    goal place (path ++ rest) = goal (goal place path) rest := List.foldl_append

theorem passed_append (place path rest : Path) :
    passed place (path ++ rest) = passed place path ++ passed (goal place path) rest := by
  induction path generalizing place with
  | nil => rfl
  | cons name path ih =>
    rw [List.cons_append, passed, ih]
    rfl

theorem visited_append (place path rest : Path) :
    visited place (path ++ rest) = passed place path ++ visited (goal place path) rest := by
  rw [visited, passed_append, goal_append, List.append_assoc]
  rfl

/-- With a last name, the places before it are all that the rest visits. -/
theorem passed_append_singleton (place path : Path) (name : String) :
    passed place (path ++ [name]) = visited place path := passed_append place path [name]

theorem goal_append_singleton (place path : Path) {name : String} (h : name ≠ "..") :
    goal place (path ++ [name]) = goal place path ++ [name] := by
  rw [goal_append]
  exact next_of_ne _ h

theorem goal_of_descending {path : Path} (h : ".." ∉ path) (place : Path) :
    goal place path = place ++ path := by
  induction path generalizing place with
  | nil => exact (List.append_nil place).symm
  | cons name path ih =>
    have hname : name ≠ ".." := fun heq => h (heq ▸ List.mem_cons_self)
    have hpath : ".." ∉ path := fun hmem => h (List.mem_cons_of_mem _ hmem)
    have hgoal := ih hpath (place ++ [name])
    rw [List.append_assoc] at hgoal
    rw [← next_of_ne place hname] at hgoal
    exact hgoal

/-- Going down visits what lies between the start and the goal. -/
theorem mem_visited_of_descending {path : Path} (h : ".." ∉ path) {place between : Path}
    (hmem : between ∈ visited place path) :
    place <+: between ∧ between <+: place ++ path := by
  induction path generalizing place with
  | nil =>
    have hbetween : between = place := List.mem_singleton.mp hmem
    rw [hbetween, List.append_nil]
    exact ⟨List.prefix_rfl, List.prefix_rfl⟩
  | cons name path ih =>
    have hname : name ≠ ".." := fun heq => h (heq ▸ List.mem_cons_self)
    have hpath : ".." ∉ path := fun hmem => h (List.mem_cons_of_mem _ hmem)
    rw [visited_cons, next_of_ne place hname] at hmem
    rcases List.mem_cons.mp hmem with heq | hrest
    · rw [heq]
      exact ⟨List.prefix_rfl, List.prefix_append place _⟩
    · obtain ⟨hafter, hbefore⟩ := ih hpath hrest
      rw [List.append_assoc] at hbefore
      exact ⟨(List.prefix_append place [name]).trans hafter, hbefore⟩

theorem splitAtSlashes_ne_nil (text : List Char) : splitAtSlashes text ≠ [] := by
  cases text with
  | nil => exact List.cons_ne_nil _ _
  | cons c text =>
    rw [splitAtSlashes]
    split
    · exact List.cons_ne_nil _ _
    · split <;> exact List.cons_ne_nil _ _

/-- A slash is where two texts are split. -/
theorem splitAtSlashes_append (text rest : List Char) :
    splitAtSlashes (text ++ '/' :: rest) = splitAtSlashes text ++ splitAtSlashes rest := by
  induction text with
  | nil =>
    obtain ⟨part, parts, hrest⟩ := List.exists_cons_of_ne_nil (splitAtSlashes_ne_nil rest)
    have hsplit : splitAtSlashes ('/' :: rest) = [] :: part :: parts := by
      rw [splitAtSlashes, hrest]
      rfl
    rw [List.nil_append, hsplit, hrest]
    rfl
  | cons c text ih =>
    obtain ⟨part, parts, htext⟩ := List.exists_cons_of_ne_nil (splitAtSlashes_ne_nil text)
    rw [List.cons_append, splitAtSlashes, ih, splitAtSlashes, htext]
    by_cases hslash : c = '/'
    · simp only [List.cons_append, if_pos hslash]
    · simp only [List.cons_append, if_neg hslash]

/-- The names in a text, as a path has them. -/
def names (text : List Char) : Path :=
  ((splitAtSlashes text).map String.ofList).filter fun name => name ≠ "" ∧ name ≠ "."

theorem ofText_eq_names (text : String) : ofText text = names text.toList := rfl

theorem names_append (text rest : List Char) :
    names (text ++ '/' :: rest) = names text ++ names rest := by
  rw [names, splitAtSlashes_append, List.map_append, List.filter_append]
  rfl

/-- A path that is joined to a root goes on where the root leads. -/
theorem ofText_join (root path : String) :
    ofText (Scaffold.join root path) = ofText root ++ ofText path := by
  rw [Scaffold.join]
  split
  · next h =>
    rcases h with rfl | hslash
    · rw [String.empty_append]
      rfl
    · obtain ⟨text, hroot⟩ := List.getLast?_eq_some_iff.mp hslash
      have hnil : names [] = [] := rfl
      rw [ofText_eq_names, String.toList_append, hroot, List.append_assoc, List.singleton_append,
        names_append, ofText_eq_names root, hroot, names_append, hnil, List.append_nil]
      rfl
  · have hsplit : (root ++ "/" ++ path).toList = root.toList ++ '/' :: path.toList := by
      rw [String.toList_append, String.toList_append, List.append_assoc]
      rfl
    rw [ofText_eq_names, hsplit, names_append]
    rfl

end Path

end StepRunner
