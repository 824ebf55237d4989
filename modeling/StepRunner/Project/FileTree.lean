namespace StepRunner

/-- The names that lead to a place, outermost first. -/
abbrev Path := List String

namespace Path

def splitAtSlashes : List Char → List (List Char)
  | [] => [[]]
  | c :: text =>
    match splitAtSlashes text with
    | [] => [[c]]
    | part :: parts => if c = '/' then [] :: part :: parts else (c :: part) :: parts

/-- Empty names and single dots lead nowhere. -/
def ofText (text : String) : Path :=
  ((splitAtSlashes text.toList).map String.ofList).filter fun name => name ≠ "" ∧ name ≠ "."

def text (path : Path) : String := String.intercalate "/" path

end Path

/-- The texts that can be a path, and the names that an entry can have. -/
structure Naming where
  path : String → Bool
  name : String → Bool

namespace Naming

def any : Naming := ⟨fun _ => true, fun _ => true⟩

/-- A path has at most 4095 bytes and no NUL, and a name has at most 255 bytes. -/
def usual : Naming where
  path text := text.utf8ByteSize ≤ 4095 && !text.toList.contains '\x00'
  name text := text.utf8ByteSize ≤ 255

end Naming

inductive FileTree where
  | file (contents : String)
  | directory (entries : List (String × FileTree))

namespace FileTree

def empty : FileTree := directory []

def get? : FileTree → Path → Option FileTree
  | tree, [] => some tree
  | file _, _ :: _ => none
  | directory entries, name :: place =>
    match entries.lookup name with
    | some tree => tree.get? place
    | none => none

def isDirectory (tree : FileTree) (place : Path) : Bool :=
  match tree.get? place with
  | some (directory _) => true
  | _ => false

/-- Puts a tree in the place of the entry of its name, or after all entries. -/
def setEntry (name : String) (tree : FileTree) : List (String × FileTree) → List (String × FileTree)
  | [] => [(name, tree)]
  | (n, t) :: entries =>
    if n = name then (name, tree) :: entries else (n, t) :: setEntry name tree entries

/-- Puts a tree at a place, unless a file is above it. -/
def set : FileTree → Path → FileTree → FileTree
  | _, [], new => new
  | file contents, _ :: _, _ => file contents
  | directory entries, name :: place, new =>
    directory (setEntry name (((entries.lookup name).getD empty).set place new) entries)

/-- The place that a name leads to from another place. -/
def step? (accepts : String → Bool) (tree : FileTree) (place : Path) (name : String) :
    Option Path :=
  if ¬tree.isDirectory place then none
  else if name = ".." then some place.dropLast
  else if accepts name then some (place ++ [name])
  else none

/-- The place that a path leads to, where there may be nothing yet. -/
def resolve? (accepts : String → Bool) (path : Path) (tree : FileTree) : Option Path :=
  path.foldlM (tree.step? accepts) []

def contains (accepts : String → Bool) (path : Path) (tree : FileTree) : Bool :=
  (tree.resolve? accepts path).any fun place => (tree.get? place).isSome

/-- Goes on from a place and creates each directory that is missing; those before an obstacle
stay. -/
def createFrom (accepts : String → Bool) (place : Path) : Path → FileTree → Bool × FileTree
  | [], tree => (tree.isDirectory place, tree)
  | name :: path, tree =>
    match tree.step? accepts place name with
    | none => (false, tree)
    | some next =>
      createFrom accepts next path (if (tree.get? next).isSome then tree else tree.set next empty)

/-- Creates a directory and those above it that are missing, and tells whether it is there now. -/
def createDirectory (accepts : String → Bool) (path : Path) (tree : FileTree) : Bool × FileTree :=
  tree.createFrom accepts [] path

/-- Writes a file into a directory that exists, over a file that may be there. -/
def writeFile (accepts : String → Bool) (contents : String) (path : Path) (tree : FileTree) :
    Bool × FileTree :=
  match tree.resolve? accepts path with
  | none => (false, tree)
  | some place =>
    if tree.isDirectory place then (false, tree) else (true, tree.set place (file contents))

theorem lookup_setEntry (name other : String) (tree : FileTree)
    (entries : List (String × FileTree)) :
    (setEntry name tree entries).lookup other =
      if other = name then some tree else entries.lookup other := by
  induction entries with
  | nil => grind [setEntry]
  | cons entry entries ih => grind [setEntry]

mutual

/-- Every place in a tree, with its contents if it is a file. -/
def listing (above : Path) : FileTree → List (Path × Option String)
  | file contents => [(above, some contents)]
  | directory entries => (above, none) :: listEntries above entries

def listEntries (above : Path) : List (String × FileTree) → List (Path × Option String)
  | [] => []
  | (name, tree) :: entries => listing (above ++ [name]) tree ++ listEntries above entries

end

end FileTree

end StepRunner
