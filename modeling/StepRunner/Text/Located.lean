import StepRunner.Text.Unsigned

namespace StepRunner.Text

/-- A text that says at its end which place it is about. -/
structure Located where
  reason : String
  /-- A line and a column. Lines count from one. -/
  place : Option (Nat × Nat)
  deriving DecidableEq, Repr

/-- What stands before and after the last occurrence of a mark. -/
def splitAtLast (mark : List Char) : List Char → Option (List Char × List Char)
  | [] => none
  | c :: text =>
    match splitAtLast mark text with
    | some (before, after) => some (c :: before, after)
    | none =>
      if mark.isPrefixOf (c :: text) then some ([], (c :: text).drop mark.length) else none

namespace Located

/-- A text with the place cut off that it ends in. -/
def cut? (text : List Char) : Option (List Char × Nat × Nat) := do
  let (reason, place) ← splitAtLast " at line ".toList text
  let (line, column) ← splitAtLast " column ".toList place
  return (reason, ← (digits? line).filter (· < UInt64.size),
    ← (digits? column).filter (· < UInt64.size))

/-- A place in line 0 is no place. -/
def ofText (text : String) : Located :=
  match cut? text.toList with
  | some (reason, line, column) =>
    ⟨String.ofList reason, if line = 0 then none else some (line, column)⟩
  | none => ⟨text, none⟩

def text (located : Located) : String :=
  match located.place with
  | some (line, column) => s!"{located.reason} at line {line} column {column}"
  | none => located.reason

end Located

end StepRunner.Text
