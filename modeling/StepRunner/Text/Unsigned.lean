namespace StepRunner.Text

def digits? : List Char → Option Nat
  | [] => none
  | text =>
    if text.all Char.isDigit then some (text.foldl (fun n c => 10 * n + (c.toNat - '0'.toNat)) 0)
    else none

/-- A number below `bound`, after at most one plus sign. -/
def unsigned? (bound : Nat) (text : List Char) : Option Nat :=
  let digits := match text with
    | '+' :: digits => digits
    | _ => text
  (digits? digits).filter (· < bound)

end StepRunner.Text
