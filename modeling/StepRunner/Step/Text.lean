namespace StepRunner.StepText

def placeholder : List Char := ['\x7b', '\x7d']

/-- Collects, in reverse, what would be a name after a `<`; one that is never closed is literal. -/
def scan : (name : Option (List Char)) → List Char → List Char
  | none, [] => []
  | some name, [] => '<' :: name.reverse
  | none, c :: text => if c = '<' then scan (some []) text else c :: scan none text
  | some name, c :: text =>
    if c = '>' then placeholder ++ scan none text else scan (some (c :: name)) text

def normalize (text : List Char) : List Char := scan none text

/-- The number of placeholders. -/
def arity : List Char → Nat
  | '\x7b' :: '\x7d' :: text => arity text + 1
  | _ :: text => arity text
  | [] => 0

end StepRunner.StepText
