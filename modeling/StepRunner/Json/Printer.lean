import StepRunner.Json.Value
import StepRunner.Decimal.Shortest

namespace StepRunner.Json

def hexDigit (n : Nat) : Char := (Nat.digitChar (n % 16))

/-- Only quotes, backslashes and control characters are escaped. -/
def escape (c : Char) : List Char :=
  match c with
  | '"' => ['\\', '"']
  | '\\' => ['\\', '\\']
  | '\x08' => ['\\', 'b']
  | '\x0c' => ['\\', 'f']
  | '\n' => ['\\', 'n']
  | '\r' => ['\\', 'r']
  | '\t' => ['\\', 't']
  | c =>
    if c.toNat < 32 then ['\\', 'u', '0', '0', hexDigit (c.toNat / 16), hexDigit c.toNat] else [c]

def quote (text : List Char) : List Char := '"' :: text.flatMap escape ++ ['"']

def integerText (n : Int) : List Char :=
  match n with
  | .ofNat n => Nat.toDigits 10 n
  | .negSucc n => '-' :: Nat.toDigits 10 (n + 1)

mutual

def print : Json → List Char
  | null => ['n', 'u', 'l', 'l']
  | bool true => ['t', 'r', 'u', 'e']
  | bool false => ['f', 'a', 'l', 's', 'e']
  | integer value => integerText value
  | float value => (Decimal.floatText value).toList
  | string value => quote value.toList
  | array [] => ['[', ']']
  | array (item :: items) => '[' :: item.print ++ printItems items
  | object [] => ['\x7b', '\x7d']
  | object ((key, value) :: entries) =>
    '\x7b' :: quote key.toList ++ ':' :: value.print ++ printEntries entries

/-- The items after the first, and the closing bracket. -/
def printItems : List Json → List Char
  | [] => [']']
  | item :: items => ',' :: item.print ++ printItems items

/-- The entries after the first, and the closing brace. -/
def printEntries : List (String × Json) → List Char
  | [] => ['\x7d']
  | (key, value) :: entries =>
    ',' :: quote key.toList ++ ':' :: value.print ++ printEntries entries

end

def text (json : Json) : String := String.ofList json.print

end StepRunner.Json
