import StepRunner.Json.Number

namespace StepRunner.Json

def depthLimit : Nat := 127

def isBlank (c : Char) : Bool := c = ' ' || c = '\t' || c = '\n' || c = '\r'

def skipBlanks (cs : List Char) : List Char := cs.dropWhile isBlank

def hexValue? (c : Char) : Option Nat :=
  if '0' ≤ c ∧ c ≤ '9' then some (c.toNat - '0'.toNat)
  else if 'a' ≤ c ∧ c ≤ 'f' then some (c.toNat - 'a'.toNat + 10)
  else if 'A' ≤ c ∧ c ≤ 'F' then some (c.toNat - 'A'.toNat + 10)
  else none

/-- Four hexadecimal digits; fewer than four bytes are the end of the text, whatever they are. -/
def readHex (cs : List Char) : Except TextFault (Nat × List Char) :=
  if (String.ofList (cs.take 4)).utf8ByteSize < 4 then .error .endOfText
  else match cs with
    | a :: b :: c :: d :: rest =>
      match hexValue? a, hexValue? b, hexValue? c, hexValue? d with
      | some a, some b, some c, some d => .ok (16 * (16 * (16 * a + b) + c) + d, rest)
      | _, _, _, _ => .error .malformed
    | _ => .error .malformed

/-- The second half of a character that takes two escapes. -/
def readLowSurrogate (high : Nat) (cs : List Char) : Except TextFault (Char × List Char) :=
  match cs with
  | [] | ['\\'] => .error .endOfText
  | '\\' :: 'u' :: cs => do
    let (low, rest) ← readHex cs
    if 0xDC00 ≤ low ∧ low ≤ 0xDFFF then
      .ok (.ofNat (0x10000 + 0x400 * (high - 0xD800) + (low - 0xDC00)), rest)
    else .error .malformed
  | _ => .error .malformed

/-- The character that an escape stands for, after its backslash. -/
def readEscape (cs : List Char) : Except TextFault (Char × List Char) :=
  match cs with
  | [] => .error .endOfText
  | '"' :: rest => .ok ('"', rest)
  | '\\' :: rest => .ok ('\\', rest)
  | '/' :: rest => .ok ('/', rest)
  | 'b' :: rest => .ok ('\x08', rest)
  | 'f' :: rest => .ok ('\x0c', rest)
  | 'n' :: rest => .ok ('\n', rest)
  | 'r' :: rest => .ok ('\r', rest)
  | 't' :: rest => .ok ('\t', rest)
  | 'u' :: rest => do
    let (code, rest) ← readHex rest
    if 0xD800 ≤ code ∧ code ≤ 0xDBFF then readLowSurrogate code rest
    else if 0xDC00 ≤ code ∧ code ≤ 0xDFFF then .error .malformed
    else .ok (.ofNat code, rest)
  | _ :: _ => .error .malformed

/-- The characters up to the closing quote. -/
def readStringBody : (bound : List Char) → List Char → Except TextFault (List Char × List Char)
  | [], _ => .error .endOfText
  | _ :: _, [] => .error .endOfText
  | _ :: bound, c :: cs =>
    if c = '"' then .ok ([], cs)
    else if c = '\\' then do
      let (c, rest) ← readEscape cs
      let (text, rest) ← readStringBody bound rest
      .ok (c :: text, rest)
    else if c.toNat < 32 then .error .malformed
    else do
      let (text, rest) ← readStringBody bound cs
      .ok (c :: text, rest)

/-- A string, after its opening quote. -/
def readString (cs : List Char) : Except TextFault (String × List Char) := do
  let (text, rest) ← readStringBody ('"' :: cs) cs
  .ok (String.ofList text, rest)

/-- The rest of a word of which the first letter has been seen. -/
def readWord : List Char → List Char → Except TextFault (List Char)
  | [], cs => .ok cs
  | _ :: _, [] => .error .endOfText
  | w :: word, c :: cs => if c = w then readWord word cs else .error .malformed

/-- The items after one that has been read. -/
def readMoreItems (readItem : List Char → Except TextFault (Json × List Char)) :
    (bound : List Char) → List Char → Except TextFault (List Json × List Char)
  | [], _ => .error .endOfText
  | _ :: bound, cs =>
    match skipBlanks cs with
    | [] => .error .endOfText
    | ']' :: rest => .ok ([], rest)
    | ',' :: rest => do
      let (item, rest) ← readItem rest
      let (items, rest) ← readMoreItems readItem bound rest
      .ok (item :: items, rest)
    | _ :: _ => .error .malformed

def readItems (readItem : List Char → Except TextFault (Json × List Char)) (cs : List Char) :
    Except TextFault (List Json × List Char) :=
  match skipBlanks cs with
  | ']' :: rest => .ok ([], rest)
  | _ => do
    let (item, rest) ← readItem cs
    let (items, rest) ← readMoreItems readItem rest rest
    .ok (item :: items, rest)

def readKey (cs : List Char) : Except TextFault (String × List Char) :=
  match skipBlanks cs with
  | [] => .error .endOfText
  | '"' :: rest => readString rest
  | _ :: _ => .error .malformed

def readColon (cs : List Char) : Except TextFault (List Char) :=
  match skipBlanks cs with
  | [] => .error .endOfText
  | ':' :: rest => .ok rest
  | _ :: _ => .error .malformed

section Members

variable {σ α : Type} (entry : σ → String → List Char → Except TextFault (α × σ × List Char))

/-- The entries after one that has been read. -/
def readMoreMembers : (bound : List Char) → σ → List Char → Except TextFault (List α × List Char)
  | [], _, _ => .error .endOfText
  | _ :: bound, memory, cs =>
    match skipBlanks cs with
    | [] => .error .endOfText
    | '\x7d' :: rest => .ok ([], rest)
    | ',' :: rest => do
      let (key, rest) ← readKey rest
      let (member, memory, rest) ← entry memory key rest
      let (members, rest) ← readMoreMembers bound memory rest
      .ok (member :: members, rest)
    | _ :: _ => .error .malformed

/-- An object, after its opening brace. -/
def readMembers (memory : σ) (cs : List Char) : Except TextFault (List α × List Char) :=
  match skipBlanks cs with
  | '\x7d' :: rest => .ok ([], rest)
  | _ => do
    let (key, rest) ← readKey cs
    let (member, memory, rest) ← entry memory key rest
    let (members, rest) ← readMoreMembers entry rest memory rest
    .ok (member :: members, rest)

end Members

def readEntry (readItem : List Char → Except TextFault (Json × List Char)) (key : String)
    (cs : List Char) : Except TextFault ((String × Json) × List Char) := do
  let (value, rest) ← readItem (← readColon cs)
  .ok ((key, value), rest)

/-- A value whose arrays and objects hold values read by `inner?`, which is absent where no level
is left. -/
def readValueOf (inner? : Option (List Char → Except TextFault (Json × List Char)))
    (cs : List Char) : Except TextFault (Json × List Char) :=
  match skipBlanks cs with
  | [] => .error .endOfText
  | 'n' :: rest => do .ok (null, ← readWord ['u', 'l', 'l'] rest)
  | 't' :: rest => do .ok (bool true, ← readWord ['r', 'u', 'e'] rest)
  | 'f' :: rest => do .ok (bool false, ← readWord ['a', 'l', 's', 'e'] rest)
  | '"' :: rest => do
    let (value, rest) ← readString rest
    .ok (string value, rest)
  | '[' :: rest =>
    match inner? with
    | none => .error .malformed
    | some inner => do
      let (items, rest) ← readItems inner rest
      .ok (array items, rest)
  | '\x7b' :: rest =>
    match inner? with
    | none => .error .malformed
    | some inner => do
      let entry (_ : Unit) key cs := do
        let (member, rest) ← readEntry inner key cs
        .ok (member, (), rest)
      let (entries, rest) ← readMembers entry () rest
      .ok (object entries, rest)
  | c :: rest => if c = '-' ∨ c.isDigit then readNumber (c :: rest) else .error .malformed

def readValue : Nat → List Char → Except TextFault (Json × List Char)
  | 0 => readValueOf none
  | depth + 1 => readValueOf (some (readValue depth))

/-- Nothing but blanks may follow a value. -/
def finish (cs : List Char) : Except TextFault Unit :=
  if skipBlanks cs = [] then .ok () else .error .malformed

def parse (text : String) : Except TextFault Json := do
  let (value, rest) ← readValue depthLimit text.toList
  finish rest
  .ok value

end StepRunner.Json
