import StepRunner.Message.JsonForm

namespace StepRunner.Message

open Json (TextFault)

/-- What is wrong with a value of the wrong kind, read as far as it takes to name it. -/
def faultOf (cs : List Char) : TextFault :=
  let after {α : Type} (result : Except TextFault α) : TextFault :=
    match result with
    | .ok _ => .misfit
    | .error fault => fault
  match cs with
  | [] => .endOfText
  | 'n' :: rest => after (Json.readWord ['u', 'l', 'l'] rest)
  | 't' :: rest => after (Json.readWord ['r', 'u', 'e'] rest)
  | 'f' :: rest => after (Json.readWord ['a', 'l', 's', 'e'] rest)
  | '"' :: rest => after (Json.readString rest)
  | '[' :: _ | '\x7b' :: _ => .misfit
  | c :: rest => if c = '-' ∨ c.isDigit then after (Json.readNumber (c :: rest)) else .malformed

def fit {α : Type} (result : Except Json.Misfit α) : Except TextFault α :=
  result.mapError fun _ => .misfit

def readId (cs : List Char) : Except TextFault (Json × List Char) :=
  match Json.skipBlanks cs with
  | c :: rest =>
    if c = '-' ∨ c.isDigit then do
      let (value, rest) ← Json.readNumber (c :: rest)
      let _ ← fit (Json.asInt64 value)
      .ok (value, rest)
    else .error (faultOf (c :: rest))
  | [] => .error .endOfText

def readTypeName (cs : List Char) : Except TextFault (String × List Char) := do
  let (name, rest) ← Json.readKey cs
  let _ ← fit (MessageType.ofName name)
  .ok (name, rest)

def readNull (cs : List Char) : Except TextFault (List Char) :=
  match cs with
  | 'n' :: rest => Json.readWord ['u', 'l', 'l'] rest
  | _ => .error (faultOf cs)

/-- A type is its name, or an object with null under its name. -/
def readType (cs : List Char) : Except TextFault (Json × List Char) :=
  match Json.skipBlanks cs with
  | '\x7b' :: rest => do
    let (name, rest) ← readTypeName rest
    let rest ← readNull (Json.skipBlanks (← Json.readColon rest))
    match Json.skipBlanks rest with
    | [] => .error .endOfText
    | '\x7d' :: rest => .ok (.string name, rest)
    | _ :: _ => .error .malformed
  | cs => do
    let (name, rest) ← readTypeName cs
    .ok (.string name, rest)

/-- Reads on from a key of a message; `seen` are the id and the type if they have been met. -/
def readEntry (seen : List String) (key : String) (cs : List Char) :
    Except TextFault ((String × Json) × List String × List Char) :=
  if key ∈ seen then .error .misfit
  else if key = "messageId" then do
    let (value, rest) ← readId (← Json.readColon cs)
    .ok ((key, value), key :: seen, rest)
  else if key = "messageType" then do
    let (value, rest) ← readType (← Json.readColon cs)
    .ok ((key, value), key :: seen, rest)
  else do
    let (entry, rest) ← Json.readEntry (Json.readValue (Json.depthLimit - 1)) key cs
    .ok (entry, seen, rest)

def ofText? (text : String) : Except TextFault Message :=
  match Json.skipBlanks text.toList with
  | '\x7b' :: rest => do
    let (entries, rest) ← Json.readMembers readEntry [] rest
    let message ← fit (ofEntries entries)
    Json.finish rest
    .ok message
  | cs => .error (faultOf cs)

end StepRunner.Message
