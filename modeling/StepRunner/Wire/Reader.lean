import StepRunner.Wire.Input

namespace StepRunner.Wire

/-- What a known field holds; `S` names the layouts that bodies may have. -/
inductive Content (S : Type) where
  | varint
  | octets
  | text
  | body (shape : S)

structure Rule (S : Type) where
  tag : Nat
  name : String
  content : Content S

structure Layout (S : Type) where
  name : String
  rules : List (Rule S)

def Layout.rule? {S : Type} (layout : Layout S) (tag : Nat) : Option (Rule S) :=
  layout.rules.find? (·.tag = tag)

def depthLimit : Nat := 100

/-- Skips the fields of a group up to its end; `n` bounds their number. -/
def skipGroup (skipField : WireType → Nat → Input → Except Fault Input) (tag : Nat) :
    Nat → Input → Except Fault Input
  | 0, _ => .error .badVarint
  | n + 1, input => do
    let (inner, type, rest) ← input.readKey
    if type = .endGroup then
      if inner = tag then .ok rest else .error .strayEndGroup
    else skipGroup skipField tag n (← skipField type inner rest)

/-- Skips the content of an unknown field. -/
def skip : Nat → WireType → Nat → Input → Except Fault Input
  | 0, _, _, _ => .error .tooDeep
  | _ + 1, .varint, _, input => do .ok (← input.readVarint).2
  | _ + 1, .sixtyFourBit, _, input => input.skip 8
  | _ + 1, .thirtyTwoBit, _, input => input.skip 4
  | _ + 1, .lengthDelimited, _, input => do .ok (← input.readDelimited).2
  | depth + 1, .startGroup, tag, input => skipGroup (skip depth) tag input.size input
  | _ + 1, .endGroup, _, _ => .error .strayEndGroup

/-- Reads one field, or skips one that is not known. -/
abbrev FieldReader := Input → Except DecodeError (Option Field × Input)

/-- Reads fields until at most `stop` bytes are left; `n` bounds their number. -/
def readFields (readField : FieldReader) (stop : Nat) :
    Nat → Input → Except DecodeError (List Field × Input)
  | 0, input => .ok ([], input)
  | n + 1, input =>
    if input.size ≤ stop then .ok ([], input)
    else do
      let (field, rest) ← readField input
      let (fields, rest) ← readFields readField stop n rest
      .ok (field.toList ++ fields, rest)

/-- Reads a body: its length is checked against all the bytes left, and its fields have to end
where it says. -/
def readBody (readField : FieldReader) (input : Input) :
    Except DecodeError (List Field × Input) := do
  let (length, rest) ← input.readVarint.mapError (⟨[], ·⟩)
  if rest.size < length then .error ⟨[], .underflow⟩
  else do
    let stop := rest.size - length
    let (fields, rest) ← readFields readField stop rest.size rest
    if rest.size = stop then .ok (fields, rest) else .error ⟨[], .overrun⟩

def require (found expected : WireType) : Except Fault Unit :=
  if found = expected then .ok () else .error (.wrongWireType found expected)

/-- Reads the content of a known field. `enter?` reads a field one level down, and is absent where
no level is left. -/
def readContent {S : Type} (enter? : Option (S → FieldReader)) (tag : Nat) (type : WireType)
    (input : Input) : Content S → Except DecodeError (Field × Input)
  | .varint => Except.mapError (⟨[], ·⟩) do
    require type .varint
    let (value, rest) ← input.readVarint
    .ok (.varint tag value, rest)
  | .octets => Except.mapError (⟨[], ·⟩) do
    require type .lengthDelimited
    let (value, rest) ← input.readDelimited
    .ok (.octets tag value, rest)
  | .text => Except.mapError (⟨[], ·⟩) do
    require type .lengthDelimited
    let (value, rest) ← input.readDelimited
    match Utf8.decode? value with
    | some text => .ok (.text tag text, rest)
    | none => .error .notUtf8
  | .body shape => do
    Except.mapError (⟨[], ·⟩) (require type .lengthDelimited)
    match enter? with
    | none => .error ⟨[], .tooDeep⟩
    | some enter => do
      let (body, rest) ← readBody (enter shape) input
      .ok (.message tag body, rest)

/-- Reads one field of a layout, or skips one that the layout does not know. -/
def readFieldOf {S : Type} (layout : Layout S) (depth : Nat) (enter? : Option (S → FieldReader)) :
    FieldReader := fun input => do
  let (tag, type, rest) ← input.readKey.mapError (⟨[], ·⟩)
  match layout.rule? tag with
  | none => do
    let rest ← (skip depth type tag rest).mapError (⟨[], ·⟩)
    .ok (none, rest)
  | some rule => do
    let (field, rest) ← (readContent enter? tag type rest rule.content).mapError
      (·.within s!"{layout.name}.{rule.name}")
    .ok (some field, rest)

def readField {S : Type} (layouts : S → Layout S) : Nat → S → FieldReader
  | 0, shape => readFieldOf (layouts shape) 0 none
  | depth + 1, shape => readFieldOf (layouts shape) (depth + 1) (some (readField layouts depth))

def decode {S : Type} (layouts : S → Layout S) (shape : S) (bytes : Bytes) :
    Except DecodeError (List Field) := do
  let (fields, _) ← readFields (readField layouts depthLimit shape) 0 bytes.length (.ofBytes bytes)
  .ok fields

end StepRunner.Wire
