import StepRunner.Json.Misfit

namespace StepRunner.Json

def asString : Json → Except Misfit String
  | string value => .ok value
  | json => misfit json "a string"

def asBool : Json → Except Misfit Bool
  | bool value => .ok value
  | json => misfit json "a boolean"

def asInt64 : Json → Except Misfit Int64
  | integer value =>
    if Int64.minValue.toInt ≤ value ∧ value ≤ Int64.maxValue.toInt then .ok (.ofInt value)
    else .error (.outOfRange value "i64")
  | json => misfit json "i64"

/-- `expected` is what error texts call the type. -/
def asUInt64 (expected : String) : Json → Except Misfit UInt64
  | integer value =>
    if 0 ≤ value ∧ value < UInt64.size then .ok (.ofNat value.toNat)
    else .error (.outOfRange value expected)
  | json => misfit json expected

def asStrings : Json → Except Misfit (List String)
  | array items => items.mapM asString
  | json => misfit json "a sequence"

def asOption {α : Type} (read : Json → Except Misfit α) : Json → Except Misfit (Option α)
  | null => .ok none
  | json => some <$> read json

/-- The name of a field, and what its value must be like. -/
structure FieldRule where
  name : String
  check : Json → Except Misfit Unit

/-- The fields of a record in order, and the value they make up when all present ones fit. -/
structure Record (α : Type) where
  rules : List FieldRule
  build : (String → Option Json) → Except Misfit α

namespace Record

def pure {α : Type} (value : α) : Record α := ⟨[], fun _ => .ok value⟩

/-- A record with one more field. -/
def and {α β : Type} (record : Record (α → β)) (name : String) (read : Json → Except Misfit α)
    (absent : Except Misfit α) : Record β :=
  ⟨record.rules ++ [⟨name, fun json => read json *> .ok ()⟩], fun field? => do
    let make ← record.build field?
    let value ← match field? name with
      | some json => read json
      | none => absent
    .ok (make value)⟩

def required {α β : Type} (record : Record (α → β)) (name : String)
    (read : Json → Except Misfit α) : Record β :=
  record.and name read (.error (.missingField name))

def defaulting {α β : Type} (record : Record (α → β)) (name : String)
    (read : Json → Except Misfit α) (value : α) : Record β :=
  record.and name read (.ok value)

def rule? {α : Type} (record : Record α) (name : String) : Option FieldRule :=
  record.rules.find? (·.name = name)

/-- Reads the entries of an object one by one; `seen` are the fields met so far. -/
def checkEntries {α : Type} (record : Record α) :
    (seen : List String) → List (String × Json) → Except Misfit Unit
  | _, [] => .ok ()
  | seen, (key, value) :: entries =>
    match record.rule? key with
    | none => record.checkEntries seen entries
    | some rule =>
      if key ∈ seen then .error (.duplicateField key)
      else do
        rule.check value
        record.checkEntries (key :: seen) entries

def ofEntries {α : Type} (record : Record α) (entries : List (String × Json)) : Except Misfit α := do
  record.checkEntries [] entries
  record.build fun name => entries.lookup name

end Record

/-- Error texts tell a value of its own from one in the payload of a message. -/
inductive Place where
  | alone
  | inPayload
  deriving DecidableEq, Repr

def elements (n : Nat) : String := if n = 1 then "1 element" else s!"{n} elements"

namespace Record

def tooLong (place : Place) (size length : Nat) : Misfit :=
  .badLength length (match place with
    | .alone => "fewer elements in array"
    | .inPayload => elements size ++ " in sequence")

def ofItems {α : Type} (record : Record α) (place : Place) (name : String) (items : List Json) :
    Except Misfit α := do
  let size := record.rules.length
  let entries := (record.rules.map (·.name)).zip items
  record.checkEntries [] entries
  match record.build fun name => entries.lookup name with
  | .error _ =>
    .error (.badLength items.length s!"struct {name} with {elements size}")
  | .ok value => if size < items.length then .error (tooLong place size items.length) else .ok value

/-- `name` is what error texts call the record. -/
def read {α : Type} (record : Record α) (place : Place) (name : String) : Json → Except Misfit α
  | object entries => record.ofEntries entries
  | array items => record.ofItems place name items
  | json => misfit json s!"struct {name}"

end Record

end StepRunner.Json
