import StepRunner.Json.Value
import StepRunner.Decimal.Shortest
import StepRunner.Text.Quoted

namespace StepRunner.Json

inductive Misfit where
  | wrongType (found expected : String)
  | outOfRange (found : Int) (expected : String)
  | missingField (name : String)
  | duplicateField (name : String)
  | badLength (length : Nat) (expected : String)
  | unknownVariant (name : String) (expected : List String)
  | notOneKey
  | noPayload
  | other (reason : String)
  deriving DecidableEq, Repr

namespace Misfit

def message : Misfit → String
  | wrongType found expected => s!"invalid type: {found}, expected {expected}"
  | outOfRange found expected =>
    "invalid value: integer " ++ Text.backticks (toString found) ++ s!", expected {expected}"
  | missingField name => "missing field " ++ Text.backticks name
  | duplicateField name => "duplicate field " ++ Text.backticks name
  | badLength length expected => s!"invalid length {length}, expected {expected}"
  | unknownVariant name expected =>
    "unknown variant " ++ Text.backticks name ++ ", expected one of " ++
      String.intercalate ", " (expected.map Text.backticks)
  | notOneKey => "invalid value: map, expected map with a single key"
  | noPayload => "no variant of enum Payload found in flattened data"
  | other reason => reason

end Misfit

/-- What a value is called where another was expected. -/
def describe : Json → String
  | null => "null"
  | bool value => "boolean " ++ Text.backticks (if value then "true" else "false")
  | integer value => "integer " ++ Text.backticks (toString value)
  | float value => "floating point " ++ Text.backticks (Decimal.floatText value)
  | string value => "string " ++ Text.quoted value
  | array _ => "sequence"
  | object _ => "map"

def misfit {α : Type} (found : Json) (expected : String) : Except Misfit α :=
  .error (.wrongType found.describe expected)

end StepRunner.Json
