import StepRunner.Wire.Field

namespace StepRunner.Wire

inductive Fault where
  | badVarint
  | badKey (key : Nat)
  | badWireType (number : Nat)
  | zeroTag
  | wrongWireType (found expected : WireType)
  | underflow
  | notUtf8
  | overrun
  | tooDeep
  | strayEndGroup
  deriving DecidableEq, Repr

def Fault.message : Fault → String
  | badVarint => "invalid varint"
  | badKey key => s!"invalid key value: {key}"
  | badWireType number => s!"invalid wire type value: {number}"
  | zeroTag => "invalid tag value: 0"
  | wrongWireType found expected =>
    s!"invalid wire type: {found.name} (expected {expected.name})"
  | underflow => "buffer underflow"
  | notUtf8 => "invalid string value: data is not UTF-8 encoded"
  | overrun => "delimited length exceeded"
  | tooDeep => "recursion limit reached"
  | strayEndGroup => "unexpected end group tag"

/-- The fields being read when the fault was met, innermost first. -/
structure DecodeError where
  path : List String
  fault : Fault
  deriving DecidableEq, Repr

namespace DecodeError

def within (place : String) (e : DecodeError) : DecodeError := { e with path := e.path ++ [place] }

def message (e : DecodeError) : String :=
  "failed to decode Protobuf message: " ++ String.join (e.path.map (· ++ ": ")) ++ e.fault.message

end DecodeError

end StepRunner.Wire
