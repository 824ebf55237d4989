import StepRunner.Bytes.Varint
import StepRunner.Text.Utf8

namespace StepRunner.Wire

inductive WireType where
  | varint
  | sixtyFourBit
  | lengthDelimited
  | startGroup
  | endGroup
  | thirtyTwoBit
  deriving DecidableEq, Repr

namespace WireType

def number : WireType → Nat
  | varint => 0
  | sixtyFourBit => 1
  | lengthDelimited => 2
  | startGroup => 3
  | endGroup => 4
  | thirtyTwoBit => 5

def ofNumber? : Nat → Option WireType
  | 0 => some varint
  | 1 => some sixtyFourBit
  | 2 => some lengthDelimited
  | 3 => some startGroup
  | 4 => some endGroup
  | 5 => some thirtyTwoBit
  | _ => none

def name : WireType → String
  | varint => "Varint"
  | sixtyFourBit => "SixtyFourBit"
  | lengthDelimited => "LengthDelimited"
  | startGroup => "StartGroup"
  | endGroup => "EndGroup"
  | thirtyTwoBit => "ThirtyTwoBit"

theorem ofNumber?_number (type : WireType) : ofNumber? type.number = some type := by
  cases type <;> rfl

end WireType

/-- One occurrence of a known field. -/
inductive Field where
  | varint (tag : Nat) (value : Nat)
  | octets (tag : Nat) (value : Bytes)
  | text (tag : Nat) (value : String)
  | message (tag : Nat) (body : List Field)

namespace Field

def tag : Field → Nat
  | varint tag _ | octets tag _ | text tag _ | message tag _ => tag

def varintAt (tag : Nat) : Field → Option Nat
  | varint t value => if t = tag then some value else none
  | _ => none

def octetsAt (tag : Nat) : Field → Option Bytes
  | octets t value => if t = tag then some value else none
  | _ => none

def textAt (tag : Nat) : Field → Option String
  | text t value => if t = tag then some value else none
  | _ => none

def bodyAt (tag : Nat) : Field → Option (List Field)
  | message t body => if t = tag then some body else none
  | _ => none

end Field

def varint? (tag : Nat) (fields : List Field) : Option Nat :=
  (fields.filterMap (Field.varintAt tag)).getLast?

def octets? (tag : Nat) (fields : List Field) : Option Bytes :=
  (fields.filterMap (Field.octetsAt tag)).getLast?

def text? (tag : Nat) (fields : List Field) : Option String :=
  (fields.filterMap (Field.textAt tag)).getLast?

def texts (tag : Nat) (fields : List Field) : List String :=
  fields.filterMap (Field.textAt tag)

def bodies (tag : Nat) (fields : List Field) : List (List Field) :=
  fields.filterMap (Field.bodyAt tag)

def body? (tag : Nat) (fields : List Field) : Option (List Field) :=
  match bodies tag fields with
  | [] => none
  | found => some found.flatten

def flag? (tag : Nat) (fields : List Field) : Option Bool :=
  (varint? tag fields).map (· != 0)

def flag (tag : Nat) (value : Bool) : Field := .varint tag value.toNat

def optionalText (tag : Nat) (value : Option String) : List Field := value.toList.map (.text tag)

def key (tag : Nat) (type : WireType) : Bytes := Varint.encode (8 * tag + type.number)

def delimited (content : Bytes) : Bytes := Varint.encode content.length ++ content

mutual

def Field.encode : Field → Bytes
  | .varint tag value => key tag .varint ++ Varint.encode value
  | .octets tag value => key tag .lengthDelimited ++ delimited value
  | .text tag value => key tag .lengthDelimited ++ delimited (Utf8.encode value)
  | .message tag body => key tag .lengthDelimited ++ delimited (encode body)

def encode : List Field → Bytes
  | [] => []
  | field :: fields => field.encode ++ encode fields

end

theorem encode_append (a b : List Field) : encode (a ++ b) = encode a ++ encode b := by
  induction a with
  | nil => simp [encode]
  | cons field fields ih => simp [encode, ih]

end StepRunner.Wire
