import StepRunner.Bytes.Varint
import StepRunner.Wire.Error

namespace StepRunner.Wire

structure Input where
  bytes : Bytes
  size : Nat
  size_eq : size = bytes.length

namespace Input

def ofBytes (bytes : Bytes) : Input := ⟨bytes, bytes.length, rfl⟩

def drop (n : Nat) (input : Input) : Input :=
  ⟨input.bytes.drop n, input.size - n, by rw [input.size_eq, List.length_drop]⟩

def skip (n : Nat) (input : Input) : Except Fault Input :=
  if input.size < n then .error .underflow else .ok (input.drop n)

def readVarint (input : Input) : Except Fault (Nat × Input) :=
  match Varint.decode input.bytes with
  | some (value, taken) => .ok (value, input.drop taken)
  | none => .error .badVarint

def readKey (input : Input) : Except Fault (Nat × WireType × Input) := do
  let (key, rest) ← input.readVarint
  if UInt32.size ≤ key then .error (.badKey key)
  else match WireType.ofNumber? (key % 8) with
    | none => .error (.badWireType (key % 8))
    | some type => if key / 8 = 0 then .error .zeroTag else .ok (key / 8, type, rest)

def readDelimited (input : Input) : Except Fault (Bytes × Input) := do
  let (length, rest) ← input.readVarint
  if rest.size < length then .error .underflow else .ok (rest.bytes.take length, rest.drop length)

end Input

end StepRunner.Wire
