import StepRunner.Bytes

namespace StepRunner.Base64

def alphabet : List Char :=
  "ABCDEFGHIJKLMNOPQRSTUVWXYZabcdefghijklmnopqrstuvwxyz0123456789+/".toList

def symbol (n : Nat) : Char := alphabet.getD n 'A'

def encode : Bytes → List Char
  | [] => []
  | [a] =>
    let n := a.toNat
    [symbol (n / 4), symbol (n % 4 * 16), '=', '=']
  | [a, b] =>
    let n := 256 * a.toNat + b.toNat
    [symbol (n / 1024), symbol (n / 16 % 64), symbol (n % 16 * 4), '=']
  | a :: b :: c :: rest =>
    let n := 65536 * a.toNat + 256 * b.toNat + c.toNat
    symbol (n / 262144) :: symbol (n / 4096 % 64) :: symbol (n / 64 % 64) :: symbol (n % 64) ::
      encode rest

/-- Positions count the bytes of the text. -/
inductive Fault where
  | badSymbol (symbol position : Nat)
  | badLength (length : Nat)
  | badLastSymbol (symbol position : Nat)
  | badPadding
  deriving DecidableEq, Repr

def Fault.message : Fault → String
  | badSymbol symbol position => s!"Invalid symbol {symbol}, offset {position}."
  | badLength length => s!"Invalid input length: {length}"
  | badLastSymbol symbol position => s!"Invalid last symbol {symbol}, offset {position}."
  | badPadding => "Invalid padding"

/-- The six bits that a byte of the text stands for. -/
def value? (b : UInt8) : Option Nat :=
  let n := b.toNat
  if 65 ≤ n ∧ n ≤ 90 then some (n - 65)
  else if 97 ≤ n ∧ n ≤ 122 then some (n - 71)
  else if 48 ≤ n ∧ n ≤ 57 then some (n + 4)
  else if n = 43 then some 62
  else if n = 47 then some 63
  else none

def pad : UInt8 := 61

/-- The bytes of whole quads, of which the first starts at `position`. -/
def decodeQuads (position : Nat) : Bytes → Except Fault Bytes
  | a :: b :: c :: d :: rest => do
    let a ← sextet position a
    let b ← sextet (position + 1) b
    let c ← sextet (position + 2) c
    let d ← sextet (position + 3) d
    let n := 262144 * a + 4096 * b + 64 * c + d
    let decoded ← decodeQuads (position + 4) rest
    .ok (.ofNat (n / 65536) :: .ofNat (n / 256) :: .ofNat n :: decoded)
  | _ => .ok []
where
  sextet (position : Nat) (b : UInt8) : Except Fault Nat :=
    match value? b with
    | some n => .ok n
    | none => .error (.badSymbol b.toNat position)

/-- The last quad's symbols with their values, and the number of pads after them. -/
def readLast (start : Nat) :
    (index : Nat) → (firstPad : Option Nat) → Bytes → Except Fault (List (UInt8 × Nat) × Nat)
  | _, _, [] => .ok ([], 0)
  | index, firstPad, b :: rest =>
    if b = pad then
      if index < 2 then .error (.badSymbol pad.toNat (start + index))
      else do
        let (symbols, pads) ← readLast start (index + 1) (firstPad.or (some index)) rest
        .ok (symbols, pads + 1)
    else
      match firstPad with
      | some first => .error (.badSymbol pad.toNat (start + first))
      | none =>
        match value? b with
        | none => .error (.badSymbol b.toNat (start + index))
        | some n => do
          let (symbols, pads) ← readLast start (index + 1) none rest
          .ok ((b, n) :: symbols, pads)

/-- The bytes of the last quad, which starts at `start`. -/
def decodeLast (start : Nat) (quad : Bytes) : Except Fault Bytes := do
  let (symbols, pads) ← readLast start 0 none quad
  if symbols.length < 2 then .error (.badLength (start + symbols.length))
  else if (symbols.length + pads) % 4 ≠ 0 then .error .badPadding
  else match symbols with
    | [(_, a), (b, n)] =>
      if n % 16 = 0 then .ok [.ofNat (4 * a + n / 16)]
      else .error (.badLastSymbol b.toNat (start + 1))
    | [(_, a), (_, b), (c, n)] =>
      if n % 4 = 0 then .ok [.ofNat (4 * a + b / 16), .ofNat (16 * b + n / 4)]
      else .error (.badLastSymbol c.toNat (start + 2))
    | [(_, a), (_, b), (_, c), (_, d)] =>
      .ok [.ofNat (4 * a + b / 16), .ofNat (16 * b + c / 4), .ofNat (64 * c + d)]
    | _ => .error .badPadding

/-- Reads the bytes of a text. A fifth, ninth, … last byte that is no symbol at all is noticed
before anything else. -/
def decode (text : Bytes) : Except Fault Bytes :=
  if text.isEmpty then .ok []
  else
    let stray := if text.length % 4 = 1 then text.getLast?.filter fun b => b ≠ pad ∧ value? b = none
      else none
    match stray with
    | some b => .error (.badSymbol b.toNat (text.length - 1))
    | none => do
      let start := (text.length - 1) / 4 * 4
      let whole ← decodeQuads 0 (text.take start)
      let last ← decodeLast start (text.drop start)
      .ok (whole ++ last)

end StepRunner.Base64
