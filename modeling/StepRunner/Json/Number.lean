import StepRunner.Json.Value

namespace StepRunner.Json

/-- Why a text cannot be read: it ends early, breaks the grammar, or spells another kind of value. -/
inductive TextFault where
  | endOfText
  | malformed
  | misfit
  deriving DecidableEq, Repr

structure NumberText where
  negative : Bool
  whole : List Nat
  fraction : Option (List Nat)
  exponent : Option (Bool × List Nat)
  deriving DecidableEq, Repr

def digitValue (c : Char) : Nat := c.toNat - '0'.toNat

/-- The leading digits, and what follows them. -/
def spanDigits (cs : List Char) : List Nat × List Char :=
  ((cs.takeWhile Char.isDigit).map digitValue, cs.dropWhile Char.isDigit)

/-- At least one digit. -/
def readDigits (cs : List Char) : Except TextFault (List Nat × List Char) :=
  match spanDigits cs with
  | ([], []) => .error .endOfText
  | ([], _ :: _) => .error .malformed
  | found => .ok found

/-- A whole part has no leading zeros. -/
def readWhole (cs : List Char) : Except TextFault (List Nat × List Char) := do
  match ← readDigits cs with
  | (0 :: _ :: _, _) => .error .malformed
  | found => .ok found

def readFraction (cs : List Char) : Except TextFault (Option (List Nat) × List Char) :=
  match cs with
  | '.' :: cs => do
    let (digits, rest) ← readDigits cs
    .ok (some digits, rest)
  | _ => .ok (none, cs)

def readExponent (cs : List Char) : Except TextFault (Option (Bool × List Nat) × List Char) :=
  let unsigned (negative : Bool) (cs : List Char) := do
    let (digits, rest) ← readDigits cs
    .ok (some (negative, digits), rest)
  match cs with
  | 'e' :: '-' :: cs | 'E' :: '-' :: cs => unsigned true cs
  | 'e' :: '+' :: cs | 'E' :: '+' :: cs => unsigned false cs
  | 'e' :: cs | 'E' :: cs => unsigned false cs
  | _ => .ok (none, cs)

def readNumberText (cs : List Char) : Except TextFault (NumberText × List Char) := do
  let (negative, cs) := match cs with
    | '-' :: cs => (true, cs)
    | _ => (false, cs)
  let (whole, cs) ← readWhole cs
  let (fraction, cs) ← readFraction cs
  let (exponent, cs) ← readExponent cs
  .ok (⟨negative, whole, fraction, exponent⟩, cs)

def ofDigits (digits : List Nat) : Nat := digits.foldl (fun n d => 10 * n + d) 0

/-- Digits go into the significand while it fits 64 bits; the digits left over are given back. -/
def accumulate : Nat → List Nat → Nat × List Nat
  | significand, [] => (significand, [])
  | significand, d :: ds =>
    if 10 * significand + d < UInt64.size then accumulate (10 * significand + d) ds
    else (significand, d :: ds)

def powerOfTen (n : Nat) : Float := .ofScientific 1 false n

/-- Brings an exponent up to where its power of ten is a float. -/
def raise : Nat → Float → Int → Float × Int
  | 0, x, exponent => (x, exponent)
  | n + 1, x, exponent =>
    if exponent < -308 then raise n (x / powerOfTen 308) (exponent + 308) else (x, exponent)

/-- Fails where the value is beyond the floats. -/
def scale (significand : Nat) (exponent : Int) : Except TextFault Float :=
  let (x, exponent) := raise 4 (UInt64.ofNat significand).toFloat exponent
  if 0 ≤ exponent then
    if exponent ≤ 308 then
      let scaled := x * powerOfTen exponent.toNat
      if scaled.isInf then .error .malformed else .ok scaled
    else if x == 0 then .ok x
    else .error .malformed
  else if -308 ≤ exponent then .ok (x / powerOfTen (-exponent).toNat)
  else .ok 0

namespace NumberText

def toFloat (number : NumberText) : Except TextFault Float := do
  let (significand, dropped) := accumulate 0 number.whole
  let fraction := number.fraction.getD []
  let (significand, unused) := accumulate significand fraction
  let power : Int := match number.exponent with
    | none => 0
    | some (true, digits) => -(ofDigits digits : Int)
    | some (false, digits) => ofDigits digits
  let x ← scale significand (dropped.length - (fraction.length - unused.length : Int) + power)
  .ok (if number.negative then -x else x)

def toJson (number : NumberText) : Except TextFault Json :=
  let whole := ofDigits number.whole
  if number.fraction = none ∧ number.exponent = none ∧ ¬number.negative ∧ whole < UInt64.size then
    .ok (.integer whole)
  else if number.fraction = none ∧ number.exponent = none ∧ number.negative ∧ 0 < whole ∧
      whole ≤ 0x8000000000000000 then
    .ok (.integer (-whole))
  else do .ok (.float (← number.toFloat))

end NumberText

/-- Whole numbers of 64 bits stay exact; all others, and minus zero, are floats. -/
def readNumber (cs : List Char) : Except TextFault (Json × List Char) := do
  let (number, rest) ← readNumberText cs
  .ok (← number.toJson, rest)

end StepRunner.Json
