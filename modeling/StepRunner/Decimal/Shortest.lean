namespace StepRunner.Decimal

/-- A positive double: `mantissa * 2 ^ exponent`. -/
structure Double where
  mantissa : Nat
  exponent : Int
  /-- The next smaller double is only half as far away as the next larger one. -/
  atPowerOfTwo : Bool
  deriving DecidableEq, Repr

/-- The bit of a mantissa that is not stored. -/
def leadingBit : Nat := 0x10000000000000

def signBit : Nat := 0x8000000000000000

def Double.ofBits (bits : Nat) : Double :=
  let fraction := bits % leadingBit
  let exponent : Nat := bits / leadingBit % 0x800
  if exponent = 0 then ⟨fraction, -1074, false⟩
  else ⟨leadingBit + fraction, (exponent : Int) - 1075, fraction = 0 ∧ 1 < exponent⟩

def scaled (n twos tens : Nat) : Nat := n * Nat.pow 2 twos * Nat.pow 10 tens

/-- `quarters / 4 * 2 ^ exponent` against `digits * 10 ^ power`, over a common denominator. -/
def compareScaled (quarters : Nat) (exponent : Int) (digits : Nat) (power : Int) : Ordering :=
  compare (scaled quarters exponent.toNat (-power).toNat)
    (scaled (4 * digits) (-exponent).toNat power.toNat)

/-- Whether the nearest double of `digits * 10 ^ power` is `x`. -/
def readsBack (x : Double) (digits : Nat) (power : Int) : Bool :=
  let low := compareScaled (4 * x.mantissa - if x.atPowerOfTwo then 1 else 2) x.exponent digits power
  let high := compareScaled (4 * x.mantissa + 2) x.exponent digits power
  let even := x.mantissa % 2 = 0
  (low == .lt || (low == .eq && even)) && (high == .gt || (high == .eq && even))

/-- The number of digits before the point; zero or less for a value below one tenth. -/
def magnitude (x : Double) : Int :=
  let whole := scaled x.mantissa x.exponent.toNat 0 / scaled 1 (-x.exponent).toNat 0
  if 0 < whole then (Nat.toDigits 10 whole).length
  else
    let reaches (n : Nat) : Bool := scaled 1 (-x.exponent).toNat 0 ≤ scaled x.mantissa 0 (n + 1)
    .negOfNat (((List.range 400).find? reaches).getD 400)

/-- The multiple of `10 ^ power` next to `x` that reads back, the nearer one if both do. -/
def onGrid? (x : Double) (power : Int) : Option Nat :=
  let below := scaled x.mantissa x.exponent.toNat (-power).toNat /
    scaled 1 (-x.exponent).toNat power.toNat
  let above := below + 1
  match readsBack x below power, readsBack x above power with
  | true, false => some below
  | false, true => some above
  | false, false => none
  | true, true =>
    match compareScaled (8 * x.mantissa) x.exponent (below + above) power with
    | .lt => some below
    | .gt => some above
    | .eq => some (if below % 2 = 0 then below else above)

/-- The fewest digits that read back as `x`, with the power of ten that scales them. -/
def shortest (x : Double) : Nat × Int :=
  let size := magnitude x
  let found := (List.range 17).findSome? fun (n : Nat) =>
    (onGrid? x (size - (n + 1))).map fun digits => (digits, size - (n + 1 : Int))
  found.getD (x.mantissa, x.exponent)

def exponentText (n : Int) : String := if n < 0 then toString n else "+" ++ toString n

/-- Positions between the millionths and the sixteenth digit are written out, anything else with a
signed exponent. -/
def text (digits : Nat) (power : Int) : String :=
  let figures := Nat.toDigits 10 digits
  let size : Int := figures.length + power
  let zeros (n : Int) : List Char := List.replicate n.toNat '0'
  if 0 ≤ power ∧ size ≤ 16 then String.ofList (figures ++ zeros power ++ ['.', '0'])
  else if 0 < size ∧ size ≤ 16 then
    String.ofList (figures.take size.toNat ++ '.' :: figures.drop size.toNat)
  else if -5 < size ∧ size ≤ 0 then String.ofList ('0' :: '.' :: zeros (-size) ++ figures)
  else
    let fraction := if figures.length = 1 then [] else '.' :: figures.drop 1
    String.ofList (figures.take 1 ++ fraction ++ 'e' :: (exponentText (size - 1)).toList)

/-- Drops the zeros that the digits end in. -/
def trimZeros : Nat → Nat × Int → Nat × Int
  | 0, found => found
  | n + 1, (digits, power) =>
    if digits ≠ 0 ∧ digits % 10 = 0 then trimZeros n (digits / 10, power + 1) else (digits, power)

def floatText (x : Float) : String :=
  let bits := x.toBits.toNat
  let sign := if signBit ≤ bits then "-" else ""
  let magnitude := bits % signBit
  if magnitude = 0 then sign ++ "0.0"
  else
    let (digits, power) := trimZeros 20 (shortest (.ofBits magnitude))
    sign ++ text digits power

end StepRunner.Decimal
