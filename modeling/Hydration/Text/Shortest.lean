/-! The shortest decimal text that reads back as a given double. Among the decimals with the fewest
digits the one nearest to the value is written. -/

namespace Hydration.Text

/-- A positive double as `mantissa * 2 ^ exponent`. -/
structure Dyadic where
  mantissa : Nat
  exponent : Int
  /-- The double below is only half as far away as the one above. -/
  lowEdge : Bool
deriving Repr, DecidableEq

/-- The fraction of a double takes 52 bits, and its exponent the eleven above. -/
def fractionLimit : Nat := 0x10000000000000

def exponentLimit : Nat := 0x800

/-- The value of the bit above both, which holds the sign. -/
def signBit : Nat := 0x8000000000000000

def Dyadic.ofBits (bits : Nat) : Dyadic :=
  let fraction := bits % fractionLimit
  let field := bits / fractionLimit % exponentLimit
  if field = 0 then ⟨fraction, -1074, false⟩
  else ⟨fraction + fractionLimit, Int.ofNat field - 1075, fraction == 0 && field != 1⟩

def scaleBy (base : Nat) (power : Int) (num den : Nat) : Nat × Nat :=
  let factor := Nat.pow base power.natAbs
  if power < 0 then (num, den * factor) else (num * factor, den)

/-- The number of steps of ten that bring a fraction below one up to one. -/
def stepsToOne : Nat → Nat → Nat → Nat
  | 0, _, _ => 0
  | fuel + 1, num, den => if num ≥ den then 0 else stepsToOne fuel (num * 10) den + 1

def leadingPower (num den : Nat) : Int :=
  if num ≥ den then ((Nat.toDigits 10 (num / den)).length : Int) - 1
  else -(stepsToOne 400 num den : Int)

/-- The bounds are four times the value's; `inclusive` tells whether they belong to it. -/
structure Interval where
  low : Nat
  value : Nat
  high : Nat
  den : Nat
  inclusive : Bool

def Interval.holds (i : Interval) (num den : Nat) : Bool :=
  let x := num * i.den
  if i.inclusive then i.low * den ≤ x && x ≤ i.high * den else i.low * den < x && x < i.high * den

def Dyadic.interval (d : Dyadic) : Interval :=
  let (unit, den) := scaleBy 2 d.exponent 1 1
  { low := (4 * d.mantissa - (if d.lowEdge then 1 else 2)) * unit
    value := 4 * d.mantissa * unit
    high := (4 * d.mantissa + 2) * unit
    den, inclusive := d.mantissa % 2 == 0 }

/-- The decimal with a last digit at the given power that reads back, if there is one. -/
def Interval.atPower (i : Interval) (power : Int) : Option Nat :=
  let (num, den) := scaleBy 10 (-power) i.value (4 * i.den)
  let below := num / den
  let hits (k : Nat) : Bool :=
    let (x, y) := scaleBy 10 power (4 * k) 1
    i.holds x y
  match hits below, hits (below + 1) with
  | true, true => some (if 2 * (num % den) ≤ den then below else below + 1)
  | true, false => some below
  | false, true => some (below + 1)
  | false, false => none

def Interval.search (i : Interval) : Nat → Int → Nat × Int
  | 0, power => ((i.atPower power).getD 0, power)
  | fuel + 1, power =>
    match i.atPower power with
    | some digits => (digits, power)
    | none => i.search fuel (power - 1)

def Dyadic.shortest (d : Dyadic) : List Char × Int :=
  let i := d.interval
  let (digits, power) := i.search 17 (leadingPower i.value (4 * i.den))
  let digits := Nat.toDigits 10 digits
  let point := (digits.length : Int) + power
  ((digits.reverse.dropWhile (· == '0')).reverse, point)

def zeros (n : Nat) : List Char := List.replicate n '0'

/-- Positional from a ten-thousandth up to sixteen digits, with an exponent otherwise. -/
def decimalText (digits : List Char) (point : Int) : List Char :=
  if -4 < point ∧ point ≤ 16 then
    if point ≤ 0 then '0' :: '.' :: zeros point.natAbs ++ digits
    else if digits.length ≤ point.natAbs then
      digits ++ zeros (point.natAbs - digits.length) ++ ['.', '0']
    else digits.take point.natAbs ++ '.' :: digits.drop point.natAbs
  else
    let power := Nat.toDigits 10 (point - 1).natAbs
    let power := if power.length < 2 then '0' :: power else power
    let tail := if digits.length > 1 then '.' :: digits.drop 1 else []
    digits.take 1 ++ tail ++ 'e' :: (if point < 1 then '-' else '+') :: power

def shortestText (x : Float) : String :=
  if x.isNaN then "nan"
  else if x.isInf then (if x < 0 then "-inf" else "inf")
  else
    let bits := x.toBits.toNat
    let sign := if bits ≥ signBit then "-" else ""
    let d := Dyadic.ofBits (bits % signBit)
    if d.mantissa = 0 then sign ++ "0.0"
    else sign ++ String.ofList (decimalText d.shortest.1 d.shortest.2)

end Hydration.Text
