/-
Binary floating-point numbers of 64 bits, between decimal text and back.

A finite number is a significand times a power of two. `ofDecimal` rounds a decimal to the nearest such number, a tie
to the even significand. `shortest` goes back: it tries 1, 2, … 17 digits and takes the first decimal that rounds to
the number again; of two the nearer one, and of two as near the larger one. Both work in exact arithmetic on natural
numbers.
-/
namespace CallPlan

inductive Binary64 where
  /-- `significand * 2 ^ exponent`, with at most 53 bits and an exponent of at least -1074 -/
  | finite (negative : Bool) (significand : Nat) (exponent : Int)
  | infinite (negative : Bool)
  | nan
deriving DecidableEq, Repr

namespace Binary64

def leastExponent : Int := -1074

def greatestExponent : Int := 971

/-- the least significand of full length; twice that is one bit too many -/
def leastFull : Nat := 1 <<< 52

def powerOfTen (n : Nat) : Nat := Nat.pow 10 n

/-- the quotient rounded to the nearest whole number, a tie to the even one -/
def divRound (num den : Nat) : Nat :=
  let q := num / den
  let twice := 2 * (num % den)
  if twice < den then q else if twice = den then (if q % 2 = 0 then q else q + 1) else q + 1

/-- the number nearest to `num / den`, which is not zero -/
def ofRatio (negative : Bool) (num den : Nat) : Binary64 :=
  let guess : Int := (num.log2 : Int) - den.log2 - 53
  let above := num <<< (-(guess + 53)).toNat ≥ den <<< (guess + 53).toNat
  let exponent := max leastExponent (if above then guess + 1 else guess)
  let significand := divRound (num <<< (-exponent).toNat) (den <<< exponent.toNat)
  let (significand, exponent) :=
    if significand = 2 * leastFull then (leastFull, exponent + 1) else (significand, exponent)
  if greatestExponent < exponent then .infinite negative else .finite negative significand exponent

/-- the number nearest to `digits * 10 ^ exponent`; what is far out of range needs no arithmetic -/
def ofDecimal (negative : Bool) (digits : Nat) (exponent : Int) : Binary64 :=
  let magnitude := exponent + (Nat.toDigits 10 digits).length
  if digits = 0 ∨ magnitude < -330 then .finite negative 0 leastExponent
  else if 330 < magnitude then .infinite negative
  else ofRatio negative (digits * powerOfTen exponent.toNat) (powerOfTen (-exponent).toNat)

/-! ## The shortest decimal -/

/-- a decimal `digits * 10 ^ exponent` and a binary `num * 2 ^ shift`, brought to a common scale -/
def aligned (digits : Nat) (exponent : Int) (num : Nat) (shift : Int) : Nat × Nat :=
  ((digits * powerOfTen exponent.toNat) <<< (-shift).toNat, (num <<< shift.toNat) * powerOfTen (-exponent).toNat)

/-- whether the decimal rounds to `significand * 2 ^ exponent`; ends of the interval round to the even significand -/
def roundsTo (digits : Nat) (scale : Int) (significand : Nat) (exponent : Int) : Bool :=
  let below := if significand = leastFull ∧ leastExponent < exponent then 1 else 2
  let (d, low) := aligned digits scale (4 * significand - below) (exponent - 2)
  let (d', high) := aligned digits scale (4 * significand + 2) (exponent - 2)
  if significand % 2 = 0 then low ≤ d && d' ≤ high else low < d && d' < high

/-- the decimals of scale `scale` next to the number, the nearer one first, and of two as near the larger one -/
def neighbours (scale : Int) (significand : Nat) (exponent : Int) : List Nat :=
  let (unit, value) := aligned 1 scale significand exponent
  let floor := value / unit
  if 2 * (value % unit) < unit then [floor, floor + 1] else [floor + 1, floor]

/-- the number of digits in front of the decimal point, negative for leading zeros behind it -/
def integerDigits (significand : Nat) (exponent : Int) : Int :=
  let num := significand <<< exponent.toNat
  let den := 1 <<< (-exponent).toNat
  if den ≤ num then (Nat.toDigits 10 (num / den)).length
  else 1 - ((List.range 400).find? fun k => den ≤ num * powerOfTen k).getD 400

/-- the decimal with the fewest digits that rounds to the number, as digits and scale -/
def shortest (significand : Nat) (exponent : Int) : Nat × Int :=
  let digits := integerDigits significand exponent
  let attempt (n : Nat) : Option (Nat × Int) :=
    let scale := digits - n
    ((neighbours scale significand exponent).find? (roundsTo · scale significand exponent)).map (·, scale)
  ((List.range' 1 17).findSome? attempt).getD (significand, exponent)

/-! ## Text -/

/-- a decimal in positional notation, always with a fraction -/
def positional (digits : Nat) (scale : Int) : String :=
  let cs := Nat.toDigits 10 digits
  if 0 ≤ scale then String.ofList (cs ++ List.replicate scale.toNat '0') ++ ".0"
  else
    let places := (-scale).toNat
    let padded := List.replicate (places + 1 - cs.length) '0' ++ cs
    let fraction := padded.drop (padded.length - places)
    let kept := (fraction.reverse.dropWhile (· == '0')).reverse
    String.ofList (padded.take (padded.length - places)) ++ "." ++
      (if kept.isEmpty then "0" else String.ofList kept)

def render : Binary64 → String
  | .finite negative 0 _ => if negative then "-0.0" else "0.0"
  | .finite negative significand exponent =>
    let (digits, scale) := shortest significand exponent
    (if negative then "-" else "") ++ positional digits scale
  | .infinite negative => if negative then "-inf" else "inf"
  | .nan => "NaN"

end Binary64

end CallPlan
