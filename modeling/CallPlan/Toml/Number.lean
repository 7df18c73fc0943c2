/-
Numbers of TOML.

Integers are decimal with an optional sign, or hexadecimal, octal or binary behind `0x`, `0o` and `0b`, and have to
fit 64 bits. Floats have a fraction or an exponent, or are the words `inf` and `nan`; one that is too large to be
positive is refused, while its negative is minus infinity.
-/
import CallPlan.Toml.Lexical

namespace CallPlan.Toml

/-- an optional sign: whether it is a minus -/
def readSign : List Char → Bool × List Char
  | '+' :: rest => (false, rest)
  | '-' :: rest => (true, rest)
  | cs => (false, cs)

/-- the digits of a whole number without leading zeros -/
def readWhole : Reader (List Char)
  | '0' :: rest => some (['0'], rest)
  | cs => readDigits isDigit cs

/-! ## Integers -/

def fitsInt64 (n : Int) : Bool := -0x8000000000000000 ≤ n && n ≤ 0x7fffffffffffffff

def negateIf (negative : Bool) (n : Int) : Int := if negative then -n else n

/-- digits of a base behind its marker -/
def readBased (base : Nat) (digit : Char → Bool) : Reader Int := fun cs => do
  let (digits, rest) ← readDigits digit cs
  return (ofDigits base digits, rest)

/-- an integer, whatever its size -/
def readAnyInteger : Reader Int
  | '0' :: 'x' :: rest => readBased 16 isHexDigit rest
  | '0' :: 'o' :: rest => readBased 8 (fun c => '0' ≤ c && c ≤ '7') rest
  | '0' :: 'b' :: rest => readBased 2 (fun c => c == '0' || c == '1') rest
  | cs => do
    let (negative, cs) := readSign cs
    let (digits, rest) ← readWhole cs
    return (negateIf negative (ofDigits 10 digits), rest)

def readInteger : Reader Int := fun cs => do
  let (n, rest) ← readAnyInteger cs
  guard (fitsInt64 n)
  return (n, rest)

/-! ## Floats -/

/-- a point and digits; no digits when there is no point -/
def readFraction : Reader (List Char)
  | '.' :: rest => readDigits isDigit rest
  | cs => some ([], cs)

/-- an exponent; zero when there is none -/
def readExponent (cs : List Char) : Option (Int × List Char) :=
  match cs with
  | c :: rest =>
    if c == 'e' || c == 'E' then do
      let (negative, rest) := readSign rest
      let (digits, rest) ← readDigits isDigit rest
      return (negateIf negative (ofDigits 10 digits), rest)
    else some (0, cs)
  | [] => some (0, [])

/-- a whole number followed by a fraction, an exponent or both -/
def readDecimalFloat (negative : Bool) : Reader Binary64 := fun cs => do
  let (whole, afterWhole) ← readWhole cs
  let (fraction, afterFraction) ← readFraction afterWhole
  let (exponent, rest) ← readExponent afterFraction
  guard (rest.length < afterWhole.length)
  return (.ofDecimal negative (ofDigits 10 (whole ++ fraction)) (exponent - fraction.length), rest)

def readFloat : Reader Binary64 := fun cs => do
  let (negative, cs) := readSign cs
  match cs with
  | 'i' :: 'n' :: 'f' :: rest => return (.infinite negative, rest)
  | 'n' :: 'a' :: 'n' :: rest => return (.nan, rest)
  | _ =>
    let (x, rest) ← readDecimalFloat negative cs
    guard (x != .infinite false)
    return (x, rest)

end CallPlan.Toml
