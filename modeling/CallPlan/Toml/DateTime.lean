/-
Dates and times of TOML.

A date may be followed by a time of day, and that by an offset; a time of day may also stand alone. Only their
validity matters here: the value is the text itself.
-/
import CallPlan.Toml.Lexical

namespace CallPlan.Toml

/-- a number of exactly `n` digits -/
def readFixed (n : Nat) : Reader Nat := fun cs =>
  let digits := cs.take n
  if digits.length = n ∧ digits.all isDigit then some (ofDigits 10 digits, cs.drop n) else none

/-- one given character -/
def readChar (c : Char) : Reader Unit
  | d :: rest => if c == d then some ((), rest) else none
  | [] => none

def isLeapYear (year : Nat) : Bool := year % 4 == 0 && (year % 100 != 0 || year % 400 == 0)

def daysInMonth (year month : Nat) : Nat :=
  match month with
  | 2 => if isLeapYear year then 29 else 28
  | 4 | 6 | 9 | 11 => 30
  | _ => 31

def readDate : Reader Unit := fun cs => do
  let (year, cs) ← readFixed 4 cs
  let (_, cs) ← readChar '-' cs
  let (month, cs) ← readFixed 2 cs
  let (_, cs) ← readChar '-' cs
  let (day, cs) ← readFixed 2 cs
  guard (1 ≤ month && month ≤ 12 && 1 ≤ day && day ≤ daysInMonth year month)
  return ((), cs)

/-- hours, minutes and seconds, the last up to a leap second, perhaps with a fraction -/
def readTime : Reader Unit := fun cs => do
  let (hour, cs) ← readFixed 2 cs
  let (_, cs) ← readChar ':' cs
  let (minute, cs) ← readFixed 2 cs
  let (_, cs) ← readChar ':' cs
  let (second, cs) ← readFixed 2 cs
  guard (hour ≤ 23 && minute ≤ 59 && second ≤ 60)
  match cs with
  | '.' :: d :: rest => if isDigit d then return ((), rest.dropWhile isDigit) else return ((), cs)
  | _ => return ((), cs)

/-- the distance from universal time -/
def readOffset : Reader Unit := fun cs => do
  match cs with
  | 'Z' :: rest => return ((), rest)
  | 'z' :: rest => return ((), rest)
  | sign :: rest =>
    guard (sign == '+' || sign == '-')
    let (hour, rest) ← readFixed 2 rest
    let (_, rest) ← readChar ':' rest
    let (minute, rest) ← readFixed 2 rest
    guard (hour ≤ 23 && minute ≤ 59)
    return ((), rest)
  | [] => none

/-- a time behind a date -/
def readDelimitedTime : Reader Unit
  | c :: rest => if c == 'T' || c == 't' || c == ' ' then readTime rest else none
  | [] => none

/-- the text after a date or a time -/
def afterDateTime? (cs : List Char) : Option (List Char) :=
  match readDate cs with
  | none => (readTime cs).map (·.2)
  | some (_, afterDate) =>
    match readDelimitedTime afterDate with
    | none => some afterDate
    | some (_, afterTime) => some (((readOffset afterTime).map (·.2)).getD afterTime)

def readDateTime : Reader String := fun cs => do
  let rest ← afterDateTime? cs
  return (String.ofList (cs.take (cs.length - rest.length)), rest)

end CallPlan.Toml
