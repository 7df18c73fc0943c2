/-
Documents of TOML: keys, values and lines.

A document is a list of lines, each blank, a comment, a header or a key with its value. Arrays and inline tables hold
further values, nested at most `nestingLimit` deep; values are read by recursion on the depth that is left.
-/
import CallPlan.Toml.DateTime
import CallPlan.Toml.Number
import CallPlan.Toml.Section
import CallPlan.Toml.Text

namespace CallPlan.Toml

/-- how deep arrays and inline tables may be nested, and how many parts a dotted key may have -/
def nestingLimit : Nat := 79

/-! ## Keys -/

def isBareKeyChar (c : Char) : Bool :=
  isDigit c || ('a' ≤ c && c ≤ 'z') || ('A' ≤ c && c ≤ 'Z') || c == '_' || c == '-'

/-- one part of a key: a string over one line, or bare characters -/
def readKeyPart : Reader String
  | [] => none
  | c :: rest =>
    if c == '"' || c == '\'' then readLineString (c :: rest)
    else if isBareKeyChar c then
      some (String.ofList (c :: rest.takeWhile isBareKeyChar), rest.dropWhile isBareKeyChar)
    else none

/-- the parts of a dotted key, blanks around each; `n` bounds their number -/
def readKeyParts : Nat → Reader (List String)
  | 0, _ => none
  | n + 1, cs => do
    let (part, rest) ← readKeyPart (skipBlanks cs)
    match skipBlanks rest with
    | '.' :: rest => do
      let (parts, rest) ← readKeyParts n rest
      return (part :: parts, rest)
    | rest => return ([part], rest)

def readKey : Reader (List String) := readKeyParts nestingLimit

/-- a key and the equals sign behind it: the parts but the last, and the last -/
def readAssignedKey : Reader (List String × String) := fun cs => do
  let (parts, rest) ← readKey cs
  match rest with
  | '=' :: rest => return ((parts.dropLast, ← parts.getLast?), skipBlanks rest)
  | _ => none

/-! ## Values -/

def readBoolean : Reader Bool
  | 't' :: 'r' :: 'u' :: 'e' :: rest => some (true, rest)
  | 'f' :: 'a' :: 'l' :: 's' :: 'e' :: rest => some (false, rest)
  | _ => none

/-- a value that holds no other values -/
def readScalar (cs : List Char) : Option (Value × List Char) :=
  ((readString cs).map fun (s, rest) => (.string s, rest)) <|>
  ((readBoolean cs).map fun (b, rest) => (.boolean b, rest)) <|>
  ((readDateTime cs).map fun (t, rest) => (.dateTime t, rest)) <|>
  ((readFloat cs).map fun (x, rest) => (.float x, rest)) <|>
  ((readInteger cs).map fun (n, rest) => (.integer n, rest))

/-- the items of an array after its opening bracket; `n` bounds their number -/
def readItems (value : Reader Value) : Nat → Reader (List Value)
  | 0, _ => none
  | n + 1, cs => do
    let cs ← skipLines cs
    match cs with
    | ']' :: rest => return ([], rest)
    | _ =>
      let (v, cs) ← value cs
      match ← skipLines cs with
      | ']' :: rest => return ([v], rest)
      | ',' :: rest => do
        let (vs, rest) ← readItems value n rest
        return (v :: vs, rest)
      | _ => none

/-- the pairs of an inline table up to its closing brace; `n` bounds their number -/
def readPairs (value : Reader Value) : Nat → Entries → Reader Entries
  | 0, _, _ => none
  | n + 1, es, cs => do
    let ((path, key), cs) ← readAssignedKey cs
    let (v, cs) ← value cs
    let es ← es.insertValue path key v
    match skipBlanks cs with
    | '}' :: rest => return (es, rest)
    | ',' :: rest => readPairs value n es rest
    | _ => none

/-- an inline table after its opening brace -/
def readInlineTable (value : Reader Value) : Reader Entries := fun cs =>
  match skipBlanks cs with
  | '}' :: rest => some ([], rest)
  | cs => readPairs value cs.length [] cs

/-- a value with at most `depth` arrays and inline tables nested in each other -/
def readValue : Nat → Reader Value
  | 0, cs => readScalar cs
  | depth + 1, cs =>
    match cs with
    | '[' :: rest => do
      let (items, rest) ← readItems (readValue depth) cs.length rest
      return (.array items, rest)
    | '{' :: rest => do
      let (entries, rest) ← readInlineTable (readValue depth) rest
      return (.table (Item.entriesToValues entries), rest)
    | _ => readScalar cs

/-! ## Lines -/

/-- reads one line into the draft; the text does not start with a blank -/
def readLine (d : Draft) : Reader Draft
  | [] => none
  | '#' :: rest => return (d, ← lineEnd? ('#' :: rest))
  | '[' :: '[' :: rest => do
    let (header, rest) ← readKey rest
    match rest with
    | ']' :: ']' :: rest => return (← d.openElement header, ← lineEnd? rest)
    | _ => none
  | '[' :: rest => do
    let (header, rest) ← readKey rest
    match rest with
    | ']' :: rest => return (← d.openTable header, ← lineEnd? rest)
    | _ => none
  | cs =>
    match newline? cs with
    | some rest => some (d, rest)
    | none => do
      let ((path, key), rest) ← readAssignedKey cs
      let (v, rest) ← readValue nestingLimit rest
      return (← d.insertValue path key v, ← lineEnd? rest)

/-- reads all lines; `n` bounds their number -/
def readAllLines : Nat → Draft → List Char → Option Draft
  | 0, _, _ => none
  | n + 1, d, cs =>
    match skipBlanks cs with
    | [] => some d
    | cs => do
      let (d, rest) ← readLine d cs
      readAllLines n d rest

/-- a text without the byte order mark at its front -/
def skipByteOrderMark : List Char → List Char
  | c :: rest => if c.toNat = 0xfeff then rest else c :: rest
  | [] => []

/-- the entries of the document that a text writes, if it follows the grammar -/
def parse? (text : String) : Option (List (String × Value)) := do
  let cs := skipByteOrderMark text.toList
  let d ← readAllLines (cs.length + 1) .empty cs
  return Item.entriesToValues (← d.close)

end CallPlan.Toml
