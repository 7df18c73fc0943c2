/-
Strings of TOML: basic strings with escapes, literal strings without, and both over several lines.

In a string over several lines, one or two quotes in a row are content. A longer run ends the string: its last three
quotes close it and up to two before them still belong to it.
-/
import CallPlan.Toml.Lexical

namespace CallPlan.Toml

/-- characters that stand for themselves in any string over one line, quotes and backslashes apart -/
def isTextChar (c : Char) : Bool := isCommentChar c

/-! ## Escapes -/

/-- the character of `n` hexadecimal digits; surrogates and what lies above the last code point are none -/
def readCodePoint (n : Nat) : Reader Char := fun cs =>
  let digits := cs.take n
  let code := ofDigits 16 digits
  if digits.length = n ∧ digits.all isHexDigit ∧ code.isValidChar then some (Char.ofNat code, cs.drop n) else none

/-- what follows a backslash -/
def readEscape : Reader Char
  | 'b' :: rest => some ('\x08', rest)
  | 't' :: rest => some ('\t', rest)
  | 'n' :: rest => some ('\n', rest)
  | 'f' :: rest => some ('\x0c', rest)
  | 'r' :: rest => some ('\r', rest)
  | '"' :: rest => some ('"', rest)
  | '\\' :: rest => some ('\\', rest)
  | 'u' :: rest => readCodePoint 4 rest
  | 'U' :: rest => readCodePoint 8 rest
  | _ => none

theorem readEscape_length {cs rest : List Char} {c : Char} (h : readEscape cs = some (c, rest)) :
    rest.length < cs.length := by
  unfold readEscape at h
  split at h <;> simp [readCodePoint] at h
  all_goals first
    | (obtain ⟨-, rfl⟩ := h; simp)
    | (obtain ⟨-, -, rfl⟩ := h; simp only [List.length_drop, List.length_cons]; omega)

/-! ## Strings over one line -/

/-- a basic string after its opening quote -/
def readBasic (cs : List Char) : Option (List Char × List Char) :=
  match cs with
  | '"' :: rest => some ([], rest)
  | '\\' :: rest =>
    match _h : readEscape rest with
    | none => none
    | some (c, after) => (readBasic after).map fun (text, tail) => (c :: text, tail)
  | c :: rest => if isTextChar c then (readBasic rest).map fun (text, tail) => (c :: text, tail) else none
  | [] => none
termination_by cs.length
decreasing_by
  · have := readEscape_length _h
    simp only [List.length_cons]
    omega
  · simp

/-- a literal string after its opening quote -/
def readLiteral : Reader (List Char)
  | '\'' :: rest => some ([], rest)
  | c :: rest => if isTextChar c then (readLiteral rest).map fun (text, tail) => (c :: text, tail) else none
  | [] => none

/-! ## Strings over several lines -/

/-- what a run of quotes does to a string over several lines -/
inductive QuoteRun where
  /-- so many quotes of content, and the string goes on -/
  | inside (content : Nat) (rest : List Char)
  /-- so many quotes of content, and the string ends -/
  | closing (content : Nat) (rest : List Char)

/-- the run of quotes at the front of a text -/
def quoteRun (quote : Char) (cs : List Char) : QuoteRun :=
  let run := (cs.takeWhile (· == quote)).length
  if run < 3 then .inside run (cs.drop run)
  else
    let content := min (run - 3) 2
    .closing content (cs.drop (content + 3))

/-- the text after a backslash at the end of a line, up to what is no blank and no line end -/
def skipContinuation (cs : List Char) : Option (List Char) :=
  (newline? (skipBlanks cs)).map (skipBreaks · cs.length)
where
  /-- drops blanks and line ends -/
  skipBreaks (cs : List Char) : Nat → List Char
    | 0 => cs
    | n + 1 =>
      match newline? (skipBlanks cs) with
      | some rest => skipBreaks rest n
      | none => skipBlanks cs

/-- the content of a string over several lines, after the opening quotes; `n` bounds the steps -/
def readLines (quote : Char) (escapes : Bool) : Nat → Reader (List Char)
  | 0, _ => none
  | n + 1, cs =>
    match cs with
    | [] => none
    | c :: rest =>
      if c == quote then
        match quoteRun quote cs with
        | .closing content after => some (List.replicate content quote, after)
        | .inside content after =>
          (readLines quote escapes n after).map fun (text, tail) => (List.replicate content quote ++ text, tail)
      else if c == '\\' && escapes then
        match skipContinuation rest with
        | some after => readLines quote escapes n after
        | none => do
          let (e, after) ← readEscape rest
          let (text, tail) ← readLines quote escapes n after
          return (e :: text, tail)
      else
        match newline? cs with
        | some after => (readLines quote escapes n after).map fun (text, tail) => ('\n' :: text, tail)
        | none =>
          if isTextChar c then (readLines quote escapes n rest).map fun (text, tail) => (c :: text, tail) else none

/-- a string over several lines, after its opening quotes; a line end right there is not part of it -/
def readMultiLine (quote : Char) (escapes : Bool) : Reader (List Char) := fun cs =>
  readLines quote escapes (cs.length + 1) ((newline? cs).getD cs)

/-! ## All strings -/

/-- a string over one line -/
def readLineString : Reader String
  | '"' :: rest => (readBasic rest).map fun (text, tail) => (String.ofList text, tail)
  | '\'' :: rest => (readLiteral rest).map fun (text, tail) => (String.ofList text, tail)
  | _ => none

def readString : Reader String
  | '"' :: '"' :: '"' :: rest => (readMultiLine '"' true rest).map fun (text, tail) => (String.ofList text, tail)
  | '\'' :: '\'' :: '\'' :: rest => (readMultiLine '\'' false rest).map fun (text, tail) => (String.ofList text, tail)
  | cs => readLineString cs

end CallPlan.Toml
