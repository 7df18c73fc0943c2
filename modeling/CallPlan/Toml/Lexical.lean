/-
The smallest parts of TOML text: characters, blanks, line ends, comments and digits.
-/
import CallPlan.Toml.Value

namespace CallPlan.Toml

/-- the blanks within a line -/
def isBlank (c : Char) : Bool := c == ' ' || c == '\t'

/-- characters that comments may hold: no control characters but the tab -/
def isCommentChar (c : Char) : Bool := c == '\t' || (0x20 ≤ c.toNat && c.toNat != 0x7f)

def isDigit (c : Char) : Bool := '0' ≤ c && c ≤ '9'

def isHexDigit (c : Char) : Bool := isDigit c || ('a' ≤ c && c ≤ 'f') || ('A' ≤ c && c ≤ 'F')

/-- the value of a digit of any base up to sixteen -/
def digitValue (c : Char) : Nat :=
  if isDigit c then c.toNat - '0'.toNat else if 'a' ≤ c then c.toNat - 'a'.toNat + 10 else c.toNat - 'A'.toNat + 10

/-- the number that these digits write in a base -/
def ofDigits (base : Nat) (digits : List Char) : Nat := digits.foldl (fun n c => n * base + digitValue c) 0

def skipBlanks (cs : List Char) : List Char := cs.dropWhile isBlank

/-- the text after a line feed, alone or behind a carriage return -/
def newline? : List Char → Option (List Char)
  | '\n' :: rest => some rest
  | '\r' :: '\n' :: rest => some rest
  | _ => none

/-- the text without a comment at its front -/
def skipComment : List Char → List Char
  | '#' :: rest => rest.dropWhile isCommentChar
  | cs => cs

/-- the text after the rest of a line: blanks, perhaps a comment, and a line end or the end of the text -/
def lineEnd? (cs : List Char) : Option (List Char) :=
  match skipComment (skipBlanks cs) with
  | [] => some []
  | rest => newline? rest

theorem newline?_length {cs rest : List Char} (h : newline? cs = some rest) : rest.length < cs.length := by
  unfold newline? at h
  split at h <;> simp only [Option.some.injEq, reduceCtorEq] at h <;> subst h <;> simp only [List.length_cons] <;> omega

theorem skipBlanks_length (cs : List Char) : (skipBlanks cs).length ≤ cs.length :=
  (List.dropWhile_suffix _).length_le

theorem skipComment_length (cs : List Char) : (skipComment cs).length ≤ cs.length := by
  unfold skipComment
  split
  · have := (List.dropWhile_suffix isCommentChar (l := ‹List Char›)).length_le
    simp only [List.length_cons]
    omega
  · exact Nat.le_refl _

/-- the text without blanks, line ends and comments at its front; a comment has to be closed by a line end -/
def skipLines (cs : List Char) : Option (List Char) :=
  match _hb : skipBlanks cs with
  | '#' :: rest =>
    match _hn : newline? (skipComment ('#' :: rest)) with
    | some after => skipLines after
    | none => none
  | rest =>
    match _hn : newline? rest with
    | some after => skipLines after
    | none => some rest
termination_by cs.length
decreasing_by
  all_goals
    have h1 := skipBlanks_length cs
    have h2 := newline?_length _hn
    rw [_hb] at h1
  · have h3 := skipComment_length ('#' :: rest)
    omega
  · omega

/-- digits with single underscores between them, the underscores left out; empty when the text starts otherwise -/
def spanDigits (digit : Char → Bool) : List Char → List Char × List Char
  | '_' :: d :: rest =>
    if digit d then (d :: (spanDigits digit rest).1, (spanDigits digit rest).2) else ([], '_' :: d :: rest)
  | c :: rest => if digit c then (c :: (spanDigits digit rest).1, (spanDigits digit rest).2) else ([], c :: rest)
  | [] => ([], [])

/-- at least one digit -/
def readDigits (digit : Char → Bool) : Reader (List Char)
  | c :: rest => if digit c then some (spanDigits digit (c :: rest)) else none
  | [] => none

end CallPlan.Toml
