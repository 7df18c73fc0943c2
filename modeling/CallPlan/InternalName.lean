/-
Internal names: the slash-separated form in which class files name types.
-/
import CallPlan.Error

namespace CallPlan.InternalName

/-- characters that an internal name never holds: they delimit names in other encodings -/
def isDelimiter (c : Char) : Bool := c == '.' || c == ';' || c == '['

/-- whether two slashes stand next to each other -/
def hasEmptySegment : List Char → Bool
  | '/' :: '/' :: _ => true
  | _ :: rest => hasEmptySegment rest
  | [] => false

/-- non-empty, no slash at either end, no two slashes in a row, no delimiter -/
def isValid (name : String) : Bool :=
  let cs := name.toList
  !cs.isEmpty && cs.head? != some '/' && cs.getLast? != some '/' && !hasEmptySegment cs && !cs.any isDelimiter

def check (name : String) : Except Error Unit :=
  if isValid name then .ok () else .error (.invalidInternalName name)

/-- the name as source code writes it, with dots for slashes -/
def dotted (name : String) : String := name.map fun c => if c == '/' then '.' else c

end CallPlan.InternalName
