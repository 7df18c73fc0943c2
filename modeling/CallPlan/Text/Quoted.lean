/-
Quoted text for diagnosis: in double quotes, with escapes for quotes, backslashes and what does not show.
-/
import CallPlan.Text.Unprintable

namespace CallPlan.Text

/-- lower-case hexadecimal digits without leading zeros -/
def hexText (n : Nat) : String := String.ofList (Nat.toDigits 16 n)

/-- a character as it stands inside quotes -/
def escapeChar (c : Char) : String :=
  match c with
  | '\x00' => "\\0"
  | '\t' => "\\t"
  | '\r' => "\\r"
  | '\n' => "\\n"
  | '"' => "\\\""
  | '\\' => "\\\\"
  | _ => if isUnprintable c then "\\u" ++ "\x7b" ++ hexText c.toNat ++ "\x7d" else String.singleton c

def quote (s : String) : String := "\"" ++ String.join (s.toList.map escapeChar) ++ "\""

end CallPlan.Text
