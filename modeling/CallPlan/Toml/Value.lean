/-
Values of the settings format TOML, and readers of its text.

A table keeps its entries in the order they were written, which decides what a decoder reports first. A reader takes
what it reads off the front of the text and fails without a reason: a text that does not follow the grammar is
reported as such and no more.
-/
import CallPlan.Binary64

namespace CallPlan.Toml

inductive Value where
  | string (text : String)
  | integer (n : Int)
  | float (x : Binary64)
  | boolean (b : Bool)
  /-- a date, a time or both, as written -/
  | dateTime (text : String)
  | array (items : List Value)
  | table (entries : List (String × Value))

/-- reads from the front of a text -/
abbrev Reader (α : Type) := List Char → Option (α × List Char)

end CallPlan.Toml
