/-
Sets of characters given by their boundaries.

A boundary is a code point at which membership changes, counted from "not a member" at zero, so a character is a
member iff an odd number of boundaries lies at or below it. Boundaries are listed in increasing order.
-/
namespace CallPlan.Text

/-- whether the set with these boundaries holds the character -/
def holds (boundaries : List Nat) (c : Char) : Bool := boundaries.countP (· ≤ c.toNat) % 2 == 1

end CallPlan.Text
