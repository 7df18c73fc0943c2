/-
What a value contributes to a hash.

Types whose equality looks at part of their data state here which data they feed, so that "equal values feed the same"
can be said of each of them. Plain data feeds all of its parts in order: the number of its form where it has several,
and the length of a list before its members.
-/
import CallPlan.Bridge

namespace CallPlan

inductive FeedItem where
  | number (n : Nat)
  | text (s : String)
deriving DecidableEq, Repr

/-- the data that stands for a value in a hash -/
class HashFeed (α : Type) where
  feed : α → List FeedItem

export HashFeed (feed)

/-! ## Plain data -/

instance : HashFeed String := ⟨fun s => [.text s]⟩

instance {α : Type} [HashFeed α] : HashFeed (List α) := ⟨fun as => .number as.length :: as.flatMap feed⟩

instance : HashFeed AccessFlags := ⟨fun flags => [.number flags.bits.toNat]⟩

def FieldType.feedOf : FieldType → List FeedItem
  | .base b => [.number 0, .text (String.singleton b.letter)]
  | .object name => .number 1 :: feed name
  | .array component => .number 2 :: component.feedOf

instance : HashFeed FieldType := ⟨FieldType.feedOf⟩

instance : HashFeed ReturnType where
  feed
    | .void => [.number 0]
    | .value t => .number 1 :: feed t

instance : HashFeed MethodDescriptor := ⟨fun d => feed d.parameters ++ feed d.result⟩

instance : HashFeed Method where
  feed m := feed m.owner ++ [.number m.ownerIsInterface.toNat] ++ feed m.name ++ feed m.descriptor ++ feed m.flags

instance : HashFeed BridgeStrategy where
  feed
    | .leaveBridges => [.number 0]
    | .resolveBridges policy => [.number 1, .text policy.label]

/-! ## Types -/

/-- by name, as types are compared -/
instance : HashFeed KnownType := ⟨fun t => feed t.name⟩

end CallPlan
