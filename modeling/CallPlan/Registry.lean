/-
The registry of auxiliary types made while one type is instrumented.

Each distinct auxiliary value is made once; asking for an equal value again gives the recorded type. The `n`-th type
made, counted from 1, is named after the instrumented type, the registry's suffix and `n`. A value that cannot be made
leaves the registry as it was and takes no number.
-/
import CallPlan.TypeDraft

namespace CallPlan

/-- a draft together with the type it became -/
structure AuxiliaryType where
  draft : TypeDraft
  type : KnownType

/-- the type of a draft, in a layer above `pool` -/
def AuxiliaryType.ofDraft (draft : TypeDraft) (pool : Pool) : Except Error AuxiliaryType :=
  return ⟨draft, ← draft.typeAbove pool⟩

/-- values that stand for auxiliary types, and when two of them are the same -/
class Auxiliary (α : Type) extends BEq α where
  /-- makes the type under the given name, for the instrumented type -/
  make : α → (name : String) → (instrumented : KnownType) → Except Error AuxiliaryType

structure Registry (α : Type) [Auxiliary α] where
  instrumented : KnownType
  suffix : String
  registered : Table α AuxiliaryType

namespace Registry

variable {α : Type} [Auxiliary α]

def defaultSuffix : String := "auxiliary"

def empty (instrumented : KnownType) (suffix : String) : Registry α := ⟨instrumented, suffix, .empty⟩

def size (r : Registry α) : Nat := r.registered.size

/-- the name of the `n`-th auxiliary type -/
def auxiliaryName (instrumented suffix : String) (n : Nat) : String :=
  instrumented ++ "$" ++ suffix ++ "$" ++ toString n

/-- the name of the type that would be made next -/
def nextName (r : Registry α) : String := auxiliaryName r.instrumented.name r.suffix (r.size + 1)

/-- the recorded type of an equal value, or a newly made one -/
def register (r : Registry α) (aux : α) : Except Error (KnownType × Registry α) :=
  match r.registered.find? aux with
  | some made => .ok (made.type, r)
  | none => do
    let made ← Auxiliary.make aux r.nextName r.instrumented
    return (made.type, { r with registered := r.registered.insert aux made })

/-- the registered types, in the order they were made -/
def types (r : Registry α) : List AuxiliaryType := r.registered.values

end Registry

end CallPlan
