/-
Methods as a type pool describes them.

A method is told apart from others in three ways: as a whole, by its token (name, result, parameters: what the
virtual machine selects by) and by its unique signature (name and parameter text: what a compiler overloads by). A
bridge and the override it forwards to share the unique signature and differ in the token.
-/
import CallPlan.AccessFlags
import CallPlan.Descriptor

namespace CallPlan

structure Method where
  /-- internal name of the declaring type -/
  owner : String
  ownerIsInterface : Bool
  name : String
  descriptor : MethodDescriptor
  flags : AccessFlags
deriving DecidableEq, Repr

/-- name, result and parameter types: what the virtual machine selects a method by -/
structure MethodToken where
  name : String
  result : ReturnType
  parameters : List FieldType
deriving DecidableEq, Repr

namespace Method

/-- a class member, its descriptor read from text -/
def parse (owner name descriptor : String) (flags : AccessFlags) : Except Error Method := do
  let descriptor ← MethodDescriptor.parse descriptor
  return ⟨owner, false, name, descriptor, flags⟩

def parameters (m : Method) : List FieldType := m.descriptor.parameters

def result (m : Method) : ReturnType := m.descriptor.result

def token (m : Method) : MethodToken := ⟨m.name, m.result, m.parameters⟩

/-- name and parameter text, whatever the result -/
def uniqueSignature (m : Method) : String := m.name ++ m.descriptor.renderParameters

def isBridge (m : Method) : Bool := m.flags.has .bridgeBit
def isSynthetic (m : Method) : Bool := m.flags.has .syntheticBit
def isStatic (m : Method) : Bool := m.flags.has .staticBit
def isAbstract (m : Method) : Bool := m.flags.has .abstractBit
def isPrivate (m : Method) : Bool := m.flags.has .privateBit
def isConstructor (m : Method) : Bool := m.name == "<init>"
def isTypeInitializer (m : Method) : Bool := m.name == "<clinit>"

/-- an instance method of an interface that has a body -/
def isDefault (m : Method) : Bool := m.ownerIsInterface && !m.isAbstract && !m.isStatic && !m.isPrivate

/-- whether a subtype takes this method over -/
def isInheritable (m : Method) : Bool := !m.isConstructor && !m.isTypeInitializer && !m.isPrivate

theorem isInheritable_iff {m : Method} : m.isInheritable = true ↔
    m.isConstructor = false ∧ m.isTypeInitializer = false ∧ m.isPrivate = false := by
  simp [isInheritable, and_assoc]

def render (m : Method) : String := m.owner ++ "." ++ m.name ++ m.descriptor.render

/-- the written form with the flags, for diagnosis -/
def inspect (m : Method) : String := "MethodDescription(" ++ m.render ++ ", flags=" ++ m.flags.render ++ ")"

/-! ## Lists of methods -/

def renderList (ms : List Method) : String := "[" ++ String.intercalate ", " (ms.map render) ++ "]"

/-- the single method of a list -/
def only : List Method → Except Error Method
  | [m] => .ok m
  | ms => .error (.notExactlyOne ms.length)

/-- positions `first` to `last`, the last excluded; what lies outside the list is left out -/
def slice (first last : Nat) (ms : List Method) : List Method := (ms.take last).drop first

end Method

end CallPlan
