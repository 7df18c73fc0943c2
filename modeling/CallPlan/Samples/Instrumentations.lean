/-
Instrumentations whose effects are easy to see: one leaves a mark, one calls the super method, one adds a field, and
one is for methods without code.

Each is of a type of its own, so as a dynamic value it has a kind, and it is hashed as that dynamic value.
-/
import CallPlan.Dynamic
import CallPlan.Instrumentation

namespace CallPlan.Samples

inductive SampleInstrumentation where
  /-- adds its label as an initializer and emits one instruction -/
  | marker (label : String) (opcode : UInt8) (operandStack : Nat)
  /-- emits a super call of the method and returns what it gives -/
  | superCall (method : Method) (lookup : CallLookup)
  | abstractMethod
  /-- adds a field and has no code -/
  | addField (field : Field)
deriving DecidableEq, Repr

namespace SampleInstrumentation

/-- the instruction that returns a value of this type -/
def returnOpcode : ReturnType → UInt8
  | .void => Opcode.returnVoid
  | .value t => if t.isReference then Opcode.returnReference else Opcode.returnInt

variable {α : Type} [Auxiliary α]

def markerAppender (opcode : UInt8) (operandStack : Nat) : Appender α where
  appendsCode := true
  apply _ := do
    Emission.emit (.plain opcode)
    return ⟨operandStack, 1⟩

/-- loads the receiver, calls and returns; one slot is the receiver's, before the call and among the locals -/
def superCallAppender (c : SpecialCall) : Appender α where
  appendsCode := true
  apply _ := do
    let method ← (c.targetMethod : Except Error Method)
    Emission.emit (.plain Opcode.loadThis)
    let effect ← Emission.call c
    Emission.emit (.plain (returnOpcode method.result))
    return ⟨max 1 (1 + effect.impact).toNat, 1 + method.descriptor.parameterSlots⟩

def prepare : SampleInstrumentation → TypeDraft → Except Error TypeDraft
  | .marker label _ _, draft => .ok (draft.addInitializer label)
  | .addField field, draft => draft.addField field
  | _, draft => .ok draft

def appender : SampleInstrumentation → Planner → Except Error (Appender α)
  | .marker _ opcode operandStack, _ => .ok (markerAppender opcode operandStack)
  | .superCall method lookup, planner => return superCallAppender (← planner.superCall method lookup)
  | .abstractMethod, _ => .ok .noCode
  | .addField _, _ => .ok .noCode

end SampleInstrumentation

/-! ## Samples as dynamic values -/

/-- the types of the samples -/
inductive SampleKind where
  | marker
  | superCall
  | abstractMethod
  | addField
deriving DecidableEq

instance : HashFeed SampleKind := ⟨fun k => [.number k.ctorIdx]⟩

namespace SampleKind

def Value : SampleKind → Type
  | marker => String × UInt8 × Nat
  | superCall => Method × CallLookup
  | abstractMethod => Unit
  | addField => Field

instance : ∀ k : SampleKind, DecidableEq k.Value
  | marker => inferInstanceAs (DecidableEq (String × UInt8 × Nat))
  | superCall => inferInstanceAs (DecidableEq (Method × CallLookup))
  | abstractMethod => inferInstanceAs (DecidableEq Unit)
  | addField => inferInstanceAs (DecidableEq Field)

instance : ∀ k : SampleKind, HashFeed k.Value
  | marker => ⟨fun (label, opcode, operandStack) => [.text label, .number opcode.toNat, .number operandStack]⟩
  | superCall => ⟨fun (method, lookup) => feed method ++ [.number lookup.ctorIdx]⟩
  | abstractMethod => ⟨fun _ => []⟩
  | addField => ⟨fun field => feed field.name ++ feed field.type ++ feed field.flags⟩

end SampleKind

def SampleInstrumentation.dynamic : SampleInstrumentation → Dynamic SampleKind.Value
  | .marker label opcode operandStack => ⟨.marker, label, opcode, operandStack⟩
  | .superCall method lookup => ⟨.superCall, method, lookup⟩
  | .abstractMethod => ⟨.abstractMethod, ()⟩
  | .addField field => ⟨.addField, field⟩

instance : HashFeed SampleInstrumentation := ⟨fun i => feed i.dynamic⟩

end CallPlan.Samples
