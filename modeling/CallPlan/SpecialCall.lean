/-
Calls that bypass overrides.

A legal special call names a method and the type it is called on; a call that cannot be made is illegal. Two legal
calls are equal when they emit the same instruction: the declaring type and the flags of the method do not matter.
-/
import CallPlan.Frame
import CallPlan.HashFeed

namespace CallPlan

inductive SpecialCall where
  | legal (method : Method) (on : KnownType)
  | illegal

namespace SpecialCall

def isLegal : SpecialCall → Bool
  | .legal .. => true
  | .illegal => false

def targetMethod : SpecialCall → Except Error Method
  | .legal method _ => .ok method
  | .illegal => .error (.illegalCall .targetMethod)

def targetType : SpecialCall → Except Error KnownType
  | .legal _ on => .ok on
  | .illegal => .error (.illegalCall .targetType)

/-- same type, name, parameters and result; or both illegal -/
instance : BEq SpecialCall where
  beq
    | .legal m s, .legal n t => s == t && m.name == n.name && m.parameters == n.parameters && m.result == n.result
    | .illegal, .illegal => true
    | _, _ => false

instance : HashFeed SpecialCall where
  feed
    | .legal m t => feed m.name ++ feed m.parameters ++ feed m.result ++ feed t
    | .illegal => [.number 0]

theorem legal_beq_legal {m n : Method} {t u : KnownType} :
    (legal m t == legal n u) = true ↔ t.name = u.name ∧ m.token = n.token := by
  show (t == u && m.name == n.name && m.parameters == n.parameters && m.result == n.result) = true ↔ _
  simp only [Bool.and_eq_true, KnownType.beq_iff_name_eq, beq_iff_eq, Method.token, MethodToken.mk.injEq]
  constructor
  · rintro ⟨⟨⟨hs, hname⟩, hparameters⟩, hresult⟩
    exact ⟨hs, hname, hresult, hparameters⟩
  · rintro ⟨hs, hname, hresult, hparameters⟩
    exact ⟨⟨⟨hs, hname⟩, hparameters⟩, hresult⟩

/-- what a call is compared by: the name of its type and the token of its method -/
def key : SpecialCall → Option (String × MethodToken)
  | .legal m t => some (t.name, m.token)
  | .illegal => none

theorem beq_iff_key_eq (c d : SpecialCall) : (c == d) = true ↔ c.key = d.key := by
  cases c with
  | illegal =>
    cases d with
    | illegal => exact iff_of_true rfl rfl
    | legal n u => exact iff_of_false Bool.false_ne_true (by simp [key])
  | legal m t =>
    cases d with
    | illegal => exact iff_of_false Bool.false_ne_true (by simp [key])
    | legal n u => simp [legal_beq_legal, key]

/-- the emitted instruction and its effect on the stack; the receiver is consumed along with the arguments -/
def emission : SpecialCall → Except Error (Instruction × StackEffect)
  | .legal m t =>
    .ok (.call Opcode.invokeSpecial t.name m.name m.descriptor.render t.isInterface,
      .ofImpact (m.result.slots - (m.descriptor.parameterSlots + 1)))
  | .illegal => .error (.illegalCall .emission)

end SpecialCall

end CallPlan
