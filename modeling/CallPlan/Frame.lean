/-
Stack and frame sizes, and the instructions that planning emits.

A stack effect is the net change of the operand stack and the highest point reached on the way. Following one effect
by another shifts the second by the impact of the first (`andThen`); the peak stops at what 32 bits hold. A frame size
bounds both the operand stack and the local variables, and frames of several pieces of code need the larger of each
(`merge`).
-/
namespace CallPlan

/-! ## Sizes -/

structure StackEffect where
  /-- slots pushed less slots popped -/
  impact : Int
  /-- the highest point reached, measured from the start -/
  peak : Nat
deriving DecidableEq, Repr

namespace StackEffect

def zero : StackEffect := ⟨0, 0⟩

/-- an effect that is over at once: its peak is where it ends, or the start when it only pops -/
def ofImpact (impact : Int) : StackEffect := ⟨impact, impact.toNat⟩

/-- the highest peak that is told apart -/
def peakLimit : Nat := 0xffffffff

/-- first `a`, then `b`. The impact is their exact sum; that a signed 32-bit addition overflows outside its range is not
modelled -/
def andThen (a b : StackEffect) : StackEffect :=
  ⟨a.impact + b.impact, max a.peak (min (a.impact + b.peak).toNat peakLimit)⟩

end StackEffect

structure FrameSize where
  operandStack : Nat
  locals : Nat
deriving DecidableEq, Repr

namespace FrameSize

def zero : FrameSize := ⟨0, 0⟩

/-- room for either -/
def merge (a b : FrameSize) : FrameSize := ⟨max a.operandStack b.operandStack, max a.locals b.locals⟩

end FrameSize

/-! ## Instructions -/

inductive Instruction where
  /-- an instruction without operands -/
  | plain (opcode : UInt8)
  | call (opcode : UInt8) (owner name descriptor : String) (onInterface : Bool)
deriving DecidableEq, Repr

namespace Opcode

/-- loads the receiver -/
def loadThis : UInt8 := 0x2a
def returnInt : UInt8 := 0xac
def returnReference : UInt8 := 0xb0
def returnVoid : UInt8 := 0xb1
/-- calls a method of exactly the named type, bypassing overrides -/
def invokeSpecial : UInt8 := 0xb7

end Opcode

end CallPlan
