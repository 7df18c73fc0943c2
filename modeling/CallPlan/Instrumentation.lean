/-
Instrumentations and their composition.

An instrumentation prepares the type it is applied to and, for a planner, provides an appender that emits the code of
one method. Emission works on a site: the instructions emitted so far and the registry of auxiliary types; what was
emitted before a failure stays. Single instrumentations are of any type with these operations. A compound applies its
parts in order, whatever they are, and needs the larger frame of each; it can hold compounds again.
-/
import CallPlan.Frame
import CallPlan.Planner
import CallPlan.Registry

namespace CallPlan

/-! ## Emission -/

/-- what emission works on -/
structure Site (α : Type) [Auxiliary α] where
  emitted : List Instruction
  registry : Registry α

/-- emission of code: it may fail, and keeps the site as it was then -/
abbrev Emission (α : Type) [Auxiliary α] (β : Type) := ExceptT Error (StateM (Site α)) β

namespace Emission

variable {α : Type} [Auxiliary α]

def emit (i : Instruction) : Emission α Unit := modify fun s => { s with emitted := s.emitted ++ [i] }

/-- emits a call, if it is legal -/
def call (c : SpecialCall) : Emission α StackEffect := do
  let (instruction, effect) ← (c.emission : Except Error _)
  emit instruction
  return effect

/-- the outcome at a site that nothing was emitted at, and the site afterwards -/
def runOn {β : Type} (e : Emission α β) (registry : Registry α) : Except Error β × Site α :=
  (ExceptT.run e).run ⟨[], registry⟩

end Emission

/-- emits the code of one method -/
structure Appender (α : Type) [Auxiliary α] where
  appendsCode : Bool
  apply : Method → Emission α FrameSize

namespace Appender

variable {α : Type} [Auxiliary α]

/-- for methods without code: nothing can be emitted -/
def noCode : Appender α := ⟨false, fun m => throw (.abstractMethod m.render)⟩

/-- all appenders in order, with room for the largest frame -/
def sequence (as : List (Appender α)) : Appender α where
  appendsCode := as.any (·.appendsCode)
  apply m := as.foldlM (fun size a => return size.merge (← a.apply m)) .zero

end Appender

/-! ## Instrumentations -/

/-- the operations of single instrumentations -/
class Instrument (ι : Type) (α : outParam Type) [outParam (Auxiliary α)] where
  prepare : ι → TypeDraft → Except Error TypeDraft
  appender : ι → Planner → Except Error (Appender α)

inductive Instrumentation (ι : Type) where
  | single (leaf : ι)
  | compound (parts : List (Instrumentation ι))

namespace Instrumentation

variable {ι : Type}

mutual

/-- equal leaves, and equal parts in the same order -/
def same [BEq ι] : Instrumentation ι → Instrumentation ι → Bool
  | .single a, .single b => a == b
  | .compound as, .compound bs => sameParts as bs
  | _, _ => false

def sameParts [BEq ι] : List (Instrumentation ι) → List (Instrumentation ι) → Bool
  | [], [] => true
  | a :: as, b :: bs => same a b && sameParts as bs
  | _, _ => false

end

instance [BEq ι] : BEq (Instrumentation ι) := ⟨same⟩

mutual

/-- the leaves from left to right -/
def leaves : Instrumentation ι → List ι
  | .single leaf => [leaf]
  | .compound parts => leavesOfParts parts

def leavesOfParts : List (Instrumentation ι) → List ι
  | [] => []
  | p :: ps => leaves p ++ leavesOfParts ps

end

mutual

/-- a compound announces itself and the number of its parts before them -/
def feedOf [HashFeed ι] : Instrumentation ι → List FeedItem
  | .single leaf => .number 0 :: feed leaf
  | .compound parts => .number 1 :: .number parts.length :: feedOfParts parts

def feedOfParts [HashFeed ι] : List (Instrumentation ι) → List FeedItem
  | [] => []
  | p :: ps => feedOf p ++ feedOfParts ps

end

instance [HashFeed ι] : HashFeed (Instrumentation ι) := ⟨feedOf⟩

/-- the parts that equal no earlier part -/
def distinctParts [BEq ι] (parts : List (Instrumentation ι)) : List (Instrumentation ι) := parts.eraseDups

section Operations

variable {α : Type} [Auxiliary α] [Instrument ι α]

mutual

/-- prepares a draft by the parts in order, up to the first that fails -/
def prepare : Instrumentation ι → TypeDraft → Except Error TypeDraft
  | .single leaf, draft => Instrument.prepare leaf draft
  | .compound parts, draft => prepareParts parts draft

def prepareParts : List (Instrumentation ι) → TypeDraft → Except Error TypeDraft
  | [], draft => .ok draft
  | p :: ps, draft => do prepareParts ps (← prepare p draft)

end

mutual

/-- the appender for a planner, or the first part's failure to provide one -/
def appender : Instrumentation ι → Planner → Except Error (Appender α)
  | .single leaf, planner => Instrument.appender leaf planner
  | .compound parts, planner => return .sequence (← appenders parts planner)

def appenders : List (Instrumentation ι) → Planner → Except Error (List (Appender α))
  | [], _ => .ok []
  | p :: ps, planner => do
    let a ← appender p planner
    return a :: (← appenders ps planner)

end

end Operations

end Instrumentation

end CallPlan
