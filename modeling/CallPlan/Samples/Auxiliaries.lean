/-
Auxiliary types to fill a registry with: one that only carries a tag, one that can never be made, and one with a
given super type and methods. As dynamic values they are made as they are by themselves.
-/
import CallPlan.Samples.Instrumentations

namespace CallPlan.Samples

inductive SampleAuxiliary where
  /-- a subclass of the root class with the tag as an initializer -/
  | tagged (tag : String)
  /-- asks for a super class that no pool of samples has -/
  | missingSuper
  /-- a subclass with methods, given by name, descriptor text and flags -/
  | declaring (superName : String) (methods : List (String × String × AccessFlags))
deriving DecidableEq, Repr

namespace SampleAuxiliary

def missingSuperName : String := "fixture/Missing"

/-- the draft of the type under the given name, its super class looked up in `pool` -/
def draft (name : String) (pool : Pool) : SampleAuxiliary → Except Error TypeDraft
  | .tagged tag => return (← TypeDraft.extending name (← pool.type PlatformName.object)).addInitializer tag
  | .missingSuper => do TypeDraft.extending name (← pool.type missingSuperName)
  | .declaring superName methods => do
    let start ← TypeDraft.extending name (← pool.type superName)
    methods.foldlM (fun d (name, descriptor, flags) => do d.addMethod name (← MethodDescriptor.parse descriptor) flags)
      start

instance : Auxiliary SampleAuxiliary where
  make aux name instrumented := do
    AuxiliaryType.ofDraft (← aux.draft name instrumented.pool) instrumented.pool

end SampleAuxiliary

/-! ## Samples as dynamic values -/

/-- the types of the samples -/
inductive AuxiliaryKind where
  | tagged
  | missingSuper
  | declaring
deriving DecidableEq

instance : HashFeed AuxiliaryKind := ⟨fun k => [.number k.ctorIdx]⟩

namespace AuxiliaryKind

def Value : AuxiliaryKind → Type
  | tagged => String
  | missingSuper => Unit
  | declaring => String × List (String × String × AccessFlags)

instance : ∀ k : AuxiliaryKind, DecidableEq k.Value
  | tagged => inferInstanceAs (DecidableEq String)
  | missingSuper => inferInstanceAs (DecidableEq Unit)
  | declaring => inferInstanceAs (DecidableEq (String × List (String × String × AccessFlags)))

instance : ∀ k : AuxiliaryKind, HashFeed k.Value
  | tagged => inferInstanceAs (HashFeed String)
  | missingSuper => ⟨fun _ => []⟩
  | declaring => ⟨fun (superName, methods) => feed superName ++ .number methods.length ::
      methods.flatMap fun (name, descriptor, flags) => feed name ++ feed descriptor ++ feed flags⟩

end AuxiliaryKind

/-- the sample of this kind and value -/
def SampleAuxiliary.ofValue : (k : AuxiliaryKind) → k.Value → SampleAuxiliary
  | .tagged, tag => .tagged tag
  | .missingSuper, _ => .missingSuper
  | .declaring, (superName, methods) => .declaring superName methods

instance (k : AuxiliaryKind) : Auxiliary k.Value where
  make v := Auxiliary.make (SampleAuxiliary.ofValue k v)

instance : Instrument SampleInstrumentation SampleAuxiliary where
  prepare := SampleInstrumentation.prepare
  appender := SampleInstrumentation.appender

end CallPlan.Samples
