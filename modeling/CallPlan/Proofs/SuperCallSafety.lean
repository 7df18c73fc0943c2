/-
What a legal super call can name.

Legality is checked for the method found, against the pool and the super class. Two things are not checked and follow
from the hierarchy: in an acyclic one whose root class has no super class a method of the type itself is never called,
and what is found for the super type is never a constructor, because constructors are not inherited and bridges
forward to methods of their own name next to them.

- `owner_ne_of_superCallable`: a type does not declare what it may call on its super class;
- `superCall_safe`: both for every planner that is made for a type, and which methods can be called exactly.
-/
import CallPlan.Proofs.Linkage

namespace CallPlan

namespace Planner

variable {t s : KnownType} {m r : Method}

/-! ## A type's own methods -/

/-- **A type does not declare what it may call on its super class**, unless the hierarchy has a cycle or the root class
has a super class. -/
theorem owner_ne_of_superCallable (hac : t.pool.Acyclic)
    (hroot : ∀ d, t.pool.find? PlatformName.object = some d → d.superName = none) (hs : t.superClass? = some s)
    (h : SuperCallable t s m) : m.owner ≠ t.name := by
  intro hown
  have hsub := h.assignable
  obtain ⟨hsuper, hpool⟩ := KnownType.superClass?_eq_some hs
  rw [hpool, hown, Pool.isSubtype_iff] at hsub
  rcases hsub with hobject | hpath
  · have hnone : t.decl.superName = none := hroot t.decl (hobject ▸ t.known)
    exact absurd (hsuper.symm.trans hnone) (by simp)
  · exact hac t.name (.head' (KnownType.parent_of_superClass? hs) hpath)

/-! ## Constructors -/

/-- what is reached and declared by another type is inherited, and so no constructor -/
theorem not_constructor_of_reachable (hm : m ∈ t.reachableMethods) (hown : m.owner ≠ t.name) :
    m.isConstructor = false := by
  rcases KnownType.mem_reachableMethods.1 hm with hdeclared | ⟨-, hfirst⟩
  · exact absurd (mem_declaredMethods hdeclared).1 hown
  · obtain ⟨-, -, -, -, hinh⟩ := KnownType.owner_of_inheritable (List.mem_of_find?_eq_some hfirst)
    exact (Method.isInheritable_iff.1 hinh).1

/-- a bridge forwards to methods of its name, declared where it is -/
theorem not_constructor_of_offers (h : t.Offers m) (hown : m.owner ≠ t.name) : m.isConstructor = false := by
  rcases h with hreach | ⟨b, hb, hc⟩
  · exact not_constructor_of_reachable hreach hown
  · obtain ⟨-, -, -, -, hcompatible⟩ := Pool.mem_bridgeCandidates.1 hc
    have howner : m.owner = b.owner := KnownType.owner_of_mem_bridgeCandidates hc
    have hname : m.name = b.name := (Pool.isBridgeCompatible_iff.1 hcompatible).name
    have hbridge := not_constructor_of_reachable (KnownType.mem_reachableBridges.1 hb).1 (howner ▸ hown)
    rwa [Method.isConstructor, hname]

/-! ## Main result -/

/-- a method that may be called is called when it is asked for itself -/
theorem superCall_exact_eq {p : Planner} (htype : p.type = t) (hs : t.superClass? = some s)
    (h : SuperCallable t s m) : p.superCall m .exact = .ok (.legal m s) := by
  subst htype
  exact congrArg Except.ok (callOnSuper_eq_legal_iff.2 ⟨rfl, hs, h⟩)

/-- **Super calls are safe.** In an acyclic hierarchy whose root class has no super class, a legal call of either
look-up is made on the direct super class and names what may be called there, which the type itself does not declare.
What is found for the super type is no constructor. A method that is asked for itself is the one called, and it is
called whenever it may be. -/
theorem superCall_safe (t : KnownType) (hac : t.pool.Acyclic)
    (hroot : ∀ d, t.pool.find? PlatformName.object = some d → d.superName = none) (strategy : BridgeStrategy)
    (p : Planner) (hp : make strategy (.ofType t) = .ok p) (m : Method) :
    (∀ lookup r on, p.superCall m lookup = .ok (.legal r on) →
      t.superClass? = some on ∧ SuperCallable t on r ∧ r.owner ≠ t.name ∧
      (lookup = .superType → r.isConstructor = false) ∧ (lookup = .exact → r = m)) ∧
    ∀ s, t.superClass? = some s → SuperCallable t s m → p.superCall m .exact = .ok (.legal m s) := by
  have htype : p.type = t := (make_eq_ok hp).1
  refine ⟨fun lookup r on hcall => ?_, fun s => superCall_exact_eq htype⟩
  obtain ⟨hlook, hsuper, hmay⟩ := superCall_eq_legal hcall
  rw [htype] at hsuper hmay
  have hcallable := maySuperCall_iff.1 hmay
  have hown := owner_ne_of_superCallable hac hroot hsuper hcallable
  refine ⟨hsuper, hcallable, hown, ?_, ?_⟩
  · rintro rfl
    exact not_constructor_of_offers (offers_of_lookUp hp hlook) hown
  · rintro rfl
    exact (Option.some.inj (Except.ok.inj hlook)).symm

/-- the bridge of a covariant override leads to a call of the override on the super class, which declares both -/
theorem covariant_superCall_safe : ∃ t s p,
    Samples.covariant >>= (Samples.generatedSubclass · Samples.childName) = .ok t ∧ t.pool.Acyclic ∧
    (∀ d, t.pool.find? PlatformName.object = some d → d.superName = none) ∧
    make .default (.ofType t) = .ok p ∧
    p.superCall Samples.childBridge .superType = .ok (.legal Samples.childGet s) ∧
    t.superClass? = some s ∧ SuperCallable t s Samples.childGet ∧ Samples.childGet.owner ≠ t.name ∧
    Samples.childGet.isConstructor = false ∧ p.superCall Samples.childGet .exact = .ok (.legal Samples.childGet s) := by
  obtain ⟨t, s, p, ht, hac, -, hs, hp, hcall, -⟩ := exists_legal_call
    (x := Samples.covariant >>= (Samples.generatedSubclass · Samples.childName))
    (m := Samples.childBridge) (r := Samples.childGet) (n := Samples.childGet)
    (by decide +kernel)
  obtain ⟨t', ht', hroot⟩ := exists_ok_of_any
    (x := Samples.covariant >>= (Samples.generatedSubclass · Samples.childName))
    (f := fun t => decide (t.pool.find? PlatformName.object = some PlatformType.objectClass)) (by decide +kernel)
  obtain rfl : t = t' := Except.ok.inj (ht.symm.trans ht')
  have hroot : ∀ d, t.pool.find? PlatformName.object = some d → d.superName = none := by
    intro d hd
    obtain rfl := Option.some.inj ((of_decide_eq_true hroot).symm.trans hd)
    rfl
  obtain ⟨hsafe, -⟩ := superCall_safe t hac hroot .default p hp Samples.childBridge
  obtain ⟨-, hcallable, hown, hconstructor, -⟩ := hsafe .superType _ s hcall
  obtain ⟨-, hexact⟩ := superCall_safe t hac hroot .default p hp Samples.childGet
  exact ⟨t, s, p, ht, hac, hroot, hp, hcall, hs, hcallable, hown, hconstructor rfl, hexact s hs hcallable⟩

end Planner

end CallPlan
