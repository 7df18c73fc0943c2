/-
What upper layers can and cannot change.

An upper layer may declare any name that nothing below it declares, also one that types below it mention. What is
found under a name stays found, so every path over parents stays a path and assignability only grows. It grows for
types with an unknown name above them, and for no others: a type that has only declared names above it is described
from upper layers as it always was.

- `Pool.ExtendedBy`: whatever one pool finds the other one finds too;
- `isAssignable_mono`: in the larger pool nothing stops being assignable;
- `KnownType.Grounded`: only declared names above the type, which makes its descriptions the same above;
- `layering_conservative`: both for every run of layers above a pool.
-/
import CallPlan.Proofs.Above
import CallPlan.Proofs.ElementTypes
import CallPlan.Proofs.Layers

namespace CallPlan

open Relation

namespace Pool

variable {p q : Pool}

/-! ## Larger pools -/

/-- what `p` finds under a name is what `q` finds under it -/
def ExtendedBy (p q : Pool) : Prop := ∀ n d, p.find? n = some d → q.find? n = some d

theorem ExtendedBy.parent (h : p.ExtendedBy q) {a b : String} (hab : p.Parent a b) : q.Parent a b := by
  obtain ⟨d, hd, hb⟩ := parent_iff.1 hab
  exact parent_iff.2 ⟨d, h a d hd, hb⟩

theorem ExtendedBy.fitsElementwise (h : p.ExtendedBy q) {s t : FieldType} (hst : p.FitsElementwise s t) :
    q.FitsElementwise s t := by
  rcases hst with hbases | ⟨hdim, a, b, ha, hb, habove⟩ | hlonger
  · exact Or.inl hbases
  · have habove : b = a ∨ b = PlatformName.object ∨ TransGen q.Parent a b :=
      habove.imp_right (Or.imp_right (TransGen.mono (fun _ _ => h.parent) a b))
    exact Or.inr (Or.inl ⟨hdim, a, b, ha, hb, habove⟩)
  · exact Or.inr (Or.inr hlonger)

/-- **Assignability grows with the pool.** -/
theorem isAssignable_mono (h : p.ExtendedBy q) {s t : FieldType} (hst : p.isAssignable s t = true) :
    q.isAssignable s t = true :=
  isAssignable_iff_fitsElementwise.2 (h.fitsElementwise (isAssignable_iff_fitsElementwise.1 hst))

/-- arrays of a name are assigned alike where the name has the same supertypes -/
theorem isAssignable_nested_congr {name : String} (h : ∀ b, p.isSubtype name b = q.isSubtype name b) (k : Nat)
    (b : FieldType) :
    p.isAssignable ((FieldType.object name).nested k) b = q.isAssignable ((FieldType.object name).nested k) b := by
  induction k generalizing b with
  | zero =>
    cases b with
    | object b => exact h b
    | base b => rfl
    | array b => rfl
  | succ k ih =>
    have hsucc : (FieldType.object name).nested (k + 1) = .array ((FieldType.object name).nested k) := rfl
    cases b with
    | array b => rw [hsucc, isAssignable_array, isAssignable_array, ih]
    | base b => rw [hsucc, isAssignable.eq_def, isAssignable.eq_def]
    | object b => rw [hsucc, isAssignable.eq_def, isAssignable.eq_def]

end Pool

/-! ## Types with declared names above them -/

namespace KnownType

variable {t : KnownType} {q : Pool}

/-- every name that is reached from the type over parents is declared -/
def Grounded (t : KnownType) : Prop := ∀ n, TransGen t.pool.Parent t.name n → t.pool.contains n = true

theorem Grounded.find?_of_above (h : t.Grounded) {n : String} (hn : t.Above n) : ∃ d, t.pool.find? n = some d := by
  rcases reflTransGen_iff_eq_or_transGen.1 hn with rfl | hstrict
  · exact ⟨t.decl, t.known⟩
  · exact Option.isSome_iff_exists.1 (h n hstrict)

/-- declared names that hold all their parents ground the types they name -/
theorem grounded_of_closed (names : List String) (hname : t.name ∈ names)
    (hclosed : (names.all fun a => t.pool.contains a && (t.pool.parentsOf a).all names.contains) = true) :
    t.Grounded := by
  have hclosed : ∀ a ∈ names, t.pool.contains a = true ∧ ∀ b ∈ t.pool.parentsOf a, b ∈ names := by
    simpa using hclosed
  have hmem : ∀ n, TransGen t.pool.Parent t.name n → n ∈ names := by
    intro n hpath
    induction hpath with
    | single hstep => exact (hclosed _ hname).2 _ hstep
    | tail _ hstep ih => exact (hclosed _ ih).2 _ hstep
  exact fun n hpath => (hclosed n (hmem n hpath)).1

/-- a larger pool knows the type, and finds the same above it -/
theorem Grounded.exists_sameAbove (h : t.Grounded) (hq : t.pool.ExtendedBy q) :
    ∃ s, q.type? t.name = some s ∧ t.SameAbove s := by
  have hself : q.find? t.name = some t.decl := hq t.name t.decl t.known
  refine ⟨⟨q, t.decl, hself⟩, Pool.type?_eq_some_iff.2 ⟨rfl, hself⟩, rfl, fun n hn => ?_⟩
  obtain ⟨d, hd⟩ := h.find?_of_above hn
  exact hd.trans (hq n d hd).symm

end KnownType

/-! ## Layers above a pool -/

theorem PoolBuilder.extendedBy_run_above (p : Pool) (steps : List StackStep) :
    p.ExtendedBy ((PoolBuilder.above p).run steps).build := by
  intro n d hd
  refine find?_run_of_some ?_ steps
  rwa [Pool.find?, decls_build_above]

/-- **Layering is a conservative extension.** Let any declarations be asked for in any number of layers above a pool.
What could be assigned in the pool still can. A type of the pool with declared names above it is known in the upper
layers with the same declaration, the same methods and the same default methods, and it and its arrays are assigned to
the same types as before. -/
theorem layering_conservative (p : Pool) (steps : List StackStep) :
    (∀ a b, p.isAssignable a b = true → ((PoolBuilder.above p).run steps).build.isAssignable a b = true) ∧
    ∀ n t, p.type? n = some t → t.Grounded →
      (∃ s, ((PoolBuilder.above p).run steps).build.type? n = some s ∧ s.decl = t.decl ∧
        s.reachableMethods = t.reachableMethods ∧ s.defaultMethods.byName = t.defaultMethods.byName) ∧
      ∀ k b, ((PoolBuilder.above p).run steps).build.isAssignable (t.asFieldType.nested k) b =
        p.isAssignable (t.asFieldType.nested k) b := by
  have hext := PoolBuilder.extendedBy_run_above p steps
  refine ⟨fun a b => Pool.isAssignable_mono hext, fun n t ht hground => ?_⟩
  obtain ⟨rfl, hd⟩ := Pool.type?_eq_some_iff.1 ht
  have hname : t.name = n := Pool.find?_name hd
  obtain ⟨s, hs, hsame⟩ := hground.exists_sameAbove hext
  have hpool := (Pool.type?_eq_some_iff.1 hs).1
  refine ⟨⟨s, hname ▸ hs, hsame.decl.symm, hsame.reachableMethods_eq.symm, hsame.defaultMethods_eq.symm⟩, fun k b => ?_⟩
  refine (Pool.isAssignable_nested_congr (fun b => ?_) k b).symm
  rw [hsame.isSubtype_eq (KnownType.above_self t) b, hpool]

/-! ### A missing parent -/

namespace PoolBuilder

/-- a toy with declared names above it, and a dog that extends a class which nothing declares -/
def kennel : Pool := (minimalPlatform.run [
  .declare (.ofClass "pets/Toy" PlatformName.object), .declare (.ofClass "pets/Dog" "pets/Animal")]).build

/-- a layer that declares the missing class below the toy, and another one above it -/
def kennelLayers : List StackStep := [
  .declare (.ofClass "pets/Animal" "pets/Toy"), .openLayer, .declare (.ofClass "pets/Puppy" "pets/Dog")]

theorem grounded_of_kennel_toy {t : KnownType} (h : kennel.type? "pets/Toy" = some t) : t.Grounded := by
  obtain ⟨hpool, hd⟩ := Pool.type?_eq_some_iff.1 h
  have hname : t.name = "pets/Toy" := Pool.find?_name hd
  refine KnownType.grounded_of_closed ["pets/Toy", PlatformName.object] (by simp [hname]) ?_
  rw [hpool]
  decide +kernel

/-- the toy is in the upper layers what it was; the dog, whose super class was missing, becomes assignable to it -/
theorem kennel_layering :
    (∃ t, kennel.type? "pets/Toy" = some t ∧ t.Grounded ∧
      (∃ s, ((above kennel).run kennelLayers).build.type? "pets/Toy" = some s ∧ s.decl = t.decl ∧
        s.reachableMethods = t.reachableMethods ∧ s.defaultMethods.byName = t.defaultMethods.byName) ∧
      ∀ k b, ((above kennel).run kennelLayers).build.isAssignable (t.asFieldType.nested k) b =
        kennel.isAssignable (t.asFieldType.nested k) b) ∧
    kennel.isAssignable (.object "pets/Dog") (.object "pets/Animal") = true ∧
    ((above kennel).run kennelLayers).build.isAssignable (.object "pets/Dog") (.object "pets/Animal") = true ∧
    kennel.isAssignable (.object "pets/Dog") (.object "pets/Toy") = false ∧
    ((above kennel).run kennelLayers).build.isAssignable (.object "pets/Dog") (.object "pets/Toy") = true := by
  have hbefore : kennel.isAssignable (.object "pets/Dog") (.object "pets/Animal") = true := by decide +kernel
  obtain ⟨hmono, hkept⟩ := layering_conservative kennel kennelLayers
  obtain ⟨t, ht⟩ : ∃ t, kennel.type? "pets/Toy" = some t := Option.isSome_iff_exists.1 (by decide +kernel)
  have hground := grounded_of_kennel_toy ht
  refine ⟨⟨t, ht, hground, hkept _ t ht hground⟩, hbefore, hmono _ _ hbefore, ?_, ?_⟩
  · decide +kernel
  · decide +kernel

end PoolBuilder

end CallPlan
