/-
Assignability and bridge compatibility as orders.

Both are preorders once the platform is on top, which it is in every stack of layers on the minimal platform. In an
acyclic hierarchy types that can be assigned to each other are equal, and so are the tokens of methods that can stand
for each other: both orders are finer than the partial orders `Pool.Below` and `Pool.Narrows`.
-/
import CallPlan.Proofs.Layers
import CallPlan.Proofs.Narrowing

namespace CallPlan.Pool

open PoolBuilder (pets)

variable {p : Pool}

theorem isBridgeCompatible_refl (m : Method) : p.isBridgeCompatible m m = true :=
  isBridgeCompatible_iff.2 (.refl m.token)

theorem isBridgeCompatible_trans (h : p.PlatformOnTop) {wide middle narrow : Method}
    (hwide : p.isBridgeCompatible wide middle = true) (hnarrow : p.isBridgeCompatible middle narrow = true) :
    p.isBridgeCompatible wide narrow = true := by
  rw [isBridgeCompatible_iff] at hwide hnarrow ⊢
  exact hnarrow.trans h hwide

theorem isAssignable_antisymm (hroot : p.RootIsTop) (hac : p.Acyclic) {a b : FieldType}
    (hab : p.isAssignable a b = true) (hba : p.isAssignable b a = true) : a = b :=
  (below_of_isAssignable hab).antisymm hroot hac (below_of_isAssignable hba)

theorem token_eq_of_isBridgeCompatible (hroot : p.RootIsTop) (hac : p.Acyclic) {m n : Method}
    (hmn : p.isBridgeCompatible m n = true) (hnm : p.isBridgeCompatible n m = true) : m.token = n.token :=
  (narrows_of_isBridgeCompatible hnm).antisymm hroot hac (narrows_of_isBridgeCompatible hmn)

/-- **Assignability and bridge compatibility are preorders** when the platform is on top, as in every stack of layers on
the minimal platform, and partial orders of types and of tokens when the hierarchy is acyclic too. -/
theorem assignability_and_compatibility_order (p : Pool) :
    (∀ steps, p = (PoolBuilder.minimalPlatform.run steps).build → p.PlatformOnTop) ∧
    (p.PlatformOnTop →
      (∀ a, p.isAssignable a a = true) ∧
      (∀ a b c, p.isAssignable a b = true → p.isAssignable b c = true → p.isAssignable a c = true) ∧
      (∀ m, p.isBridgeCompatible m m = true) ∧
      (∀ l m n, p.isBridgeCompatible l m = true → p.isBridgeCompatible m n = true →
        p.isBridgeCompatible l n = true) ∧
      (p.Acyclic →
        (∀ a b, p.isAssignable a b = true → p.isAssignable b a = true → a = b) ∧
        (∀ m n, p.isBridgeCompatible m n = true → p.isBridgeCompatible n m = true → m.token = n.token))) := by
  constructor
  · rintro steps rfl
    exact PoolBuilder.platformOnTop_run steps
  · intro htop
    refine ⟨isAssignable_refl, fun a b c => isAssignable_trans htop, isBridgeCompatible_refl,
      fun l m n => isBridgeCompatible_trans htop, fun hac => ⟨fun a b => ?_, fun m n => ?_⟩⟩
    · exact isAssignable_antisymm htop.root hac
    · exact token_eq_of_isBridgeCompatible htop.root hac

/-- arrays of cats are serializable since arrays of animals are, and animals are not cats since cats are animals -/
theorem pets_order : pets.build.PlatformOnTop ∧ pets.build.Acyclic ∧
    pets.build.isAssignable (.array (.object "pets/Cat")) (.object PlatformName.serializable) = true ∧
    pets.build.isAssignable (.object "pets/Animal") (.object "pets/Cat") = false := by
  obtain ⟨hstack, horders⟩ := assignability_and_compatibility_order pets.build
  have htop : pets.build.PlatformOnTop := hstack _ rfl
  have hac : pets.build.Acyclic := .of_parentsFirst (by decide +kernel)
  obtain ⟨-, htrans, -, -, hpartial⟩ := horders htop
  have hcat : pets.build.isAssignable (.object "pets/Cat") (.object "pets/Animal") = true := by decide +kernel
  refine ⟨htop, hac, htrans _ (.array (.object "pets/Animal")) _ ?_ (by decide +kernel), ?_⟩
  · rw [isAssignable_array, hcat]
  · rw [Bool.eq_false_iff]
    intro hback
    exact absurd ((hpartial hac).1 _ _ hback hcat) (by decide)

end CallPlan.Pool
