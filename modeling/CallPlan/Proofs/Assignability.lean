/-
Assignability as an order, and what it makes of bridges.

Every type can be assigned to itself. Assignability is transitive as soon as the types that arrays are below, the root
class, `Cloneable` and `Serializable`, have no parents (`Pool.PlatformOnTop`): otherwise an array could be assigned to
`Cloneable` and not to what is above it.

What a bridge may forward to has the bridge's name and, position by position, types that can be assigned to the
bridge's. This depends on the two tokens only: `isBridgeCompatible_iff` turns the test into a relation on tokens,
`Pool.Refines`, which is reflexive and, with the platform on top, transitive.
-/
import CallPlan.Proofs.Subtyping
import Mathlib.Data.List.Forall2

namespace CallPlan

/-- relating two lists position by position is transitive when relating two elements is -/
theorem forall₂_trans {α : Type} {R : α → α → Prop} (htrans : ∀ a b c, R a b → R b c → R a c) {as bs cs : List α}
    (hab : List.Forall₂ R as bs) (hbc : List.Forall₂ R bs cs) : List.Forall₂ R as cs := by
  induction hab generalizing cs with
  | nil => exact hbc
  | cons hab _ ih =>
    cases hbc with
    | cons hbc hrest => exact .cons (htrans _ _ _ hab hbc) (ih hrest)

namespace Pool

variable {p : Pool}

/-! ## Types -/

/-- the types that every array is below have no parents themselves -/
structure PlatformOnTop (p : Pool) : Prop where
  root : p.RootIsTop
  cloneable : p.parentsOf PlatformName.cloneable = []
  serializable : p.parentsOf PlatformName.serializable = []

instance : Decidable p.PlatformOnTop :=
  decidable_of_iff
    (p.parentsOf PlatformName.object = [] ∧ p.parentsOf PlatformName.cloneable = [] ∧
      p.parentsOf PlatformName.serializable = [])
    ⟨fun ⟨hroot, hclone, hserial⟩ => ⟨hroot, hclone, hserial⟩, fun h => ⟨h.root, h.cloneable, h.serializable⟩⟩

theorem isArraySupertype_iff {name : String} : isArraySupertype name = true ↔
    name = PlatformName.object ∨ name = PlatformName.cloneable ∨ name = PlatformName.serializable := by
  simp [isArraySupertype, or_assoc]

theorem PlatformOnTop.parentsOf_eq_nil (h : p.PlatformOnTop) {name : String} (hname : isArraySupertype name = true) :
    p.parentsOf name = [] := by
  rcases isArraySupertype_iff.1 hname with rfl | rfl | rfl
  · exact h.root
  · exact h.cloneable
  · exact h.serializable

/-- with the platform on top, only types that arrays are below are above one of them -/
theorem PlatformOnTop.isArraySupertype_of_isSubtype (h : p.PlatformOnTop) {a b : String}
    (ha : isArraySupertype a = true) (hab : p.isSubtype a b = true) : isArraySupertype b = true := by
  rcases isSubtype_iff.1 hab with hb | hpath
  · exact isArraySupertype_iff.2 (Or.inl hb)
  · rwa [eq_of_path_of_parentsOf_eq_nil (h.parentsOf_eq_nil ha) hpath]

/-- arrays are assigned by their components, whatever these are -/
theorem isAssignable_array (a b : FieldType) : p.isAssignable (.array a) (.array b) = p.isAssignable a b := by
  cases a <;> cases b <;> simp [isAssignable]

/-- pools in which every name has the same parents assign alike -/
theorem isAssignable_congr {q : Pool} (h : ∀ n, p.parentsOf n = q.parentsOf n) (a b : FieldType) :
    p.isAssignable a b = q.isAssignable a b := by
  induction a generalizing b with
  | base a => cases b <;> rfl
  | object a =>
    cases b with
    | object b => exact isSubtype_congr h a b
    | _ => rfl
  | array a ih =>
    cases b with
    | array b => rw [isAssignable_array, isAssignable_array, ih]
    | _ => cases a <;> rfl

theorem isAssignable_refl (a : FieldType) : p.isAssignable a a = true := by
  induction a with
  | base a => simp [isAssignable]
  | object a => exact isSubtype_refl a
  | array a ih => rw [isAssignable_array, ih]

/-- **Assignability is transitive** when the platform is on top. -/
theorem isAssignable_trans (h : p.PlatformOnTop) {a b c : FieldType} (hab : p.isAssignable a b = true)
    (hbc : p.isAssignable b c = true) : p.isAssignable a c = true := by
  induction a generalizing b c with
  | base a =>
    cases b with
    | base b =>
      obtain rfl : a = b := by simpa [isAssignable] using hab
      exact hbc
    | _ => exact absurd hab (by simp [isAssignable])
  | object a =>
    cases b with
    | object b =>
      cases c with
      | object c => exact isSubtype_trans h.root hab hbc
      | _ => exact absurd hbc (by simp [isAssignable])
    | _ => exact absurd hab (by simp [isAssignable])
  | array a ih =>
    cases b with
    | base b => exact absurd hab (by simp [isAssignable])
    | object b =>
      cases c with
      | object c =>
        have hb : isArraySupertype b = true := by simpa [isAssignable] using hab
        simpa [isAssignable] using h.isArraySupertype_of_isSubtype hb hbc
      | _ => exact absurd hbc (by simp [isAssignable])
    | array b =>
      cases c with
      | base c => exact absurd hbc (by simp [isAssignable])
      | object c => simpa [isAssignable] using hbc
      | array c =>
        rw [isAssignable_array] at hab hbc ⊢
        exact ih hab hbc

/-! ## Tokens -/

/-- a value where a wider one is returned, and nothing only where nothing is -/
def RefinesResult (p : Pool) : ReturnType → ReturnType → Prop
  | .void, .void => True
  | .value a, .value b => p.isAssignable a b = true
  | _, _ => False

/-- one name and one number of parameters, and types that can be assigned to those of `wide` -/
structure Refines (p : Pool) (narrow wide : MethodToken) : Prop where
  name : narrow.name = wide.name
  parameters : List.Forall₂ (fun a b => p.isAssignable a b = true) narrow.parameters wide.parameters
  result : p.RefinesResult narrow.result wide.result

/-- the test on the parameters, pair by pair -/
theorem all_zip_iff {narrow wide : List FieldType} :
    narrow.length = wide.length ∧ (∀ x ∈ wide.zip narrow, p.isAssignable x.2 x.1 = true) ↔
      List.Forall₂ (fun a b => p.isAssignable a b = true) narrow wide := by
  constructor
  · rintro ⟨hlen, hall⟩
    have hwide : List.Forall₂ (fun b a => p.isAssignable a b = true) wide narrow :=
      List.forall₂_iff_zip.2 ⟨hlen.symm, fun {b a} hzip => hall (b, a) hzip⟩
    exact hwide.flip
  · intro h
    obtain ⟨hlen, hall⟩ := List.forall₂_iff_zip.1 h.flip
    exact ⟨hlen.symm, fun x hx => hall hx⟩

/-- **What a bridge may forward to refines its token**, and nothing else matters. -/
theorem isBridgeCompatible_iff {wide narrow : Method} :
    p.isBridgeCompatible wide narrow = true ↔ p.Refines narrow.token wide.token := by
  simp only [isBridgeCompatible, Bool.and_eq_true, beq_iff_eq, List.all_eq_true, and_assoc]
  rw [← and_assoc (a := narrow.parameters.length = wide.parameters.length), all_zip_iff]
  constructor
  · rintro ⟨hname, hparams, hres⟩
    refine ⟨hname, hparams, ?_⟩
    show p.RefinesResult narrow.result wide.result
    cases hw : wide.result <;> cases hn : narrow.result <;> simp_all [RefinesResult]
  · rintro ⟨hname, hparams, hres⟩
    refine ⟨hname, hparams, ?_⟩
    have hres : p.RefinesResult narrow.result wide.result := hres
    cases hw : wide.result <;> cases hn : narrow.result <;> simp_all [RefinesResult]

theorem Refines.refl (token : MethodToken) : p.Refines token token := by
  refine ⟨rfl, List.forall₂_same.2 fun a _ => isAssignable_refl a, ?_⟩
  cases token.result with
  | void => exact trivial
  | value a => exact isAssignable_refl a

theorem RefinesResult.trans (h : p.PlatformOnTop) {a b c : ReturnType} (hab : p.RefinesResult a b)
    (hbc : p.RefinesResult b c) : p.RefinesResult a c := by
  cases b with
  | void =>
    cases a with
    | void => exact hbc
    | value a => exact absurd hab id
  | value b =>
    cases a with
    | void => exact absurd hab id
    | value a =>
      cases c with
      | void => exact absurd hbc id
      | value c => exact isAssignable_trans h hab hbc

theorem Refines.trans (h : p.PlatformOnTop) {a b c : MethodToken} (hab : p.Refines a b) (hbc : p.Refines b c) :
    p.Refines a c :=
  ⟨hab.name.trans hbc.name,
    forall₂_trans (R := fun a b => p.isAssignable a b = true) (fun _ _ _ => isAssignable_trans h) hab.parameters
      hbc.parameters,
    hab.result.trans h hbc.result⟩

end Pool

end CallPlan
