/-
Assignability in closed form.

A field type is an element type under a number of array brackets. Arrays are assigned by their components, so the
brackets that two types have in common are taken away in pairs. In the end two elements are compared, or what is left
of an array meets an element, which has to be one of the types that every array is below.

- `isAssignable_closed_form`: assignability compares the numbers of brackets and, for object types, asks for a path in
  the graph of parents; an unknown name can be assigned to itself and the root class only.
-/
import CallPlan.Proofs.Assignability

namespace CallPlan

/-! ## Dimensions and elements -/

namespace FieldType

/-- a type is its element under its brackets -/
theorem nested_element (t : FieldType) : t.element.nested t.dimensions = t := by
  induction t with
  | base b => rfl
  | object name => rfl
  | array component ih => exact congrArg FieldType.array ih

theorem element_ne_array (t component : FieldType) : t.element ≠ .array component := by
  induction t with
  | base b => simp [element]
  | object name => simp [element]
  | array inner ih => exact ih

end FieldType

namespace Pool

open Relation

variable {p : Pool}

/-! ## Elements -/

/-- what one object type is assigned to, its own name and the root class set apart from what is above it -/
theorem isAssignable_object_iff {a b : String} : p.isAssignable (.object a) (.object b) = true ↔
    b = a ∨ b = PlatformName.object ∨ TransGen p.Parent a b := by
  rw [isAssignable, isSubtype_iff, reflTransGen_iff_eq_or_transGen]
  exact or_left_comm

theorem isAssignable_array_object_iff {component : FieldType} {b : String} :
    p.isAssignable (.array component) (.object b) = true ↔
      b = PlatformName.object ∨ b = PlatformName.cloneable ∨ b = PlatformName.serializable := by
  rw [← isArraySupertype_iff, isAssignable]

/-! ## Any number of brackets -/

/-- how types are assigned, by the numbers of their brackets and by their elements -/
def FitsElementwise (p : Pool) (s t : FieldType) : Prop :=
  (s.dimensions = t.dimensions ∧ ∃ b, s.element = .base b ∧ t.element = .base b) ∨
    (s.dimensions = t.dimensions ∧ ∃ a b, s.element = .object a ∧ t.element = .object b ∧
      (b = a ∨ b = PlatformName.object ∨ TransGen p.Parent a b)) ∨
    (t.dimensions < s.dimensions ∧ ∃ b, t.element = .object b ∧
      (b = PlatformName.object ∨ b = PlatformName.cloneable ∨ b = PlatformName.serializable))

/-- one more bracket on both sides changes nothing -/
theorem fitsElementwise_array {s t : FieldType} :
    p.FitsElementwise (.array s) (.array t) ↔ p.FitsElementwise s t := by
  simp only [FitsElementwise, FieldType.dimensions, FieldType.element, Nat.add_right_cancel_iff,
    Nat.add_lt_add_iff_right]

theorem isAssignable_iff_fitsElementwise {s t : FieldType} :
    p.isAssignable s t = true ↔ p.FitsElementwise s t := by
  induction s generalizing t with
  | base a =>
    cases t with
    | base b =>
      rw [isAssignable, beq_iff_eq]
      constructor
      · rintro rfl
        exact Or.inl ⟨rfl, a, rfl, rfl⟩
      · rintro (⟨-, c, ha, hb⟩ | ⟨-, c, d, ha, -⟩ | ⟨hlt, -⟩)
        · exact FieldType.base.inj (ha.trans hb.symm)
        · exact absurd ha (by simp [FieldType.element])
        · exact absurd hlt (Nat.lt_irrefl 0)
    | object b => simp [isAssignable, FitsElementwise, FieldType.dimensions, FieldType.element]
    | array b => simp [isAssignable, FitsElementwise, FieldType.dimensions, FieldType.element]
  | object a =>
    cases t with
    | base b => simp [isAssignable, FitsElementwise, FieldType.dimensions, FieldType.element]
    | object b =>
      rw [isAssignable_object_iff]
      simp [FitsElementwise, FieldType.dimensions, FieldType.element]
    | array b => simp [isAssignable, FitsElementwise, FieldType.dimensions, FieldType.element]
  | array a ih =>
    cases t with
    | base b => simp [isAssignable, FitsElementwise, FieldType.dimensions, FieldType.element]
    | object b =>
      rw [isAssignable_array_object_iff]
      simp [FitsElementwise, FieldType.dimensions, FieldType.element]
    | array b => rw [isAssignable_array, fitsElementwise_array, ih]

/-- a name that the pool does not declare has nothing above it -/
theorem not_transGen_of_unknown {a b : String} (h : p.find? a = none) : ¬ TransGen p.Parent a b := by
  intro hpath
  obtain ⟨c, hstep, -⟩ := TransGen.head'_iff.1 hpath
  obtain ⟨d, hd, -⟩ := parent_iff.1 hstep
  exact absurd (h.symm.trans hd) (by simp)

theorem isAssignable_of_unknown {name : String} (h : p.find? name = none) {t : FieldType} :
    p.isAssignable (.object name) t = true ↔ t = .object name ∨ t = .object PlatformName.object := by
  cases t with
  | base b => simp [isAssignable]
  | array b => simp [isAssignable]
  | object b =>
    rw [isAssignable_object_iff, FieldType.object.injEq, FieldType.object.injEq]
    simp only [not_transGen_of_unknown h, or_false]

/-- **Assignability in closed form**, in any hierarchy: cyclic, with unknown names, of any number of layers. A type is
assigned to another one iff the two fit by their brackets and elements, which determine a type. A name that the pool
does not declare is assigned to itself and to the root class only. -/
theorem isAssignable_closed_form (p : Pool) :
    (∀ s t : FieldType, p.isAssignable s t = true ↔ p.FitsElementwise s t) ∧
    (∀ t : FieldType, t.element.nested t.dimensions = t ∧ ∀ component, t.element ≠ .array component) ∧
    ∀ name, p.find? name = none → ∀ t,
      (p.isAssignable (.object name) t = true ↔ t = .object name ∨ t = .object PlatformName.object) := by
  refine ⟨fun s t => isAssignable_iff_fitsElementwise, fun t => ?_, fun name hname t => isAssignable_of_unknown hname⟩
  exact ⟨t.nested_element, t.element_ne_array⟩

/-- two classes above each other, one in a layer above the other, and an interface that nothing declares -/
def knot : Pool := ⟨[
  [{ TypeDecl.ofClass "knot/Upper" "knot/Lower" with interfaces := ["knot/Missing"] }],
  [TypeDecl.ofClass "knot/Lower" "knot/Upper"]]⟩

/-- in the knot an array reaches the unknown interface through the other layer, which nothing leads back from -/
theorem knot_assignability :
    knot.find? "knot/Missing" = none ∧
    knot.isAssignable (.array (.object "knot/Lower")) (.array (.object "knot/Missing")) = true ∧
    knot.isAssignable (.object "knot/Missing") (.object "knot/Lower") = false := by
  have hmissing : knot.find? "knot/Missing" = none := by decide
  have hpath : TransGen knot.Parent "knot/Lower" "knot/Missing" :=
    .head (show "knot/Upper" ∈ knot.parentsOf "knot/Lower" by decide)
      (.single (show "knot/Missing" ∈ knot.parentsOf "knot/Upper" by decide))
  obtain ⟨hclosed, -, hunknown⟩ := isAssignable_closed_form knot
  refine ⟨hmissing, (hclosed _ _).2 (Or.inr (Or.inl ⟨rfl, _, _, rfl, rfl, Or.inr (Or.inr hpath)⟩)), ?_⟩
  rw [Bool.eq_false_iff, Ne, hunknown _ hmissing]
  decide

end Pool

end CallPlan
