/-
A bridge forwards to narrower signatures only.

What a bridge may forward to has the bridge's name and, position by position, types that can be assigned to the
bridge's. Assignability alone is not transitive in every pool, since an array is below `Cloneable` and `Serializable`
but not below what these may declare above them. `Pool.Below` mends this: it puts every array below every object
type. It is coarser than assignability and, when the root class has no parents and the hierarchy is acyclic, a
partial order on the types (`Below.trans`, `Below.antisymm`), hence on the tokens of methods (`Narrows`).

- `strictlyNarrows_of_candidate`: in a type without repeated tokens a bridge and its candidates differ in the token,
  so every step from a bridge to a candidate narrows the token strictly.
-/
import CallPlan.Bridge
import CallPlan.Proofs.Assignability
import Mathlib.Data.List.Nodup

namespace CallPlan.Pool

variable {p : Pool}

/-! ## Types -/

/-- assignability, but with every array below every object type -/
def Below (p : Pool) : FieldType → FieldType → Prop
  | .base a, .base b => a = b
  | .object a, .object b => p.isSubtype a b = true
  | .array _, .object _ => True
  | .array a, .array b => p.Below a b
  | _, _ => False

theorem below_of_isAssignable {a b : FieldType} (h : p.isAssignable a b = true) : p.Below a b := by
  induction a generalizing b with
  | base a => cases b <;> simp_all [isAssignable, Below]
  | object a => cases b <;> simp_all [isAssignable, Below]
  | array a ih =>
    cases b with
    | base b => simp [isAssignable] at h
    | object b => exact trivial
    | array b => exact ih (isAssignable_array a b ▸ h)

theorem Below.trans (hroot : p.RootIsTop) {a b c : FieldType} (hab : p.Below a b) (hbc : p.Below b c) :
    p.Below a c := by
  induction a generalizing b c with
  | base a =>
    cases b with
    | base b => exact (show a = b from hab) ▸ hbc
    | _ => exact absurd hab id
  | object a =>
    cases b with
    | object b =>
      cases c with
      | object c => exact isSubtype_trans hroot hab hbc
      | _ => exact absurd hbc id
    | _ => exact absurd hab id
  | array a ih =>
    cases c with
    | base c => cases b <;> first | exact absurd hab id | exact absurd hbc id
    | object c => exact trivial
    | array c =>
      cases b with
      | array b => exact ih hab hbc
      | _ => exact absurd hbc id

theorem Below.antisymm (hroot : p.RootIsTop) (hac : p.Acyclic) {a b : FieldType} (hab : p.Below a b)
    (hba : p.Below b a) : a = b := by
  induction a generalizing b with
  | base a =>
    cases b with
    | base b => exact congrArg FieldType.base hab
    | _ => exact absurd hab id
  | object a =>
    cases b with
    | object b => exact congrArg FieldType.object (isSubtype_antisymm hroot hac hab hba)
    | _ => exact absurd hab id
  | array a ih =>
    cases b with
    | array b => exact congrArg FieldType.array (ih hab hba)
    | _ => exact absurd hba id

/-! ## Results and tokens -/

/-- nothing is returned only where nothing is; a value where a wider one is -/
def BelowResult (p : Pool) : ReturnType → ReturnType → Prop
  | .void, .void => True
  | .value a, .value b => p.Below a b
  | _, _ => False

theorem BelowResult.trans (hroot : p.RootIsTop) {a b c : ReturnType} (hab : p.BelowResult a b)
    (hbc : p.BelowResult b c) : p.BelowResult a c := by
  cases b with
  | void =>
    cases a with
    | void => exact hbc
    | value a => exact absurd hab id
  | value b =>
    cases a with
    | void => exact absurd hab id
    | value a =>
      cases c with
      | void => exact absurd hbc id
      | value c => exact Below.trans hroot hab hbc

theorem BelowResult.antisymm (hroot : p.RootIsTop) (hac : p.Acyclic) {a b : ReturnType} (hab : p.BelowResult a b)
    (hba : p.BelowResult b a) : a = b := by
  cases a <;> cases b
  · rfl
  · exact absurd hab id
  · exact absurd hab id
  · exact congrArg ReturnType.value (Below.antisymm hroot hac hab hba)

/-- the types of one list stand below those of the other, position by position -/
abbrev BelowAll (p : Pool) : List FieldType → List FieldType → Prop := List.Forall₂ p.Below

theorem BelowAll.trans (hroot : p.RootIsTop) {as bs cs : List FieldType} (hab : p.BelowAll as bs)
    (hbc : p.BelowAll bs cs) : p.BelowAll as cs :=
  forall₂_trans (R := p.Below) (fun _ _ _ => Below.trans hroot) hab hbc

theorem BelowAll.antisymm (hroot : p.RootIsTop) (hac : p.Acyclic) {as bs : List FieldType} (hab : p.BelowAll as bs)
    (hba : p.BelowAll bs as) : as = bs := by
  induction hab with
  | nil => rfl
  | cons hab _ ih =>
    cases hba with
    | cons hba hrest => rw [hab.antisymm hroot hac hba, ih hrest]

/-- one name, and types that stand below those of `wide` -/
structure Narrows (p : Pool) (narrow wide : MethodToken) : Prop where
  name : narrow.name = wide.name
  parameters : p.BelowAll narrow.parameters wide.parameters
  result : p.BelowResult narrow.result wide.result

theorem Narrows.trans (hroot : p.RootIsTop) {a b c : MethodToken} (hab : p.Narrows a b) (hbc : p.Narrows b c) :
    p.Narrows a c :=
  ⟨hab.name.trans hbc.name, hab.parameters.trans hroot hbc.parameters, hab.result.trans hroot hbc.result⟩

theorem Narrows.antisymm (hroot : p.RootIsTop) (hac : p.Acyclic) {a b : MethodToken} (hab : p.Narrows a b)
    (hba : p.Narrows b a) : a = b := by
  obtain ⟨an, ar, ap⟩ := a
  obtain ⟨bn, br, bp⟩ := b
  obtain ⟨hname, hparams, hres⟩ := hab
  have hname : an = bn := hname
  have hparams : ap = bp := BelowAll.antisymm hroot hac hparams hba.parameters
  have hres : ar = br := BelowResult.antisymm hroot hac hres hba.result
  rw [hname, hparams, hres]

/-- what a bridge may forward to narrows its token -/
theorem narrows_of_isBridgeCompatible {bridge candidate : Method} (h : p.isBridgeCompatible bridge candidate = true) :
    p.Narrows candidate.token bridge.token := by
  obtain ⟨hname, hparams, hres⟩ := isBridgeCompatible_iff.1 h
  refine ⟨hname, hparams.imp fun _ _ => below_of_isAssignable, ?_⟩
  cases hb : bridge.token.result <;> cases hc : candidate.token.result <;> rw [hb, hc] at hres
  · exact trivial
  · exact absurd hres id
  · exact absurd hres id
  · exact below_of_isAssignable hres

/-! ## Strict narrowing -/

/-- narrower, and another token -/
def StrictlyNarrows (p : Pool) (narrow wide : MethodToken) : Prop := p.Narrows narrow wide ∧ narrow ≠ wide

theorem StrictlyNarrows.trans (hroot : p.RootIsTop) (hac : p.Acyclic) {a b c : MethodToken}
    (hab : p.StrictlyNarrows a b) (hbc : p.StrictlyNarrows b c) : p.StrictlyNarrows a c := by
  refine ⟨hab.1.trans hroot hbc.1, ?_⟩
  rintro rfl
  exact hab.2 (hab.1.antisymm hroot hac hbc.1)

/-- no declared type has two methods of one token -/
def TokensDistinct (p : Pool) : Prop :=
  ∀ name d, p.find? name = some d → (d.declaredMethods.map Method.token).Nodup

theorem TokensDistinct.of_decls (h : ∀ d ∈ p.decls, (d.declaredMethods.map Method.token).Nodup) :
    p.TokensDistinct :=
  fun _ d hd => h d (mem_of_find? hd)

/-- two methods of one type and one token are the same method -/
theorem TokensDistinct.eq_of_token_eq (h : p.TokensDistinct) {name : String} {d : TypeDecl} {m n : Method}
    (hd : p.find? name = some d) (hm : m ∈ d.declaredMethods) (hn : n ∈ d.declaredMethods)
    (heq : m.token = n.token) : m = n :=
  List.inj_on_of_nodup_map (h name d hd) hm hn heq

theorem mem_bridgeCandidates {b c : Method} :
    c ∈ bridgeCandidates p b ↔ ∃ d, p.find? b.owner = some d ∧ c ∈ d.declaredMethods ∧ c.isBridge = false ∧
      p.isBridgeCompatible b c = true := by
  unfold bridgeCandidates
  cases h : p.find? b.owner with
  | none => simp
  | some d => simp [List.mem_filter]

/-- **Strict narrowing.** A declared bridge forwards only to methods whose tokens are strictly narrower. -/
theorem strictlyNarrows_of_candidate (htok : p.TokensDistinct) {b c : Method} {d : TypeDecl}
    (hd : p.find? b.owner = some d) (hb : b ∈ d.declaredMethods) (hbridge : b.isBridge = true)
    (hc : c ∈ bridgeCandidates p b) : p.StrictlyNarrows c.token b.token := by
  obtain ⟨d', hd', hmem, hplain, hcompat⟩ := mem_bridgeCandidates.1 hc
  obtain rfl : d = d' := Option.some.inj (hd.symm.trans hd')
  refine ⟨narrows_of_isBridgeCompatible hcompat, fun heq => ?_⟩
  -- equal tokens in one type mean one method, which is a bridge on one side and none on the other
  rw [htok.eq_of_token_eq hd hmem hb heq, hbridge] at hplain
  exact absurd hplain (by decide)

/-! ## A check for orderly pools -/

/-- whether parents are declared first, the root class has none, and no declaration repeats a token -/
def isOrderly (p : Pool) : Bool :=
  p.parentsFirst && p.parentsOf PlatformName.object == [] &&
    p.decls.all fun d => decide (d.declaredMethods.map Method.token).Nodup

/-- orderly pools meet every condition that resolution puts on a hierarchy -/
theorem isOrderly_sound (h : p.isOrderly = true) : p.Acyclic ∧ p.RootIsTop ∧ p.TokensDistinct := by
  rw [isOrderly, Bool.and_eq_true, Bool.and_eq_true, beq_iff_eq, List.all_eq_true] at h
  obtain ⟨⟨hfirst, hroot⟩, htokens⟩ := h
  exact ⟨.of_parentsFirst hfirst, hroot, .of_decls fun d hd => of_decide_eq_true (htokens d hd)⟩

end CallPlan.Pool
