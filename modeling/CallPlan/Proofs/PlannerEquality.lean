/-
What equal planners have in common.

Planners are compared by the name of their type, their default methods, their strategy and their bridges. Tables that
agree find the same under every key, so equal planners give the same answer to every call of a default method and
resolve every method alike. The pool behind the type and the methods indexed for super calls are not compared: types
of one name in different layers can have equal planners, only one of which can make a super call.

- `defaultCall_congr`, `resolveBridge_congr`: what the compared parts determine;
- `equal_planners_answers`: what equal planners answer and resolve, and when their super calls are equal;
- `equal_planners_differ`: equal planners with different super calls.
-/
import CallPlan.Proofs.Competition
import CallPlan.Proofs.Extension
import CallPlan.Proofs.SuperCallSafety

namespace CallPlan

/-! ## Resolution -/

/-- resolution depends on the look-ups only -/
theorem BridgeResolver.follow_congr {index index' : BridgeIndex} (h : ∀ token, index.find? token = index'.find? token)
    (start : Method) (passed : List Method) (current : Method) (n : Nat) :
    follow index start passed current n = follow index' start passed current n := by
  induction n generalizing passed current with
  | zero => rfl
  | succ n ih =>
    rw [follow, follow, h]
    split
    · rfl
    · rfl
    · exact ih _ _
    · rfl

theorem BridgeResolver.resolve_congr {r r' : BridgeResolver} (h : (r == r') = true) (m : Method) :
    r.resolve m = r'.resolve m := by
  obtain ⟨-, hindex⟩ : (r.owner == r'.owner) = true ∧ r.index.agree (· == ·) r'.index = true :=
    Bool.and_eq_true_iff.1 h
  have hsize : r.size = r'.size := Table.size_eq_of_agree hindex
  rw [resolve, resolve, path, path, hsize, follow_congr (Table.find?_eq_of_agree hindex)]

/-- **Equal resolvers resolve alike**, errors included. -/
theorem resolveBridge_congr {a b : Option BridgeResolver} (h : (a == b) = true) (m : Method) :
    resolveBridge a m = resolveBridge b m := by
  cases a with
  | none =>
    cases b with
    | none => rfl
    | some r => exact absurd h (by simp)
  | some r =>
    cases b with
    | none => exact absurd h (by simp)
    | some r' => exact BridgeResolver.resolve_congr h m

namespace Planner

variable {p q : Planner} {t u : KnownType} {m : Method} {lookup : CallLookup}

/-! ## What is compared -/

theorem beq_iff : (p == q) = true ↔ (p.type == q.type) = true ∧
    p.defaults.agree (Table.agree (· == ·)) q.defaults = true ∧ (p.strategy == q.strategy) = true ∧
    (p.resolver == q.resolver) = true := by
  show (_ && _ && _ && _) = true ↔ _
  simp only [Bool.and_eq_true, and_assoc]

/-- **Planners with equal default methods give equal calls of them.** -/
theorem defaultCall_congr (h : p.defaults.agree (Table.agree (· == ·)) q.defaults = true) (interface : KnownType)
    (signature : String) : p.defaultCall interface signature = q.defaultCall interface signature := by
  have hfound : (p.defaults.find? interface).bind (·.find? signature) =
      (q.defaults.find? interface).bind (·.find? signature) := by
    have hrel := Table.rel_find?_of_agree h interface
    generalize p.defaults.find? interface = x at hrel
    generalize q.defaults.find? interface = y at hrel
    cases hrel with
    | none => rfl
    | some hmethods => exact Table.find?_eq_of_agree hmethods signature
  rw [defaultCall, defaultCall, hfound]

theorem lookUp_congr (hresolve : ∀ m, resolveBridge p.resolver m = resolveBridge q.resolver m)
    (hindex : p.invokable.find? m.uniqueSignature = q.invokable.find? m.uniqueSignature) :
    p.lookUp m .superType = q.lookUp m .superType := by
  rw [lookUp, lookUp, hindex]
  simp only [hresolve]

/-! ## What is called -/

/-- `m` may be called on the super class of `t` iff it may be on that of `u`, and both have one name then -/
def CallableAlike (t u : KnownType) (m : Method) : Prop :=
  ∀ name, (∃ s, t.superClass? = some s ∧ s.name = name ∧ SuperCallable t s m) ↔
    ∃ s, u.superClass? = some s ∧ s.name = name ∧ SuperCallable u s m

/-- **Calls of one method on the super classes of two types are equal iff it can be called on both alike.** -/
theorem callOnSuper_beq_iff : (callOnSuper t m == callOnSuper u m) = true ↔ CallableAlike t u m := by
  -- legal calls name the method itself, so only their types are left to compare
  have hcalls : CallableAlike t u m ↔ ∀ name, (∃ s, callOnSuper t m = .legal m s ∧ s.name = name) ↔
      ∃ s, callOnSuper u m = .legal m s ∧ s.name = name := by
    simp only [CallableAlike, callOnSuper_eq_legal_iff, true_and, and_assoc, and_comm, and_left_comm]
  rw [hcalls]
  cases ht : callOnSuper t m with
  | illegal =>
    cases hu : callOnSuper u m with
    | illegal => exact ⟨fun _ _ => Iff.rfl, fun _ => rfl⟩
    | legal r s =>
      obtain ⟨rfl, -⟩ := callOnSuper_eq_legal_iff.1 hu
      refine ⟨fun h => absurd h Bool.false_ne_true, fun h => ?_⟩
      obtain ⟨_, hlegal, -⟩ := (h s.name).2 ⟨s, rfl, rfl⟩
      exact absurd hlegal (by simp)
  | legal r s =>
    obtain ⟨rfl, -⟩ := callOnSuper_eq_legal_iff.1 ht
    cases hu : callOnSuper u r with
    | illegal =>
      refine ⟨fun h => absurd h Bool.false_ne_true, fun h => ?_⟩
      obtain ⟨_, hlegal, -⟩ := (h s.name).1 ⟨s, rfl, rfl⟩
      exact absurd hlegal (by simp)
    | legal r' s' =>
      obtain ⟨rfl, -⟩ := callOnSuper_eq_legal_iff.1 hu
      rw [SpecialCall.legal_beq_legal]
      constructor
      · rintro ⟨hname, -⟩ name
        simp [hname]
      · intro h
        obtain ⟨_, hlegal, hname⟩ := (h s.name).1 ⟨s, rfl, rfl⟩
        exact ⟨((SpecialCall.legal.inj hlegal).2 ▸ hname).symm, rfl⟩

/-- a type that is the same above can call whatever the other one can, on a super class of the same name -/
theorem exists_callable_of_sameAbove (h : t.SameAbove u)
    (hroot : t.pool.find? PlatformName.object = u.pool.find? PlatformName.object) {s : KnownType}
    (hs : t.superClass? = some s) (hc : SuperCallable t s m) :
    ∃ s', u.superClass? = some s' ∧ s'.name = s.name ∧ SuperCallable u s' m := by
  obtain ⟨s', hs', hsame⟩ := h.exists_superClass? hs
  have hpool : s.pool = t.pool := (KnownType.superClass?_eq_some hs).2
  have howner : t.pool.find? m.owner = u.pool.find? m.owner := by
    rcases Pool.isSubtype_iff.1 hc.assignable with hobject | hpath
    · rw [hobject, hroot]
    · exact h.found m.owner (.head (KnownType.parent_of_superClass? hs) (hpool ▸ hpath))
  have hsub : s'.pool.isSubtype s'.name m.owner = true := by
    rw [← hsame.name, ← hsame.isSubtype_eq (KnownType.above_self s)]
    exact hc.assignable
  exact ⟨s', hs', hsame.name.symm, hc.notAbstract, hc.notStatic, hc.notPrivate, hc.notTypeInitializer,
    howner ▸ hc.ofClass, hsub, fun hconstructor => (hc.constructorOfSuper hconstructor).trans hsame.name⟩

theorem callableAlike_of_sameAbove (h : t.SameAbove u)
    (hroot : t.pool.find? PlatformName.object = u.pool.find? PlatformName.object) (m : Method) :
    CallableAlike t u m := by
  intro name
  constructor
  · rintro ⟨s, hs, rfl, hc⟩
    exact exists_callable_of_sameAbove h hroot hs hc
  · rintro ⟨s, hs, rfl, hc⟩
    exact exists_callable_of_sameAbove h.symm hroot.symm hs hc

/-! ## Answers -/

/-- one error, or equal calls -/
def sameAnswer : Except Error SpecialCall → Except Error SpecialCall → Bool
  | .ok a, .ok b => a == b
  | .error e, .error f => decide (e = f)
  | _, _ => false

/-- where both planners find the same, their answers are equal iff it can be called on both super classes alike -/
theorem sameAnswer_superCall_iff (hlook : p.lookUp m lookup = q.lookUp m lookup) :
    sameAnswer (p.superCall m lookup) (q.superCall m lookup) = true ↔
      ∀ r, p.lookUp m lookup = .ok (some r) → CallableAlike p.type q.type r := by
  rw [superCall, superCall, ← hlook]
  cases p.lookUp m lookup with
  | error fault => exact ⟨fun _ r hr => absurd hr (by simp), fun _ => decide_eq_true rfl⟩
  | ok found =>
    cases found with
    | none => exact ⟨fun _ r hr => absurd hr (by simp), fun _ => rfl⟩
    | some r =>
      refine (callOnSuper_beq_iff (t := p.type) (u := q.type) (m := r)).trans ⟨?_, fun h => h r rfl⟩
      rintro halike _ ⟨⟩
      exact halike

/-- **The answers of equal planners.** Equal planners give equal answers to every call of a default method, and their
resolvers resolve every method alike, errors included. They find the same for a super call that is looked up exactly,
and for the super type wherever both have the same method under the signature, errors of resolution included; the
answers to the call are equal then iff what is found can be called alike on the super classes of both types. All
answers are equal for types with the same methods that are the same above, if both pools have the same root class. -/
theorem equal_planners_answers (i j : Invokables) (strategy strategy' : BridgeStrategy) (p q : Planner)
    (hp : make strategy i = .ok p) (hq : make strategy' j = .ok q) (h : (p == q) = true) :
    (∀ interface signature, p.defaultCall interface signature = q.defaultCall interface signature) ∧
    (∀ m, resolveBridge p.resolver m = resolveBridge q.resolver m) ∧
    (∀ m, p.lookUp m .exact = q.lookUp m .exact ∧
      (p.invokable.find? m.uniqueSignature = q.invokable.find? m.uniqueSignature →
        p.lookUp m .superType = q.lookUp m .superType)) ∧
    (∀ m lookup, p.lookUp m lookup = q.lookUp m lookup →
      (sameAnswer (p.superCall m lookup) (q.superCall m lookup) = true ↔
        ∀ r, p.lookUp m lookup = .ok (some r) → CallableAlike i.type j.type r)) ∧
    (i.methods = j.methods → i.type.SameAbove j.type →
      i.type.pool.find? PlatformName.object = j.type.pool.find? PlatformName.object →
      ∀ m lookup, sameAnswer (p.superCall m lookup) (q.superCall m lookup) = true) := by
  obtain ⟨hptype, hpindex, -⟩ := make_eq_ok hp
  obtain ⟨hqtype, hqindex, -⟩ := make_eq_ok hq
  obtain ⟨-, hdefaults, -, hresolvers⟩ := beq_iff.1 h
  have hresolve := resolveBridge_congr hresolvers
  refine ⟨defaultCall_congr hdefaults, hresolve, fun m => ⟨rfl, lookUp_congr hresolve⟩, ?_, ?_⟩
  · intro m lookup hlook
    rw [← hptype, ← hqtype]
    exact sameAnswer_superCall_iff hlook
  · intro hmethods hsame hroot m lookup
    have hindex : p.invokable = q.invokable := by rw [hpindex, hqindex, hmethods]
    have hlook : p.lookUp m lookup = q.lookUp m lookup := by
      cases lookup with
      | exact => rfl
      | superType => exact lookUp_congr hresolve (by rw [hindex])
    refine (sameAnswer_superCall_iff hlook).2 fun r _ => ?_
    rw [hptype, hqtype]
    exact callableAlike_of_sameAbove hsame hroot r

/-! ### Pairs of planners -/

/-- two types with their planners -/
def planned (pair : Except Error (KnownType × KnownType)) :
    Except Error ((KnownType × Planner) × KnownType × Planner) := do
  let (t, u) ← pair
  return ((t, ← make .default (.ofType t)), u, ← make .default (.ofType u))

theorem planned_eq_ok {pair : Except Error (KnownType × KnownType)} (h : planned pair = .ok ((t, p), u, q)) :
    pair = .ok (t, u) ∧ make .default (.ofType t) = .ok p ∧ make .default (.ofType u) = .ok q := by
  obtain ⟨⟨t', u'⟩, hpair, h⟩ := bind_eq_ok.1 h
  obtain ⟨p', hp, h⟩ := bind_eq_ok.1 h
  obtain ⟨q', hq, h⟩ := bind_eq_ok.1 h
  obtain ⟨⟨rfl, rfl⟩, rfl, rfl⟩ : (t' = t ∧ p' = p) ∧ u' = u ∧ q' = q := by simpa using Except.ok.inj h
  exact ⟨hpair, hp, hq⟩

/-- a class of the covariant sample, and the same class seen from two layers above -/
def childBelow : Except Error (KnownType × KnownType) := do
  let pool ← Samples.covariant
  let upper := (PoolBuilder.above pool).run [.declare (.ofClass "fixture/Grandchild" Samples.childName), .openLayer]
  return (← pool.type Samples.childName, ← upper.build.type Samples.childName)

theorem sameAbove_of_childBelow (h : childBelow = .ok (t, u)) (hground : t.Grounded) :
    t.SameAbove u ∧ t.pool.ExtendedBy u.pool := by
  obtain ⟨pool, -, h⟩ := bind_eq_ok.1 h
  obtain ⟨t', ht, h⟩ := bind_eq_ok.1 h
  obtain ⟨u', hu, h⟩ := bind_eq_ok.1 h
  obtain ⟨rfl, rfl⟩ : t' = t ∧ u' = u := by simpa using Except.ok.inj h
  obtain ⟨rfl, hfind⟩ := Pool.type?_eq_some_iff.1 (Pool.type_eq_ok_iff.1 ht)
  obtain ⟨hpool, -⟩ := Pool.type?_eq_some_iff.1 (Pool.type_eq_ok_iff.1 hu)
  have hext := PoolBuilder.extendedBy_run_above t'.pool
    [.declare (.ofClass "fixture/Grandchild" Samples.childName), .openLayer]
  obtain ⟨s, hs, hsame⟩ := hground.exists_sameAbove hext
  rw [show t'.name = Samples.childName from Pool.find?_name hfind, Pool.type_eq_ok_iff.1 hu] at hs
  obtain rfl := Option.some.inj hs
  exact ⟨hsame, hpool ▸ hext⟩

/-- the planners of a class and of the same class seen from upper layers are equal and give equal answers -/
theorem childBelow_answers : ∃ t u p q, childBelow = .ok (t, u) ∧ make .default (.ofType t) = .ok p ∧
    make .default (.ofType u) = .ok q ∧ (p == q) = true ∧ t.reachableMethods = u.reachableMethods ∧ t.SameAbove u ∧
    t.pool.find? PlatformName.object = u.pool.find? PlatformName.object ∧
    (∀ interface signature, p.defaultCall interface signature = q.defaultCall interface signature) ∧
    (∀ m, resolveBridge p.resolver m = resolveBridge q.resolver m) ∧
    ∀ m lookup, sameAnswer (p.superCall m lookup) (q.superCall m lookup) = true := by
  obtain ⟨⟨⟨t, p⟩, u, q⟩, hplanned, htest⟩ := exists_ok_of_any (x := planned childBelow) (f := fun ((t, p), _, q) =>
    p == q && decide (t.name = Samples.childName) &&
      [Samples.childName, Samples.baseName, PlatformName.object].all fun a => t.pool.contains a &&
        (t.pool.parentsOf a).all [Samples.childName, Samples.baseName, PlatformName.object].contains)
    (by decide +kernel)
  simp only [Bool.and_eq_true, decide_eq_true_eq] at htest
  obtain ⟨⟨hequal, hname⟩, hclosed⟩ := htest
  obtain ⟨hpair, hp, hq⟩ := planned_eq_ok hplanned
  obtain ⟨hsame, hext⟩ := sameAbove_of_childBelow hpair (KnownType.grounded_of_closed _ (by simp [hname]) hclosed)
  have hknown : t.pool.contains PlatformName.object = true :=
    (Bool.and_eq_true_iff.1 (List.all_eq_true.1 hclosed PlatformName.object (by simp))).1
  obtain ⟨root, hroot⟩ := Option.isSome_iff_exists.1 hknown
  have hroots := hroot.trans (hext _ _ hroot).symm
  obtain ⟨hdefaults, hresolve, -, -, hall⟩ :=
    equal_planners_answers (.ofType t) (.ofType u) .default .default p q hp hq hequal
  have hmethods := hsame.reachableMethods_eq
  exact ⟨t, u, p, q, hpair, hp, hq, hequal, hmethods, hsame, hroots, hdefaults, hresolve, hall hmethods hsame hroots⟩

/-- generated subclasses of two classes of the covariant sample, which have one name -/
def rivals : Except Error (KnownType × KnownType) := do
  let pool ← Samples.covariant
  return (← Samples.generatedSubclass pool PlatformName.object, ← Samples.generatedSubclass pool Samples.baseName)

/-- **Equal planners differ in their super calls**: a generated subclass of the root class and one of another class
have the same name, no default methods and no bridges, but only the second can call the methods of that class. -/
theorem equal_planners_differ : ∃ t u p q, rivals = .ok (t, u) ∧ make .default (.ofType t) = .ok p ∧
    make .default (.ofType u) = .ok q ∧ (p == q) = true ∧ ∀ lookup,
      sameAnswer (p.superCall Samples.baseGet lookup) (q.superCall Samples.baseGet lookup) = false := by
  obtain ⟨⟨⟨t, p⟩, u, q⟩, hplanned, htest⟩ := exists_ok_of_any (x := planned rivals) (f := fun ((_, p), _, q) =>
    p == q && !sameAnswer (p.superCall Samples.baseGet .exact) (q.superCall Samples.baseGet .exact) &&
      !sameAnswer (p.superCall Samples.baseGet .superType) (q.superCall Samples.baseGet .superType))
    (by decide +kernel)
  simp only [Bool.and_eq_true, Bool.not_eq_true'] at htest
  obtain ⟨⟨hequal, hexact⟩, hsuper⟩ := htest
  obtain ⟨hpair, hp, hq⟩ := planned_eq_ok hplanned
  refine ⟨t, u, p, q, hpair, hp, hq, hequal, fun lookup => ?_⟩
  cases lookup with
  | exact => exact hexact
  | superType => exact hsuper

end Planner

end CallPlan
