/-
Which methods of its own take a super call away from a type.

Super calls are planned against everything a type reaches, its own methods included, and a method of the type itself
can never be called on the super class. Take a type that declares nothing and its planner, which answers a super call
with some method `c`, found as `f` and resolved over the candidates that the bridge index leads to. A method `g` that
the type then declares competes with this call (`Planner.Competes`)

- for the signature: it is no bridge, or what was found is one too, or it has the very token of `f`;
- for a candidate on the way: it has the candidate's token, and it is a bridge itself, or resolution would have gone on
  from there, or the candidate cannot be called.

- `superCall_of_override`: a type whose super class is not below it cannot call what it overrides;
- `superCall_kept`: without competition both planners give equal answers, and with it the call is lost, provided that
  the super class is not below the type itself. In particular an override loses the call of what it overrides.
-/
import CallPlan.Proofs.Linkage
import CallPlan.Proofs.OwnBridges

namespace CallPlan

theorem Method.uniqueSignature_congr {a b : Method} (h : a.token = b.token) :
    a.uniqueSignature = b.uniqueSignature := by
  have hname : a.name = b.name := congrArg MethodToken.name h
  have hparameters : a.descriptor.parameters = b.descriptor.parameters := congrArg MethodToken.parameters h
  rw [uniqueSignature, uniqueSignature, hname, MethodDescriptor.renderParameters, MethodDescriptor.renderParameters,
    hparameters]

/-- the first element that passes a test is still the first when it is kept -/
theorem find?_filter_of_find? {α : Type} {test keep : α → Bool} {xs : List α} {a : α} (h : xs.find? test = some a)
    (hkeep : keep a = true) : (xs.filter keep).find? test = some a := by
  induction xs with
  | nil => exact absurd h (by simp)
  | cons x xs ih =>
    by_cases hx : test x = true
    · rw [List.find?_cons_of_pos hx] at h
      obtain rfl := Option.some.inj h
      rw [List.filter_cons, if_pos hkeep, List.find?_cons_of_pos hx]
    · rw [List.find?_cons_of_neg hx] at h
      rw [List.filter_cons]
      split
      · rw [List.find?_cons_of_neg hx]
        exact ih h
      · exact ih h

/-! ## Legality, declaration by declaration -/

namespace Planner

/-- legality in terms of what the pools find -/
theorem maySuperCall_eq (t s : KnownType) (m : Method) : maySuperCall t s m =
    (!m.isAbstract && !m.isStatic && !m.isPrivate && !m.isTypeInitializer &&
      !(m.isConstructor && m.owner != s.name) &&
      (t.pool.find? m.owner).any fun d => !d.isInterface && s.pool.isSubtype s.name d.name) := by
  rw [maySuperCall]
  congr 1
  rw [Bool.eq_iff_iff, Option.any_eq_true, Option.any_eq_true]
  constructor
  · rintro ⟨declaring, htype, htest⟩
    exact ⟨declaring.decl, (Pool.type?_eq_some_iff.1 htype).2, htest⟩
  · rintro ⟨d, hfind, htest⟩
    exact ⟨⟨t.pool, d, Pool.find?_self hfind⟩, Pool.type?_eq_some_iff.2 ⟨rfl, hfind⟩, htest⟩

/-- a super class that is not below the type cannot be asked for the type's own methods -/
theorem owner_ne_of_maySuperCall {t s : KnownType} (hbelow : s.isAssignableTo t = false) {m : Method}
    (hmay : maySuperCall t s m = true) : m.owner ≠ t.name := by
  intro hown
  obtain ⟨-, -, -, hsub⟩ := owner_of_maySuperCall hmay
  rw [hown] at hsub
  exact absurd (hsub.symm.trans hbelow) (by decide)

section Legality

variable {t bare s s' : KnownType} (h : t.Enriches bare) (hs : bare.superClass? = some s)
  (hs' : t.superClass? = some s') (hname : s'.name = s.name)

include h hs hs' hname

/-- what may be called on the super class does not depend on the methods of the type itself -/
theorem maySuperCall_enriched (m : Method) : maySuperCall t s' m = maySuperCall bare s m := by
  have hsub : ∀ a b, s'.pool.isSubtype a b = s.pool.isSubtype a b := by
    intro a b
    rw [(KnownType.superClass?_eq_some hs').2, (KnownType.superClass?_eq_some hs).2, h.isSubtype_eq]
  have hdecl : (t.pool.find? m.owner).any (fun d => !d.isInterface && s'.pool.isSubtype s'.name d.name) =
      (bare.pool.find? m.owner).any fun d => !d.isInterface && s.pool.isSubtype s.name d.name := by
    simp only [hsub, hname]
    by_cases hown : m.owner = t.name
    · have hbare : bare.pool.find? t.name = some bare.decl := h.find?_own
      have ht : t.pool.find? t.name = some t.decl := t.known
      have hdname : t.decl.name = bare.decl.name := h.name.symm
      simp [hown, hbare, ht, TypeDecl.isInterface, h.flags, hdname]
    · rw [h.find?_eq hown]
  rw [maySuperCall_eq, maySuperCall_eq, hdecl, hname]

/-- whether the super class is below the type does not depend on the methods of the type either -/
theorem isAssignableTo_enriched : s'.isAssignableTo t = s.isAssignableTo bare := by
  rw [KnownType.isAssignableTo, KnownType.isAssignableTo, (KnownType.superClass?_eq_some hs').2,
    (KnownType.superClass?_eq_some hs).2, hname, h.isSubtype_eq, h.name]

end Legality

/-! ## Competition -/

/-- `g` is preferred to `f` under the signature of `m`, or hides it -/
def Replaces (m f g : Method) : Prop :=
  g.uniqueSignature = m.uniqueSignature ∧ (g.isBridge = false ∨ f.isBridge = true ∨ g.token = f.token)

/-- `g` changes what the way from `f` leads to, by the token of a candidate on it -/
def Intercepts (p : Planner) (s : KnownType) (f g : Method) : Prop :=
  ∃ k x, p.bridgeIndex.lookedUp f (k + 1) = some x ∧ g.token = x.token ∧
    (g.isBridge = true ∨ (p.bridgeIndex.next? x).isSome = true ∨ maySuperCall p.type s x = false)

/-- `g` takes a super call of `m` on `s` away, which finds `f` without it -/
def Competes (p : Planner) (s : KnownType) (m f g : Method) : Prop := Replaces m f g ∨ Intercepts p s f g

/-! ### What is found -/

section Found

open SignatureIndex

variable {t bare : KnownType} (h : t.Enriches bare) {strategy : BridgeStrategy} {p p0 : Planner} {m f g : Method}
  (hp : make strategy (.ofType t) = .ok p)

theorem first?_filter {signature : String} {bridge : Bool} {keep : Method → Bool} {ms : List Method}
    (hf : first? signature bridge ms = some f) (hkeep : keep f = true) :
    first? signature bridge (ms.filter keep) = some f := find?_filter_of_find? hf hkeep

include h

theorem first?_reachableMethods (signature : String) (bridge : Bool) :
    first? signature bridge t.reachableMethods = (first? signature bridge t.declaredMethods).or
      (first? signature bridge (bare.reachableMethods.filter fun m =>
        !(t.declaredMethods.map Method.token).contains m.token)) := by
  rw [h.reachableMethods_eq, first?, List.find?_append]
  rfl

omit h in
theorem uniqueSignature_of_find? (hp : make strategy (.ofType t) = .ok p)
    (hf : p.invokable.find? m.uniqueSignature = some f) :
    f.uniqueSignature = m.uniqueSignature ∧ f ∈ t.reachableMethods := by
  rw [find?_made hp, Option.or_eq_some_iff] at hf
  rcases hf with hf | ⟨-, hf⟩
  · exact ⟨(first?_eq_some hf).2.1, (first?_eq_some hf).1⟩
  · exact ⟨(first?_eq_some hf).2.1, (first?_eq_some hf).1⟩

omit h in
/-- what is not replaced is not hidden either -/
theorem token_not_mem_of_not_replaced (hsig : f.uniqueSignature = m.uniqueSignature)
    (hno : ∀ g ∈ t.declaredMethods, ¬ Replaces m f g) : f.token ∉ t.declaredMethods.map Method.token := by
  intro hmem
  obtain ⟨g, hg, htoken⟩ := List.mem_map.1 hmem
  exact hno g hg ⟨(Method.uniqueSignature_congr htoken).trans hsig, Or.inr (Or.inr htoken)⟩

include hp

/-- what is not replaced is still found -/
theorem find?_of_not_replaced (hp0 : make strategy (.ofType bare) = .ok p0)
    (hf : p0.invokable.find? m.uniqueSignature = some f) (hno : ∀ g ∈ t.declaredMethods, ¬ Replaces m f g) :
    p.invokable.find? m.uniqueSignature = some f := by
  have hkeep : (!(t.declaredMethods.map Method.token).contains f.token) = true := by
    simpa using token_not_mem_of_not_replaced (uniqueSignature_of_find? hp0 hf).1 hno
  rw [find?_made hp0, Option.or_eq_some_iff] at hf
  have hplain : first? m.uniqueSignature false t.declaredMethods = none :=
    first?_eq_none.2 fun g hg hgsig hgplain => hno g hg ⟨hgsig, Or.inl hgplain⟩
  rw [find?_made hp, first?_reachableMethods h, first?_reachableMethods h, hplain, Option.none_or]
  rcases hf with hf | ⟨hnone, hf⟩
  · rw [first?_filter hf hkeep, Option.some_or]
  · have hbridge : f.isBridge = true := (first?_eq_some hf).2.2
    have hown : first? m.uniqueSignature true t.declaredMethods = none :=
      first?_eq_none.2 fun g hg hgsig _ => hno g hg ⟨hgsig, Or.inr (Or.inl hbridge)⟩
    have hfiltered : first? m.uniqueSignature false (bare.reachableMethods.filter fun m =>
        !(t.declaredMethods.map Method.token).contains m.token) = none :=
      first?_eq_none.2 fun n hn => first?_eq_none.1 hnone n (List.mem_filter.1 hn).1
    rw [hfiltered, Option.none_or, hown, Option.none_or, first?_filter hf hkeep]

/-- a method of the type itself is found when one of them competes with what is found otherwise -/
theorem mem_declaredMethods_of_find? (hg : g ∈ t.declaredMethods) (hsig : g.uniqueSignature = m.uniqueSignature)
    (hf : p.invokable.find? m.uniqueSignature = some f) (hcase : g.isBridge = false ∨ f.isBridge = true) :
    f ∈ t.declaredMethods := by
  rw [find?_made hp, first?_reachableMethods h, first?_reachableMethods h] at hf
  cases hplain : first? m.uniqueSignature false t.declaredMethods with
  | some n =>
    rw [hplain, Option.some_or, Option.some_or] at hf
    exact Option.some.inj hf ▸ (first?_eq_some hplain).1
  | none =>
    have hgbridge : g.isBridge = true := by simpa using first?_eq_none.1 hplain g hg hsig
    have hfbridge : f.isBridge = true := hcase.resolve_left (by simp [hgbridge])
    rw [hplain, Option.none_or, Option.or_eq_some_iff] at hf
    rcases hf with hf | ⟨-, hf⟩
    · rw [(first?_eq_some hf).2.2] at hfbridge
      exact absurd hfbridge (by decide)
    · cases hbridge : first? m.uniqueSignature true t.declaredMethods with
      | some n =>
        rw [hbridge, Option.some_or] at hf
        exact Option.some.inj hf ▸ (first?_eq_some hbridge).1
      | none => exact absurd hgbridge (first?_eq_none.1 hbridge g hg hsig)

end Found

/-! ### What it resolves to -/

section Resolved

variable {t bare s : KnownType} (h : t.Enriches bare) {strategy : BridgeStrategy} {p p0 : Planner}
  {m f c c' x : Method} {k : Nat} (hp0 : make strategy (.ofType bare) = .ok p0)
  (hp : make strategy (.ofType t) = .ok p) (hsig : f.uniqueSignature = m.uniqueSignature)
  (hno : ∀ g ∈ t.declaredMethods, ¬ Replaces m f g)

include h hp0 hp

/-- as long as the tokens looked up are not declared by the type itself, both look up the same -/
theorem lookedUp_eq {j : Nat} (hfresh : ∀ i < j, ∀ y, p0.bridgeIndex.lookedUp f i = some y →
      y.token ∉ t.declaredMethods.map Method.token) :
    p.bridgeIndex.lookedUp f j = p0.bridgeIndex.lookedUp f j :=
  BridgeIndex.lookedUp_eq_of_agree fun i hi y hy => find?_bridgeIndex_eq h hp0 hp (hfresh i hi y hy)

include hsig hno

/-- without competition resolution comes to an end at the same look-up, in a method of the same token -/
theorem resolveBridge_of_no_competition (hend : p0.bridgeIndex.EndsAt f k x)
    (hfinal : p0.bridgeIndex.final x = .ok c) (hmay : maySuperCall p0.type s c = true)
    (hfree : ∀ g ∈ t.declaredMethods, ¬ Intercepts p0 s f g) :
    ∃ c', resolveBridge p.resolver f = .ok c' ∧ c'.token = c.token ∧ maySuperCall p0.type s c' = true := by
  have hfresh : ∀ i < k, ∀ y, p0.bridgeIndex.lookedUp f i = some y →
      y.token ∉ t.declaredMethods.map Method.token := by
    intro i hi y hy hmem
    cases i with
    | zero =>
      obtain rfl : f = y := Option.some.inj hy
      exact token_not_mem_of_not_replaced hsig hno hmem
    | succ i =>
      obtain ⟨g, hg, htoken⟩ := List.mem_map.1 hmem
      obtain ⟨z, hz⟩ := BridgeIndex.exists_lookedUp_of_le hi hend.isSome
      rw [BridgeIndex.lookedUp_succ, hy] at hz
      exact hfree g hg ⟨i, y, hy, htoken, Or.inr (Or.inl (Option.isSome_of_eq_some hz))⟩
  have hreached : p.bridgeIndex.lookedUp f k = some x := (lookedUp_eq h hp0 hp hfresh).trans hend.reached
  by_cases hx : x.token ∈ t.declaredMethods.map Method.token
  · -- a method of the type itself ends the chain here; it is no bridge and this is the last candidate anyway
    obtain ⟨g, hg, htoken⟩ := List.mem_map.1 hx
    cases k with
    | zero =>
      obtain rfl : f = x := Option.some.inj hend.reached
      exact absurd hx (token_not_mem_of_not_replaced hsig hno)
    | succ k =>
      have hharmless : ¬ (g.isBridge = true ∨ (p0.bridgeIndex.next? x).isSome = true ∨
          maySuperCall p0.type s x = false) := fun hcase => hfree g hg ⟨k, x, hend.reached, htoken, hcase⟩
      have hplain : g.isBridge = false := Bool.eq_false_iff.2 fun hg => hharmless (Or.inl hg)
      have hcallable : maySuperCall p0.type s x = true := by
        by_contra hnot
        exact hharmless (Or.inr (Or.inr (Bool.eq_false_iff.2 hnot)))
      have hnone : p.bridgeIndex.find? x.token = none := htoken ▸ find?_bridgeIndex_own hp h.tokensDistinct hg hplain
      refine ⟨x, ?_, (token_of_final hp0 hfinal).symm, hcallable⟩
      rw [resolveBridge_of_endsAt ⟨hreached, by rw [BridgeIndex.next?, hnone]⟩, BridgeIndex.final, hnone]
  · have hsame := find?_bridgeIndex_eq h hp0 hp hx
    have hlast : p.bridgeIndex.next? x = none := by
      rw [BridgeIndex.next?, hsame]
      exact hend.last
    refine ⟨c, ?_, rfl, hmay⟩
    rw [resolveBridge_of_endsAt ⟨hreached, hlast⟩, BridgeIndex.final, hsame]
    exact hfinal

/-- when a candidate on the way is intercepted, resolution ends in another token or in a method of the type itself -/
theorem token_ne_of_intercepts (hend : p0.bridgeIndex.EndsAt f k x) (hfinal : p0.bridgeIndex.final x = .ok c)
    {g : Method} (hg : g ∈ t.declaredMethods) (hint : Intercepts p0 s f g)
    (hres : resolveBridge p.resolver f = .ok c') (howner : c'.owner ≠ t.name)
    (hmay : maySuperCall p0.type s c' = true) : c'.token ≠ c.token := by
  obtain ⟨n, y, hy, hgy, hcase⟩ := hint
  -- both ways are one up to the first token that the type itself declares, and there the richer type stops
  obtain ⟨j, hle, z, hz, hztoken, hfirst⟩ :=
    BridgeIndex.exists_first_lookedUp hy (hgy ▸ List.mem_map_of_mem hg : y.token ∈ t.declaredMethods.map Method.token)
  have hreached : p.bridgeIndex.lookedUp f j = some z := (lookedUp_eq h hp0 hp hfirst).trans hz
  obtain ⟨g', hg', htoken⟩ := List.mem_map.1 hztoken
  have hplain : g'.isBridge = false := by
    refine Bool.eq_false_iff.2 fun hbridge => ?_
    cases j with
    | zero =>
      obtain rfl : f = z := Option.some.inj hz
      exact token_not_mem_of_not_replaced hsig hno hztoken
    | succ j => exact howner (owner_of_resolveBridge_past_own hp h.tokensDistinct hg' hbridge hreached htoken hres)
  have hnone : p.bridgeIndex.find? z.token = none := htoken ▸ find?_bridgeIndex_own hp h.tokensDistinct hg' hplain
  have hc' : c' = z := by
    rw [resolveBridge_of_endsAt ⟨hreached, by rw [BridgeIndex.next?, hnone]⟩, BridgeIndex.final, hnone] at hres
    exact (Except.ok.inj hres).symm
  rw [hc', token_of_final hp0 hfinal]
  rcases Nat.lt_or_eq_of_le (hend.le_of_lookedUp hz) with hlt | rfl
  · exact hend.token_ne hlt hz hend.reached
  · -- the chain ended here before as well, so the interception is by a candidate that cannot be called
    intro _
    obtain rfl : n + 1 = j := Nat.le_antisymm (hend.le_of_lookedUp hy) hle
    obtain rfl : x = y := Option.some.inj (hend.reached.symm.trans hy)
    obtain rfl : x = z := Option.some.inj (hend.reached.symm.trans hz)
    obtain rfl : g = g' := List.inj_on_of_nodup_map h.tokensDistinct hg hg' (hgy.trans htoken.symm)
    rcases hcase with hcase | hcase | hcase
    · exact absurd (hcase.symm.trans hplain) (by decide)
    · rw [hend.last] at hcase
      exact absurd hcase (by decide)
    · rw [hc', hcase] at hmay
      exact absurd hmay (by decide)

omit hsig hno in
/-- when what is found is replaced, another token is found or a method of the type itself -/
theorem token_ne_of_replaces (hf : p0.invokable.find? m.uniqueSignature = some f)
    (hres0 : resolveBridge p0.resolver f = .ok c) {g : Method} (hg : g ∈ t.declaredMethods) (hrep : Replaces m f g)
    (hlook : p.lookUp m .superType = .ok (some c')) (howner : c'.owner ≠ t.name) : c'.token ≠ c.token := by
  obtain ⟨f', hf', hres⟩ := find?_of_lookUp hlook
  have hforeign : f' ∉ t.declaredMethods := fun hmem =>
    howner (owner_of_resolveBridge_own hp h.tokensDistinct hmem hres)
  obtain ⟨hgsig, hcase⟩ := hrep
  have hkinds : ¬ (g.isBridge = false ∨ f'.isBridge = true) := fun hkinds =>
    hforeign (mem_declaredMethods_of_find? h hp hg hgsig hf' hkinds)
  have hgbridge : ¬ g.isBridge = false := fun hplain => hkinds (Or.inl hplain)
  have hplain' : f'.isBridge = false := Bool.eq_false_iff.2 fun hbridge => hkinds (Or.inr hbridge)
  obtain ⟨hsig', hreach'⟩ := uniqueSignature_of_find? hp hf'
  have hinherited : f' ∈ bare.reachableMethods := ((h.mem_reachableMethods.1 hreach').resolve_left hforeign).1
  -- without the methods of the type itself what is found is no bridge either
  have hplain : f.isBridge = false := by
    have hmade := hf
    rw [find?_made hp0, Option.or_eq_some_iff] at hmade
    rcases hmade with hfirst | ⟨hnone, -⟩
    · exact (SignatureIndex.first?_eq_some hfirst).2.2
    · exact absurd hplain' (SignatureIndex.first?_eq_none.1 hnone f' hinherited hsig')
  have hgtoken : g.token = f.token := (hcase.resolve_left hgbridge).resolve_left (by simp [hplain])
  have hc : f = c := Except.ok.inj ((resolveBridge_of_plain h.tokensDistinct_bare (make_eq_ok hp0).2.2
    (uniqueSignature_of_find? hp0 hf).2 hplain).symm.trans hres0)
  have hc' : f' = c' := Except.ok.inj ((resolveBridge_of_plain h.tokensDistinct (make_eq_ok hp).2.2 hreach'
    hplain').symm.trans hres)
  intro heq
  have htoken : f'.token = g.token :=
    calc f'.token
        = c'.token := congrArg Method.token hc'
      _ = c.token := heq
      _ = f.token := congrArg Method.token hc.symm
      _ = g.token := hgtoken.symm
  have hsame : f' = g := List.inj_on_of_nodup_map (KnownType.reachableMethods_nodup h.tokensDistinct) hreach'
    (KnownType.mem_reachableMethods.2 (Or.inl hg)) htoken
  exact hforeign (hsame ▸ hg)

end Resolved

/-! ## Main results -/

/-- **A type cannot call what it overrides**, whatever its strategy, unless its super class is below it. -/
theorem superCall_of_override {t s : KnownType} (htok : (t.declaredMethods.map Method.token).Nodup)
    (hs : t.superClass? = some s) (hbelow : s.isAssignableTo t = false) {strategy : BridgeStrategy} {p : Planner}
    (hp : make strategy (.ofType t) = .ok p) {m g : Method} (hg : g ∈ t.declaredMethods) (hplain : g.isBridge = false)
    (hsig : g.uniqueSignature = m.uniqueSignature) : p.superCall m .superType = .ok .illegal := by
  have hfirst : ∃ f ∈ t.declaredMethods,
      SignatureIndex.first? m.uniqueSignature false t.reachableMethods = some f := by
    rw [KnownType.reachableMethods, SignatureIndex.first?, List.find?_append]
    cases hown : SignatureIndex.first? m.uniqueSignature false t.declaredMethods with
    | none => exact absurd hplain (SignatureIndex.first?_eq_none.1 hown g hg hsig)
    | some f =>
      rw [SignatureIndex.first?] at hown
      exact ⟨f, List.mem_of_find?_eq_some hown, by rw [hown, Option.some_or]⟩
  obtain ⟨f, hf, hfound⟩ := hfirst
  have htype : p.type = t := (make_eq_ok hp).1
  have hmay : maySuperCall t s f = false :=
    Bool.eq_false_iff.2 fun hmay => owner_ne_of_maySuperCall hbelow hmay (mem_declaredMethods hf).1
  rw [superCall_of_lookUp (lookUp_plain hp htok hfound), htype]
  show Except.ok (callOnSuper t f) = _
  simp [callOnSuper, hs, hmay]

theorem callOnSuper_of_may {t s : KnownType} {m : Method} (hs : t.superClass? = some s)
    (hmay : maySuperCall t s m = true) : callOnSuper t m = .legal m s :=
  callOnSuper_eq_legal_iff.2 ⟨rfl, hs, maySuperCall_iff.1 hmay⟩

/-- **When own methods leave a super call alone.** Let the planner of a generated type that declares nothing plan a
legal call. When methods are added to the draft and none of them competes, the planner of the richer type plans an
equal call. When one of them does, it does not, unless the super class is below the generated type itself: in
particular a type that overrides the method, other than by a bridge, can plan no call of it. -/
theorem superCall_kept (pool : Pool) (d0 d : TypeDraft) (hbare : d0.methods = [])
    (added : List (String × MethodDescriptor × AccessFlags)) (hadd : d0.addMethods added = .ok d) (t0 t : KnownType)
    (ht0 : d0.typeAbove pool = .ok t0) (ht : d.typeAbove pool = .ok t) (strategy : BridgeStrategy) (p0 p : Planner)
    (hp0 : make strategy (.ofType t0) = .ok p0) (hp : make strategy (.ofType t) = .ok p) (m c : Method)
    (s : KnownType) (hcall : p0.superCall m .superType = .ok (.legal c s)) :
    ∃ f, p0.invokable.find? m.uniqueSignature = some f ∧
      ((∀ g ∈ t.declaredMethods, ¬ Competes p0 s m f g) →
        ∃ a, p.superCall m .superType = .ok a ∧ (a == .legal c s) = true) ∧
      (s.isAssignableTo t0 = false → (∃ g ∈ t.declaredMethods, Competes p0 s m f g) →
        ∀ a, p.superCall m .superType = .ok a → (a == .legal c s) = false) ∧
      (s.isAssignableTo t0 = false →
        (∃ g ∈ t.declaredMethods, g.isBridge = false ∧ g.uniqueSignature = f.uniqueSignature) →
        p.superCall m .superType = .ok .illegal) := by
  have h : t.Enriches t0 := TypeDraft.enriches_of_addMethods hbare hadd ht0 ht
  have htype0 : p0.type = t0 := (make_eq_ok hp0).1
  have htype : p.type = t := (make_eq_ok hp).1
  obtain ⟨hlook0, hs, hmay⟩ := superCall_eq_legal hcall
  rw [htype0] at hs
  obtain ⟨f, hf, hres0⟩ := find?_of_lookUp hlook0
  obtain ⟨k, x, hend, hfinal⟩ := endsAt_of_resolveBridge hres0
  obtain ⟨s', hs', hname⟩ := h.superClass?_eq hs
  have hassignable : s'.isAssignableTo t = s.isAssignableTo t0 := isAssignableTo_enriched h hs hs' hname
  have hsig := (uniqueSignature_of_find? hp0 hf).1
  have hsame : ∀ n, maySuperCall t s' n = maySuperCall p0.type s n := by
    intro n
    rw [htype0]
    exact maySuperCall_enriched h hs hs' hname n
  refine ⟨f, hf, ?_, ?_, ?_⟩
  · intro hfree
    have hno : ∀ g ∈ t.declaredMethods, ¬ Replaces m f g := fun g hg hrep => hfree g hg (Or.inl hrep)
    obtain ⟨c', hres, htoken, hmay'⟩ := resolveBridge_of_no_competition h hp0 hp hsig hno hend hfinal hmay
      fun g hg hint => hfree g hg (Or.inr hint)
    have hlook : p.lookUp m .superType = .ok (some c') := by
      rw [lookUp_of_find? (find?_of_not_replaced h hp hp0 hf hno), hres]
      rfl
    refine ⟨.legal c' s', ?_, SpecialCall.legal_beq_legal.2 ⟨hname, htoken⟩⟩
    rw [superCall_of_lookUp hlook, htype]
    exact congrArg Except.ok (callOnSuper_of_may hs' ((hsame c').trans hmay'))
  · rintro hbelow ⟨g, hg, hcomp⟩ a ha
    cases a with
    | illegal => rfl
    | legal c' on =>
      obtain ⟨hlook, hon, hmay'⟩ := superCall_eq_legal ha
      rw [htype] at hon hmay'
      obtain rfl : s' = on := Option.some.inj (hs'.symm.trans hon)
      have howner := owner_ne_of_maySuperCall (hassignable.trans hbelow) hmay'
      have hne : c'.token ≠ c.token := by
        by_cases hrep : ∃ g ∈ t.declaredMethods, Replaces m f g
        · obtain ⟨g, hg, hrep⟩ := hrep
          exact token_ne_of_replaces h hp0 hp hf hres0 hg hrep hlook howner
        · have hno : ∀ g ∈ t.declaredMethods, ¬ Replaces m f g := fun g hg hr => hrep ⟨g, hg, hr⟩
          obtain ⟨f', hf', hres⟩ := find?_of_lookUp hlook
          obtain rfl : f' = f := by
            rw [find?_of_not_replaced h hp hp0 hf hno] at hf'
            exact (Option.some.inj hf').symm
          exact token_ne_of_intercepts h hp0 hp hsig hno hend hfinal hg (hcomp.resolve_left (hno g hg)) hres howner
            ((hsame c').symm.trans hmay')
      exact Bool.eq_false_iff.2 fun heq => hne (SpecialCall.legal_beq_legal.1 heq).2
  · rintro hbelow ⟨g, hg, hplain, hgsig⟩
    exact superCall_of_override h.tokensDistinct hs' (hassignable.trans hbelow) hp hg hplain (hgsig.trans hsig)

/-! ### A generated type before and after -/

/-- the planners of a bare generated subclass and of the same with more methods -/
def plannersAround (x : Except Error Pool) (superName : String)
    (added : List (String × MethodDescriptor × AccessFlags)) : Except Error (Planner × Planner) := do
  let pool ← x
  let d0 ← TypeDraft.extending Samples.generatedName (← pool.type superName)
  let d ← d0.addMethods added
  let t0 ← d0.typeAbove pool
  let t ← d.typeAbove pool
  return (← make .default (.ofType t0), ← make .default (.ofType t))

/-- both planners come from drafts above one pool -/
structure Around (pool : Pool) (d0 d : TypeDraft) (added : List (String × MethodDescriptor × AccessFlags))
    (p0 p : Planner) : Prop where
  bare : d0.methods = []
  extended : d0.addMethods added = .ok d
  before : d0.typeAbove pool = .ok p0.type
  after : d.typeAbove pool = .ok p.type
  planned0 : make .default (.ofType p0.type) = .ok p0
  planned : make .default (.ofType p.type) = .ok p

theorem around_of_plannersAround {x : Except Error Pool} {superName : String}
    {added : List (String × MethodDescriptor × AccessFlags)} {p0 p : Planner}
    (h : plannersAround x superName added = .ok (p0, p)) :
    ∃ pool d0 d, x = .ok pool ∧ Around pool d0 d added p0 p := by
  obtain ⟨pool, hx, h⟩ := bind_eq_ok.1 h
  obtain ⟨superType, -, h⟩ := bind_eq_ok.1 h
  obtain ⟨d0, hd0, h⟩ := bind_eq_ok.1 h
  obtain ⟨d, hd, h⟩ := bind_eq_ok.1 h
  obtain ⟨t0, ht0, h⟩ := bind_eq_ok.1 h
  obtain ⟨t, ht, h⟩ := bind_eq_ok.1 h
  obtain ⟨q0, hq0, h⟩ := bind_eq_ok.1 h
  obtain ⟨q, hq, h⟩ := bind_eq_ok.1 h
  obtain ⟨rfl, rfl⟩ := Prod.mk.inj (Except.ok.inj h)
  obtain ⟨_, _, hextending⟩ := bind_eq_ok.1 hd0
  have hbare : d0.methods = [] := Except.ok.inj hextending ▸ rfl
  have htype0 : q0.type = t0 := (make_eq_ok hq0).1
  have htype : q.type = t := (make_eq_ok hq).1
  subst htype0 htype
  exact ⟨pool, d0, d, hx, hbare, hd, ht0, ht, hq0, hq⟩

/-- an override of what a bridge forwards to leaves the super call of the bridge alone -/
theorem override_superCall_kept : ∃ pool d0 d p0 p s, Samples.abstractAgain = .ok pool ∧
    Around pool d0 d [("put", ⟨[.object PlatformName.string], .void⟩, .publicBit)] p0 p ∧
    p0.superCall Samples.topPutBridge .superType = .ok (.legal Samples.topPut s) ∧
    ∃ a, p.superCall Samples.topPutBridge .superType = .ok a ∧ (a == .legal Samples.topPut s) = true := by
  obtain ⟨⟨p0, p⟩, hplanners, htest⟩ := exists_ok_of_any
    (x := plannersAround Samples.abstractAgain Samples.topName
      [("put", ⟨[.object PlatformName.string], .void⟩, .publicBit)])
    (f := fun ps => (ps.1.superCall Samples.topPutBridge .superType).toOption.any
        (legalAnd fun c s => c == Samples.topPut && maySuperCall ps.1.type s Samples.topPut) &&
      ps.1.invokable.find? Samples.topPutBridge.uniqueSignature == some Samples.topPutBridge &&
      ps.1.bridgeIndex.lookedUp Samples.topPutBridge 1 == some Samples.topPut &&
      ps.1.bridgeIndex.next? Samples.topPut == none &&
      ps.2.type.declaredMethods.all fun g =>
        g.uniqueSignature != Samples.topPutBridge.uniqueSignature && !g.isBridge) (by decide +kernel)
  simp only [Bool.and_eq_true, beq_iff_eq, List.all_eq_true, bne_iff_ne, Bool.not_eq_true'] at htest
  obtain ⟨⟨⟨⟨hcall, hfind⟩, hfirst⟩, hlast⟩, hown⟩ := htest
  obtain ⟨_, ha0, hlegal⟩ := exists_ok_of_any hcall
  obtain ⟨c, s, rfl, hc⟩ := exists_of_legalAnd hlegal
  obtain ⟨hc, hmay⟩ := Bool.and_eq_true_iff.1 hc
  obtain rfl : c = Samples.topPut := eq_of_beq hc
  obtain ⟨pool, d0, d, hx, haround⟩ := around_of_plannersAround hplanners
  obtain ⟨f, hf, hkept, -, -⟩ := superCall_kept pool d0 d haround.bare _ haround.extended p0.type p.type haround.before
    haround.after .default p0 p haround.planned0 haround.planned Samples.topPutBridge _ s ha0
  obtain rfl : Samples.topPutBridge = f := Option.some.inj (hfind.symm.trans hf)
  refine ⟨pool, d0, d, p0, p, s, hx, haround, ha0, hkept fun g hg hcomp => ?_⟩
  rcases hcomp with hrep | ⟨k, x, hk, -, hcase⟩
  · exact (hown g hg).1 hrep.1
  · -- the override has the token of the last candidate, which can be called
    have hend : p0.bridgeIndex.EndsAt Samples.topPutBridge 1 Samples.topPut := ⟨hfirst, hlast⟩
    obtain rfl : k = 0 := Nat.le_zero.1 (Nat.le_of_succ_le_succ (hend.le_of_lookedUp hk))
    obtain rfl : Samples.topPut = x := Option.some.inj (hfirst.symm.trans hk)
    simp [(hown g hg).2, hlast, hmay] at hcase

/-- the super call that an override takes away -/
theorem override_loses_superCall : ∃ pool d0 d p0 p s, Samples.abstractAgain = .ok pool ∧
    Around pool d0 d [("put", ⟨[.object PlatformName.string], .void⟩, .publicBit)] p0 p ∧
    p0.superCall Samples.topPut .superType = .ok (.legal Samples.topPut s) ∧
    p.superCall Samples.topPut .superType = .ok .illegal := by
  obtain ⟨⟨p0, p⟩, hplanners, htest⟩ := exists_ok_of_any
    (x := plannersAround Samples.abstractAgain Samples.topName
      [("put", ⟨[.object PlatformName.string], .void⟩, .publicBit)])
    (f := fun ps => (ps.1.superCall Samples.topPut .superType).toOption.any
        (legalAnd fun c _ => c == Samples.topPut) &&
      (ps.2.superCall Samples.topPut .superType).toOption.any fun a => !a.isLegal) (by decide +kernel)
  obtain ⟨hcall0, hcall⟩ := Bool.and_eq_true_iff.1 htest
  obtain ⟨_, ha0, hlegal⟩ := exists_ok_of_any hcall0
  obtain ⟨c, s, rfl, hc⟩ := exists_of_legalAnd hlegal
  obtain rfl : c = Samples.topPut := eq_of_beq hc
  obtain ⟨a, ha, hillegal⟩ := exists_ok_of_any hcall
  obtain ⟨pool, d0, d, hx, haround⟩ := around_of_plannersAround hplanners
  cases a with
  | legal => exact absurd hillegal (by simp [SpecialCall.isLegal])
  | illegal => exact ⟨pool, d0, d, p0, p, s, hx, haround, ha0, ha⟩

end Planner

end CallPlan
