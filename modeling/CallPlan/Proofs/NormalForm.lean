/-
Resolution ends in normal forms.

Under a named policy every step from a bridge to its candidate refines the token looked up: the candidate has the
name, and types that can be assigned to those of the bridge. With the platform on top refinement is transitive, so
what a chain ends at refines the method it started from, however long it is and whichever types declare the bridges on
the way (`refines_of_lookedUp`).

A chain ends where the index has no entry, or at a bridge that is entered as its own target (`final_eq_ok`). Either
way the method that resolution returns has the token looked up last, so looking it up again ends at once.

- `resolve_normal_form`: what a method resolves to is resolved, may stand for the method, and is a bridge only if the
  index says so or nothing was looked up with success.
-/
import CallPlan.Proofs.BridgeChain

namespace CallPlan

namespace BridgeIndex

variable {t : KnownType} {policy : ConflictPolicy} {index : BridgeIndex} {m c x : Method} {k : Nat}

/-! ## What the walk passes refines what it started from -/

theorem refines_of_next? (h : t.bridgeIndex policy.handler = .ok index) (hc : index.next? m = some c) :
    t.pool.Refines c.token m.token ∧ c.isBridge = false := by
  obtain ⟨b, -, htoken, hcand⟩ := BridgeResolver.candidate_of_next? h hc
  obtain ⟨-, -, -, hplain, hcompat⟩ := Pool.mem_bridgeCandidates.1 hcand
  exact ⟨htoken ▸ Pool.isBridgeCompatible_iff.1 hcompat, hplain⟩

/-- **Every look-up is for a refinement** of the method that resolution starts at. -/
theorem refines_of_lookedUp (htop : t.pool.PlatformOnTop) (h : t.bridgeIndex policy.handler = .ok index)
    (hx : index.lookedUp m k = some x) : t.pool.Refines x.token m.token := by
  induction k generalizing x with
  | zero =>
    obtain rfl : m = x := Option.some.inj hx
    exact .refl m.token
  | succ k ih =>
    rw [lookedUp_succ] at hx
    obtain ⟨y, hy, hstep⟩ := Option.bind_eq_some_iff.1 hx
    exact (refines_of_next? h hstep).1.trans htop (ih hy)

/-- all methods met after the first are candidates, hence no bridges -/
theorem eq_or_plain_of_lookedUp (h : t.bridgeIndex policy.handler = .ok index) (hx : index.lookedUp m k = some x) :
    x = m ∨ x.isBridge = false := by
  cases k with
  | zero => exact Or.inl (Option.some.inj hx).symm
  | succ k =>
    rw [lookedUp_succ] at hx
    obtain ⟨y, -, hstep⟩ := Option.bind_eq_some_iff.1 hx
    exact Or.inr (refines_of_next? h hstep).2

/-! ## Where it ends -/

/-- a chain ends at a method without an entry, or at a bridge of the token that is its own target -/
theorem final_eq_ok (h : t.bridgeIndex policy.handler = .ok index) (hlast : index.next? x = none)
    (hc : index.final x = .ok c) : (c = x ∧ index.find? x.token = none) ∨
      (c.token = x.token ∧ index.find? x.token = some (.resolved c)) := by
  unfold final at hc
  cases hentry : index.find? x.token with
  | none =>
    rw [hentry] at hc
    exact Or.inl ⟨(Except.ok.inj hc).symm, rfl⟩
  | some target =>
    rw [hentry] at hc
    cases target with
    | resolved y =>
      obtain rfl := Except.ok.inj hc
      exact Or.inr ⟨(KnownType.mem_of_find?_resolved h hentry).2, rfl⟩
    | candidate y => exact absurd (hlast.symm.trans (next?_eq_some.2 hentry)) (by simp)
    | unknown => exact absurd hc (by simp)

end BridgeIndex

namespace BridgeResolver

open BridgeIndex

/-- a resolver holds its type and the index of that type -/
theorem ofType_eq_ok {t : KnownType} {handler : ConflictHandler} {r : BridgeResolver} (h : ofType t handler = .ok r) :
    r.owner = t ∧ t.bridgeIndex handler = .ok r.index := by
  obtain ⟨index, hindex, hmk⟩ := bind_eq_ok.1 h
  obtain rfl := Except.ok.inj hmk
  exact ⟨rfl, hindex⟩

/-- a method whose look-up ends at once and returns it resolves to itself -/
theorem resolve_of_final {r : BridgeResolver} {m c : Method} (hlast : r.index.next? m = none)
    (hfinal : r.index.final m = .ok c) : r.resolve m = .ok c :=
  (resolve_of_endsAt (k := 0) ⟨rfl, hlast⟩).trans hfinal

/-! ## Main result -/

/-- **Resolution ends in normal forms.** In every pool with the platform on top, for every type, every policy under
which its index can be built and every method that resolves: what it resolves to resolves to itself, and the method
may forward to it, which is to say that it has the name and refines every type. It is a bridge only if it is the
method itself, not indexed, or if the index has it as its own target. -/
theorem resolve_normal_form (t : KnownType) (htop : t.pool.PlatformOnTop) (policy : ConflictPolicy)
    (r : BridgeResolver) (hr : ofType t policy.handler = .ok r) (m c : Method) (h : r.resolve m = .ok c) :
    r.resolve c = .ok c ∧
    t.pool.isBridgeCompatible m c = true ∧ t.pool.Refines c.token m.token ∧
    (c.isBridge = true → (c = m ∧ r.target? m = none) ∨ r.target? c = some (.resolved c)) := by
  obtain ⟨-, hindex⟩ := ofType_eq_ok hr
  obtain ⟨k, x, hend, hfinal⟩ := endsAt_of_resolve h
  have hrefines := refines_of_lookedUp htop hindex hend.reached
  rcases final_eq_ok hindex hend.last hfinal with ⟨rfl, hnone⟩ | ⟨htoken, hentry⟩
  · refine ⟨resolve_of_final hend.last hfinal, Pool.isBridgeCompatible_iff.2 hrefines, hrefines, fun hbridge => ?_⟩
    rcases eq_or_plain_of_lookedUp hindex hend.reached with rfl | hplain
    · exact Or.inl ⟨rfl, hnone⟩
    · rw [hbridge] at hplain
      exact absurd hplain (by decide)
  · rw [← htoken] at hrefines hentry
    have hself : r.index.final c = .ok c := by rw [final, hentry]
    refine ⟨resolve_of_final ((next?_congr htoken).trans hend.last) hself, Pool.isBridgeCompatible_iff.2 hrefines,
      hrefines, fun _ => Or.inr hentry⟩

/-- a type that passes this test resolves `m` to `c` -/
theorem exists_resolve (policy : ConflictPolicy) {x : Except Error KnownType} {m c : Method}
    (h : x.toOption.any (fun t => decide t.pool.PlatformOnTop && (ofType t policy.handler).toOption.any fun r =>
      (r.resolve m).toOption.any (· == c)) = true) :
    ∃ t r, x = .ok t ∧ t.pool.PlatformOnTop ∧ ofType t policy.handler = .ok r ∧ r.resolve m = .ok c := by
  obtain ⟨t, ht, htest⟩ := exists_ok_of_any h
  obtain ⟨htop, hresolver⟩ := Bool.and_eq_true_iff.1 htest
  obtain ⟨r, hr, hresolve⟩ := exists_ok_of_any hresolver
  obtain ⟨found, hfound, heq⟩ := exists_ok_of_any hresolve
  exact ⟨t, r, ht, of_decide_eq_true htop, hr, eq_of_beq heq ▸ hfound⟩

/-- at the end of a chain of two bridges the method at the top resolves to the lowest override, and where a bridge is
left with the call a method of its token resolves to the bridge -/
theorem chain_resolve_normal_form :
    (∃ t r, Samples.chain 2 >>= (·.type (Samples.chainLevel 2)) = .ok t ∧ t.pool.PlatformOnTop ∧
      ofType t ConflictPolicy.failFast.handler = .ok r ∧
      r.resolve Samples.chainRootGet = .ok Samples.chainEndGet ∧
      r.resolve Samples.chainEndGet = .ok Samples.chainEndGet ∧
      t.pool.Refines Samples.chainEndGet.token Samples.chainRootGet.token) ∧
    (∃ t r, Samples.ambiguous >>= (·.type Samples.ambiguousName) = .ok t ∧ t.pool.PlatformOnTop ∧
      ofType t ConflictPolicy.callBridge.handler = .ok r ∧
      r.resolve Samples.baseGet = .ok Samples.ambiguousBridge ∧
      r.target? Samples.ambiguousBridge = some (.resolved Samples.ambiguousBridge)) := by
  constructor
  · obtain ⟨t, r, ht, htop, hr, hc⟩ := exists_resolve .failFast
      (x := Samples.chain 2 >>= (·.type (Samples.chainLevel 2))) (m := Samples.chainRootGet)
      (c := Samples.chainEndGet) (by decide +kernel)
    obtain ⟨hself, -, hrefines, -⟩ := resolve_normal_form t htop .failFast r hr _ _ hc
    exact ⟨t, r, ht, htop, hr, hc, hself, hrefines⟩
  · obtain ⟨t, r, ht, htop, hr, hc⟩ := exists_resolve .callBridge
      (x := Samples.ambiguous >>= (·.type Samples.ambiguousName)) (m := Samples.baseGet)
      (c := Samples.ambiguousBridge) (by decide +kernel)
    obtain ⟨-, -, -, hbridge⟩ := resolve_normal_form t htop .callBridge r hr _ _ hc
    rcases hbridge (by decide) with ⟨hsame, -⟩ | htarget
    · exact absurd hsame (by decide)
    · exact ⟨t, r, ht, htop, hr, hc, htarget⟩

end BridgeResolver

end CallPlan
