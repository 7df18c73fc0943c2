/-
Own methods of a type in its planner's bridge index.

Whatever a type declares itself can only end a chain of bridges: a method that is no bridge has no entry, and a bridge
leads to another method of the type itself, which has none (`endsAt_own`). So a method of the type itself always
resolves to one (`owner_of_resolveBridge_own`). For every other token the index is what it would be if the type
declared nothing (`find?_bridgeIndex_eq`), since what a bridge of another type may forward to depends on that type and
on the hierarchy.
-/
import CallPlan.Proofs.BridgeChain
import CallPlan.Proofs.OwnMethods
import CallPlan.Proofs.Selection
import Mathlib.Data.Nat.Find

namespace CallPlan

/-- indexes that agree on what one of them looks up look up the same -/
theorem BridgeIndex.lookedUp_eq_of_agree {index other : BridgeIndex} {m : Method} {j : Nat}
    (h : ∀ i < j, ∀ x, index.lookedUp m i = some x → other.find? x.token = index.find? x.token) :
    other.lookedUp m j = index.lookedUp m j := by
  induction j with
  | zero => rfl
  | succ j ih =>
    rw [lookedUp_succ, lookedUp_succ, ih fun i hi => h i (Nat.lt_succ_of_lt hi)]
    cases hx : index.lookedUp m j with
    | none => rfl
    | some x =>
      show next? other x = next? index x
      rw [next?, next?, h j (Nat.lt_succ_self j) x hx]

/-- a walk that comes to some token of `own` has a first look-up for one of them -/
theorem BridgeIndex.exists_first_lookedUp {index : BridgeIndex} {own : List MethodToken} {m y : Method} {n : Nat}
    (hy : index.lookedUp m n = some y) (hown : y.token ∈ own) : ∃ j ≤ n, ∃ z, index.lookedUp m j = some z ∧
      z.token ∈ own ∧ ∀ i < j, ∀ w, index.lookedUp m i = some w → w.token ∉ own := by
  classical
  have hexists : ∃ j z, index.lookedUp m j = some z ∧ z.token ∈ own := ⟨n, y, hy, hown⟩
  obtain ⟨z, hz, hztoken⟩ := Nat.find_spec hexists
  refine ⟨Nat.find hexists, Nat.find_min' hexists ⟨y, hy, hown⟩, z, hz, hztoken, ?_⟩
  intro i hi w hw hmem
  exact Nat.find_min hexists hi ⟨w, hw, hmem⟩

/-! ## The index of a planner -/

namespace Planner

/-- the bridge index that a planner resolves by; empty when bridges are left alone -/
def bridgeIndex (p : Planner) : BridgeIndex := p.resolver.elim .empty (·.index)

variable {p : Planner} {f c x : Method} {k : Nat}

theorem resolveBridge_of_endsAt (h : p.bridgeIndex.EndsAt f k x) :
    resolveBridge p.resolver f = p.bridgeIndex.final x := by
  unfold bridgeIndex at h ⊢
  cases hr : p.resolver with
  | some r =>
    rw [hr] at h
    exact BridgeResolver.resolve_of_endsAt h
  | none =>
    rw [hr] at h
    obtain rfl : k = 0 := Nat.le_zero.1 h.le_size
    obtain rfl : f = x := Option.some.inj h.reached
    rfl

theorem endsAt_of_resolveBridge (h : resolveBridge p.resolver f = .ok c) :
    ∃ k x, p.bridgeIndex.EndsAt f k x ∧ p.bridgeIndex.final x = .ok c := by
  unfold bridgeIndex
  cases hr : p.resolver with
  | some r =>
    rw [hr] at h
    exact BridgeResolver.endsAt_of_resolve h
  | none =>
    rw [hr] at h
    exact ⟨0, f, ⟨rfl, rfl⟩, h⟩

/-- a planner's bridge index is empty, or that of its type under its policy -/
theorem bridgeIndex_of_make {strategy : BridgeStrategy} {t : KnownType} (hp : make strategy (.ofType t) = .ok p) :
    match strategy with
    | .leaveBridges => p.bridgeIndex = .empty
    | .resolveBridges policy => t.bridgeIndex policy.handler = .ok p.bridgeIndex := by
  have hresolver := (make_eq_ok hp).2.2
  cases strategy with
  | leaveBridges =>
    rw [bridgeIndex, ← Except.ok.inj hresolver]
    rfl
  | resolveBridges policy =>
    obtain ⟨r, hr, hsome⟩ := bind_eq_ok.1 hresolver
    obtain ⟨index, hindex, hmk⟩ := bind_eq_ok.1 hr
    rw [bridgeIndex, ← Except.ok.inj hsome, ← Except.ok.inj hmk]
    exact hindex

/-- resolution ends in a method of the token looked up last -/
theorem token_of_final {strategy : BridgeStrategy} {t : KnownType} (hp : make strategy (.ofType t) = .ok p)
    (h : p.bridgeIndex.final x = .ok c) : c.token = x.token := by
  unfold BridgeIndex.final at h
  split at h
  · rename_i y hy
    obtain rfl := Except.ok.inj h
    have hindex := bridgeIndex_of_make hp
    cases strategy with
    | leaveBridges =>
      have hempty : p.bridgeIndex = .empty := hindex
      rw [hempty] at hy
      exact absurd hy (by simp)
    | resolveBridges policy => exact (KnownType.mem_of_find?_resolved hindex hy).2
  · exact absurd h (by simp)
  · rw [Except.ok.inj h]

/-! ## Own methods in the bridge index -/

/-- a bridge of the type itself leads to nothing but methods of the type itself -/
theorem endsAt_own {t : KnownType} {policy : ConflictPolicy} {index : BridgeIndex}
    (hindex : t.bridgeIndex policy.handler = .ok index) (htok : (t.declaredMethods.map Method.token).Nodup)
    {g : Method} (hg : g ∈ t.declaredMethods) (hbridge : g.isBridge = true) (hx : index.lookedUp f k = some x)
    (htoken : g.token = x.token) :
    ∃ n y, index.EndsAt f n y ∧ ∀ c, index.final y = .ok c → c.owner = t.name := by
  have howner : ∀ {m}, m ∈ t.declaredMethods → m.owner = t.name := fun hm => (mem_declaredMethods hm).1
  have hreach : g ∈ t.reachableBridges :=
    KnownType.mem_reachableBridges.2 ⟨KnownType.mem_reachableMethods.2 (Or.inl hg), hbridge⟩
  obtain ⟨target, htarget, hentry⟩ := KnownType.find?_bridgeIndex_of_mem hindex htok hreach
  rw [htoken] at hentry
  rcases bridgeTarget_policy htarget with rfl | rfl | ⟨e, he, rfl⟩
  · refine ⟨k, x, ⟨hx, by rw [BridgeIndex.next?, hentry]⟩, ?_⟩
    intro c hc
    rw [BridgeIndex.final, hentry] at hc
    exact Except.ok.inj hc ▸ howner hg
  · refine ⟨k, x, ⟨hx, by rw [BridgeIndex.next?, hentry]⟩, ?_⟩
    intro c hc
    rw [BridgeIndex.final, hentry] at hc
    exact absurd hc (by simp)
  · obtain ⟨d, hd, hmem, hplain, -⟩ := Pool.mem_bridgeCandidates.1 (he ▸ List.mem_singleton.2 rfl : e ∈ _)
    have hown : e ∈ t.declaredMethods := by
      rw [howner hg] at hd
      obtain rfl : t.decl = d := Option.some.inj (t.known.symm.trans hd)
      exact hmem
    have hnone := KnownType.find?_bridgeIndex_of_plain hindex htok
      (KnownType.mem_reachableMethods.2 (Or.inl hown)) hplain
    refine ⟨k + 1, e, ⟨?_, by rw [BridgeIndex.next?, hnone]⟩, ?_⟩
    · rw [BridgeIndex.lookedUp_succ, hx]
      exact BridgeIndex.next?_eq_some.2 hentry
    · intro c hc
      rw [BridgeIndex.final, hnone] at hc
      exact Except.ok.inj hc ▸ howner hown

section Own

variable {t : KnownType} {strategy : BridgeStrategy} {g : Method} (hp : make strategy (.ofType t) = .ok p)
  (htok : (t.declaredMethods.map Method.token).Nodup)

include hp htok

theorem find?_bridgeIndex_own (hg : g ∈ t.declaredMethods) (hplain : g.isBridge = false) :
    p.bridgeIndex.find? g.token = none := by
  have hindex := bridgeIndex_of_make hp
  cases strategy with
  | leaveBridges =>
    have hempty : p.bridgeIndex = .empty := hindex
    rw [hempty, Table.find?_empty]
  | resolveBridges policy =>
    exact KnownType.find?_bridgeIndex_of_plain hindex htok (KnownType.mem_reachableMethods.2 (Or.inl hg)) hplain

/-- a method of the type itself resolves to one -/
theorem owner_of_resolveBridge_own (hg : g ∈ t.declaredMethods) (h : resolveBridge p.resolver g = .ok c) :
    c.owner = t.name := by
  have hreach : g ∈ t.reachableMethods := KnownType.mem_reachableMethods.2 (Or.inl hg)
  cases hbridge : g.isBridge with
  | false =>
    rw [resolveBridge_of_plain htok (make_eq_ok hp).2.2 hreach hbridge] at h
    exact Except.ok.inj h ▸ (mem_declaredMethods hg).1
  | true =>
    have hindex := bridgeIndex_of_make hp
    cases strategy with
    | leaveBridges =>
      have hnone : p.resolver = none := (Except.ok.inj (make_eq_ok hp).2.2).symm
      rw [hnone] at h
      exact Except.ok.inj h ▸ (mem_declaredMethods hg).1
    | resolveBridges policy =>
      obtain ⟨n, y, hend, howner⟩ := endsAt_own hindex htok hg hbridge (k := 0) rfl rfl
      exact howner c ((resolveBridge_of_endsAt hend).symm.trans h)

/-- once a way comes to the token of a bridge of the type itself, it ends in a method of the type itself -/
theorem owner_of_resolveBridge_past_own (hg : g ∈ t.declaredMethods) (hbridge : g.isBridge = true)
    (hx : p.bridgeIndex.lookedUp f (k + 1) = some x) (htoken : g.token = x.token)
    (h : resolveBridge p.resolver f = .ok c) : c.owner = t.name := by
  have hindex := bridgeIndex_of_make hp
  cases strategy with
  | leaveBridges =>
    have hempty : p.bridgeIndex = .empty := hindex
    rw [hempty] at hx
    exact absurd hx (by simp [BridgeIndex.lookedUp, BridgeIndex.next?])
  | resolveBridges policy =>
    obtain ⟨n, y, hend, howner⟩ := endsAt_own hindex htok hg hbridge hx htoken
    exact howner c ((resolveBridge_of_endsAt hend).symm.trans h)

end Own

/-! ## Planners of a type with and without methods of its own -/

section Both

variable {t bare : KnownType} (h : t.Enriches bare) {strategy : BridgeStrategy} {p p0 : Planner}
  (hp0 : make strategy (.ofType bare) = .ok p0) (hp : make strategy (.ofType t) = .ok p)

include h hp0 hp

/-- the indexes agree on every token that the type itself does not declare -/
theorem find?_bridgeIndex_eq {token : MethodToken} (hfresh : token ∉ t.declaredMethods.map Method.token) :
    p.bridgeIndex.find? token = p0.bridgeIndex.find? token := by
  have hindex0 := bridgeIndex_of_make hp0
  have hindex := bridgeIndex_of_make hp
  cases strategy with
  | leaveBridges =>
    have hempty0 : p0.bridgeIndex = .empty := hindex0
    have hempty : p.bridgeIndex = .empty := hindex
    rw [hempty0, hempty]
  | resolveBridges policy =>
    by_cases hb : ∃ b ∈ bare.reachableBridges, b.token = token
    · obtain ⟨b, hb, rfl⟩ := hb
      obtain ⟨hreach, hbridge⟩ := KnownType.mem_reachableBridges.1 hb
      have hb' : b ∈ t.reachableBridges :=
        KnownType.mem_reachableBridges.2 ⟨h.mem_reachableMethods.2 (Or.inr ⟨hreach, hfresh⟩), hbridge⟩
      obtain ⟨target0, htarget0, hfind0⟩ := KnownType.find?_bridgeIndex_of_mem hindex0 h.tokensDistinct_bare hb
      obtain ⟨target, htarget, hfind⟩ := KnownType.find?_bridgeIndex_of_mem hindex h.tokensDistinct hb'
      rw [h.bridgeTarget_eq (h.owner_ne hreach), htarget] at htarget0
      rw [hfind, hfind0, Except.ok.inj htarget0]
    · have hnone0 : p0.bridgeIndex.find? token = none :=
        KnownType.find?_bridgeIndex_eq_none hindex0 fun b hmem heq => hb ⟨b, hmem, heq⟩
      have hnone : p.bridgeIndex.find? token = none := by
        refine KnownType.find?_bridgeIndex_eq_none hindex fun b hmem heq => ?_
        obtain ⟨hreach, hbridge⟩ := KnownType.mem_reachableBridges.1 hmem
        rcases h.mem_reachableMethods.1 hreach with hown | ⟨hbare, -⟩
        · exact hfresh (heq ▸ List.mem_map_of_mem hown)
        · exact hb ⟨b, KnownType.mem_reachableBridges.2 ⟨hbare, hbridge⟩, heq⟩
      rw [hnone, hnone0]

end Both

end Planner

end CallPlan
