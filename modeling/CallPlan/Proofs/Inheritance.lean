/-
What a type inherits, exactly.

The inheritable methods are what the super types hand down, one super type after the other, and the first method of
each token is kept. So the method that is inherited under a token is the one of the super type that is met first of
all that hand the token down (`FirstMet`), and which one that is can be read off the order of the super types: first
the super classes, each at its distance or nearer, then the interfaces.

- `reachableMethods_inherited`: the reachable methods are the declared ones and then what is inherited, which is
  sound, complete, without repeated tokens, and nearest first;
- `ring_reachableMethods`: what is inherited in a cycle of classes with a diamond of interfaces.
-/
import CallPlan.Proofs.BridgeIndex
import CallPlan.Proofs.SuperTypes
import CallPlan.Samples.Pools

namespace CallPlan.KnownType

variable {t : KnownType} {d s : TypeDecl} {m n : Method} {token : MethodToken} {later : List TypeDecl}

/-! ## What one super type contributes -/

/-- a method of `d` that a subtype takes over; a static one only from the chain of super classes -/
structure HandsDown (t : KnownType) (d : TypeDecl) (m : Method) : Prop where
  declared : m ∈ d.declaredMethods
  notConstructor : m.isConstructor = false
  notTypeInitializer : m.isTypeInitializer = false
  notPrivate : m.isPrivate = false
  chainIfStatic : m.isStatic = true → t.OnChain d

/-- the methods that a super type hands down, as it declares them -/
def handedDown (t : KnownType) (d : TypeDecl) : List Method :=
  d.declaredMethods.filter fun m => m.isInheritable && (!m.isStatic || decide (d ∈ t.superClasses))

theorem mem_handedDown (hd : d.name ≠ t.name) : m ∈ t.handedDown d ↔ t.HandsDown d m := by
  have hchain : t.OnChain d ↔ d ∈ t.superClasses := onChain_iff.trans (or_iff_right fun h => hd (h ▸ rfl))
  simp only [handedDown, List.mem_filter, Bool.and_eq_true, Bool.or_eq_true, Bool.not_eq_true', decide_eq_true_eq,
    ← hchain, Method.isInheritable_iff]
  constructor
  · rintro ⟨hmem, ⟨hconstructor, hinitializer, hprivate⟩, hplace⟩
    exact ⟨hmem, hconstructor, hinitializer, hprivate, fun hs => hplace.resolve_left (by simp [hs])⟩
  · intro h
    refine ⟨h.declared, ⟨h.notConstructor, h.notTypeInitializer, h.notPrivate⟩, ?_⟩
    cases hs : m.isStatic with
    | false => exact Or.inl rfl
    | true => exact Or.inr (h.chainIfStatic hs)

theorem not_mem_superClasses (hd : d ∈ t.superInterfaces) : d ∉ t.superClasses :=
  fun hmem => (mem_superInterfaces_iff.1 hd).2.1 (onChain_iff.2 (Or.inr hmem))

theorem inheritable_eq_flatMap (t : KnownType) : t.inheritable = t.superTypes.flatMap t.handedDown := by
  rw [inheritable, superTypes, List.flatMap_append]
  congr 1
  · refine List.flatMap_congr fun d hd => ?_
    simp [handedDown, hd]
  · refine List.flatMap_congr fun d hd => ?_
    simp [handedDown, not_mem_superClasses hd]

/-! ## What is met first -/

/-- of all that hand down the token `s` is met first, and `later` is what is met after it -/
def FirstMet (t : KnownType) (s : TypeDecl) (token : MethodToken) (later : List TypeDecl) : Prop :=
  ∃ before, t.superTypes = before ++ s :: later ∧ ∀ x ∈ before, ∀ n, t.HandsDown x n → n.token ≠ token

theorem FirstMet.superType (h : t.FirstMet s token later) : t.SuperType s ∧ s.name ≠ t.name := by
  obtain ⟨before, hsplit, -⟩ := h
  have hmem : s ∈ t.superTypes := hsplit ▸ List.mem_append_right _ List.mem_cons_self
  exact mem_superTypes_iff.1 hmem

/-- **The first inheritable method of a token** is handed down by the super type that is met first. -/
theorem exists_firstMet (h : t.inheritable.find? (·.token == token) = some m) :
    ∃ s later, t.FirstMet s token later ∧ t.HandsDown s m := by
  rw [inheritable_eq_flatMap, List.find?_flatMap] at h
  obtain ⟨before, s, later, hsplit, hfind, hbefore⟩ := List.findSome?_eq_some_iff.1 h
  have hfirst : t.FirstMet s token later := by
    refine ⟨before, hsplit, fun x hx n hn => ?_⟩
    have hmem : x ∈ t.superTypes := hsplit ▸ List.mem_append_left _ hx
    have hhanded : n ∈ t.handedDown x := (mem_handedDown (mem_superTypes_iff.1 hmem).2).2 hn
    simpa using List.find?_eq_none.1 (hbefore x hx) n hhanded
  exact ⟨s, later, hfirst, (mem_handedDown hfirst.superType.2).1 (List.mem_of_find?_eq_some hfind)⟩

/-- what is met first has the first inheritable method of the token -/
theorem FirstMet.exists_find? (h : t.FirstMet s n.token later) (hn : t.HandsDown s n) :
    ∃ m ∈ s.declaredMethods, t.inheritable.find? (·.token == n.token) = some m := by
  have hne := h.superType.2
  obtain ⟨before, hsplit, hbefore⟩ := h
  have hnone : (before.flatMap t.handedDown).find? (·.token == n.token) = none := by
    refine List.find?_eq_none.2 fun x hx heq => ?_
    obtain ⟨d, hd, hx⟩ := List.mem_flatMap.1 hx
    have hmem : d ∈ t.superTypes := hsplit ▸ List.mem_append_left _ hd
    exact hbefore d hd x ((mem_handedDown (mem_superTypes_iff.1 hmem).2).1 hx) (eq_of_beq heq)
  have hsome : ((t.handedDown s).find? (·.token == n.token)).isSome :=
    List.find?_isSome.2 ⟨n, (mem_handedDown hne).2 hn, BEq.rfl⟩
  obtain ⟨m, hm⟩ := Option.isSome_iff_exists.1 hsome
  refine ⟨m, (List.mem_filter.1 (List.mem_of_find?_eq_some hm)).1, ?_⟩
  rw [inheritable_eq_flatMap, hsplit, List.flatMap_append, List.flatMap_cons, List.find?_append, hnone,
    Option.none_or, List.find?_append, hm, Option.some_or]

/-! ## What is inherited -/

/-- declared on the chain of super classes -/
def FromChain (t : KnownType) (m : Method) : Prop := ∃ d, t.OnChain d ∧ m ∈ d.declaredMethods

/-- `ms` is what the type inherits beside its declared methods -/
structure Inherits (t : KnownType) (ms : List Method) : Prop where
  /-- each method is handed down by another super type -/
  handed : ∀ m ∈ ms, ∃ d, t.SuperType d ∧ d.name ≠ t.name ∧ t.HandsDown d m
  tokensDistinct : (ms.map Method.token).Nodup
  /-- what the type declares hides what has the same token -/
  hidden : ∀ m ∈ ms, m.token ∉ t.declaredMethods.map Method.token
  /-- no token that another super type hands down is missing -/
  complete : ∀ d n, t.SuperType d → d.name ≠ t.name → t.HandsDown d n →
    ∃ m ∈ t.declaredMethods ++ ms, m.token = n.token
  /-- methods of super classes precede those of interfaces -/
  chainFirst : ms.Pairwise fun a b => t.FromChain b → t.FromChain a
  /-- a super class wins over interfaces and over super classes farther up -/
  nearest : ∀ k d n, t.ancestor? k = some d → d.name ≠ t.name → t.HandsDown d n → ∀ m ∈ ms, m.token = n.token →
    ∃ j ≤ k, ∃ s, t.ancestor? j = some s ∧ m ∈ s.declaredMethods

theorem fromChain_iff_of_handedDown (hd : d ∈ t.superTypes) (hm : m ∈ t.handedDown d) :
    t.FromChain m ↔ t.OnChain d := by
  have hdecl := (List.mem_filter.1 hm).1
  constructor
  · rintro ⟨s, hs, hmem⟩
    have hname : s.name = d.name := (mem_declaredMethods hmem).1.symm.trans (mem_declaredMethods hdecl).1
    obtain rfl : s = d := Option.some.inj (hs.find?_eq.symm.trans (hname ▸ (mem_superTypes_iff.1 hd).1.1))
    exact hs
  · intro hon
    exact ⟨d, hon, hdecl⟩

/-- in what all super types hand down, the chain comes first -/
theorem inheritable_chainFirst (t : KnownType) : t.inheritable.Pairwise fun a b => t.FromChain b → t.FromChain a := by
  rw [inheritable_eq_flatMap, superTypes, List.flatMap_append, List.pairwise_append]
  have hclass : ∀ m ∈ t.superClasses.flatMap t.handedDown, t.FromChain m := by
    intro m hm
    obtain ⟨d, hd, hm⟩ := List.mem_flatMap.1 hm
    exact (fromChain_iff_of_handedDown (List.mem_append_left _ hd) hm).2 (onChain_iff.2 (Or.inr hd))
  have hinterface : ∀ m ∈ t.superInterfaces.flatMap t.handedDown, ¬ t.FromChain m := by
    intro m hm
    obtain ⟨d, hd, hm⟩ := List.mem_flatMap.1 hm
    rw [fromChain_iff_of_handedDown (List.mem_append_right _ hd) hm]
    exact (mem_superInterfaces_iff.1 hd).2.1
  exact ⟨List.pairwise_of_forall_mem_list fun a ha _ _ _ => hclass a ha,
    List.pairwise_of_forall_mem_list fun _ _ b hb h => absurd h (hinterface b hb),
    fun a ha _ _ _ => hclass a ha⟩

/-- a token that a super class hands down is inherited from there or from nearer -/
theorem exists_ancestor_of_find? {k : Nat} (hk : t.ancestor? k = some d) (hd : d.name ≠ t.name)
    (hn : t.HandsDown d n) (h : t.inheritable.find? (·.token == n.token) = some m) :
    ∃ j ≤ k, ∃ s, t.ancestor? j = some s ∧ m ∈ s.declaredMethods := by
  obtain ⟨s, later, ⟨before, hsplit, hbefore⟩, hm⟩ := exists_firstMet h
  obtain ⟨i, hi, hget⟩ := exists_getElem?_superClasses hk fun heq => hd (heq ▸ rfl)
  have hlt : i < t.superClasses.length := (List.getElem?_eq_some_iff.1 hget).1
  -- the first super type with the token is a super class, since one of them has it
  have hle : before.length ≤ i := by
    by_contra hcon
    have hat : t.superTypes[i]? = some d := by rw [superTypes, List.getElem?_append_left hlt, hget]
    rw [hsplit, List.getElem?_append_left (Nat.not_le.1 hcon)] at hat
    exact hbefore d (List.mem_of_getElem? hat) n hn rfl
  have hat : t.superTypes[before.length]? = some s := by rw [hsplit]; simp
  rw [superTypes, List.getElem?_append_left (Nat.lt_of_le_of_lt hle hlt)] at hat
  exact ⟨before.length + 1, Nat.lt_of_le_of_lt hle hi, s, getElem?_superClasses hat, hm.declared⟩

/-- **The reachable methods are the declared ones, and then exactly what is inherited**, in any hierarchy: cyclic, with
unknown parents, or with interfaces that are met more than once. -/
theorem reachableMethods_inherited (t : KnownType) :
    ∃ inherited, t.reachableMethods = t.declaredMethods ++ inherited ∧ t.Inherits inherited := by
  refine ⟨_, rfl, ?_, firstByToken_nodup _ _, fun m hm => (mem_firstByToken.1 hm).1, ?_,
    (inheritable_chainFirst t).sublist (firstByToken_sublist _ _), ?_⟩
  · intro m hm
    obtain ⟨s, later, hfirst, hhands⟩ := exists_firstMet (mem_firstByToken.1 hm).2
    obtain ⟨hsuper, hname⟩ := hfirst.superType
    exact ⟨s, hsuper, hname, hhands⟩
  · intro d n hsuper hname hn
    have hinh : n ∈ t.inheritable := by
      rw [inheritable_eq_flatMap]
      exact List.mem_flatMap.2 ⟨d, mem_superTypes_iff.2 ⟨hsuper, hname⟩, (mem_handedDown hname).2 hn⟩
    by_cases hown : n.token ∈ t.declaredMethods.map Method.token
    · obtain ⟨m, hm, heq⟩ := List.mem_map.1 hown
      exact ⟨m, List.mem_append_left _ hm, heq⟩
    · have hsome : (t.inheritable.find? (·.token == n.token)).isSome := List.find?_isSome.2 ⟨n, hinh, BEq.rfl⟩
      obtain ⟨m, hm⟩ := Option.isSome_iff_exists.1 hsome
      have htoken : m.token = n.token := by simpa using List.find?_some hm
      exact ⟨m, List.mem_append_right _ (mem_firstByToken.2 ⟨htoken ▸ hown, htoken ▸ hm⟩), htoken⟩
  · intro k d n hk hd hn m hm htoken
    exact exists_ancestor_of_find? hk hd hn (htoken ▸ (mem_firstByToken.1 hm).2)

/-- a class whose super class extends it, and which meets one of its interfaces on two ways, inherits each token once -/
theorem ring_reachableMethods : ∃ t, Samples.ring >>= (·.type Samples.ringName) = .ok t ∧
    t.ancestor? 2 = some t.decl ∧ t.reachableMethods = t.declaredMethods ++ Samples.ringInherited ∧
    t.Inherits Samples.ringInherited := by
  obtain ⟨t, ht, htest⟩ := exists_ok_of_any (x := Samples.ring >>= (·.type Samples.ringName)) (f := fun t =>
    t.ancestor? 2 == some t.decl && t.reachableMethods == t.declaredMethods ++ Samples.ringInherited)
    (by decide +kernel)
  simp only [Bool.and_eq_true, beq_iff_eq] at htest
  obtain ⟨hcycle, hlisted⟩ := htest
  obtain ⟨inherited, hreachable, hinherits⟩ := reachableMethods_inherited t
  have hsame : inherited = Samples.ringInherited := List.append_cancel_left (hreachable.symm.trans hlisted)
  exact ⟨t, ht, hcycle, hlisted, hsame ▸ hinherits⟩

end CallPlan.KnownType
