/-
What the instruction of a super call selects.

A legal call names the super class, not the type that declares the method found, and a non-virtual call on a class
selects the first method of the token from that class upwards. What is found and what is selected are one method
unless a class in between declares the token again. Overriding normally prevents this, since a method that is
declared again is not inherited, but there are two gaps:

- a private method does not enter the walk over inheritable methods, so it does not hide what it redeclares;
- the candidate of an inherited bridge is taken next to the bridge, even when a class below redeclares it.

- `maySuperCall_iff`: the conditions of a legal call, one by one;
- `superCall_linkage`: exactly when the method selected can be run, and what stands in the way if not;
- `unlinkable_superCalls`: both gaps, in pools that are otherwise in order.
-/
import CallPlan.Proofs.BridgeChain
import CallPlan.Proofs.Selection
import Mathlib.Data.List.TakeWhile

namespace CallPlan

/-- an instance method with a body that subclasses may call -/
def Method.isConcrete (m : Method) : Bool := !m.isAbstract && !m.isStatic && !m.isPrivate

/-! ## Selection up the super classes -/

namespace KnownType

variable {t s : KnownType} {m : Method} {d : TypeDecl}

/-- the type and its super classes, nearest first -/
def lineage (t : KnownType) : List TypeDecl := t.decl :: t.superClasses

/-- the part of the lineage before a name -/
def below (t : KnownType) (name : String) : List TypeDecl := t.lineage.takeWhile (·.name != name)

/-- what a non-virtual call on the type selects -/
def selected (t : KnownType) (token : MethodToken) : Option Method :=
  (t.lineage.flatMap (·.declaredMethods)).find? (·.token == token)

/-- the first method of the same token that a class below the owner of `m` declares -/
def redeclaration (t : KnownType) (m : Method) : Option Method :=
  ((t.below m.owner).flatMap (·.declaredMethods)).find? (·.token == m.token)

theorem mem_below {name : String} (h : d ∈ t.below name) : d ∈ t.lineage ∧ d.name ≠ name := by
  have hname := List.mem_takeWhile_imp (p := fun d : TypeDecl => d.name != name) h
  exact ⟨(List.takeWhile_sublist _).subset h, by simpa using hname⟩

theorem find?_of_mem_lineage (h : d ∈ t.lineage) : t.pool.find? d.name = some d := by
  rcases List.mem_cons.1 h with rfl | h
  · exact t.known
  · exact (find?_of_mem_superClasses h).1

/-- a declared method is the first of its token in its type -/
theorem find?_declaredMethods (htok : t.pool.TokensDistinct) (hd : t.pool.find? m.owner = some d)
    (hm : m ∈ d.declaredMethods) : d.declaredMethods.find? (·.token == m.token) = some m := by
  cases hfind : d.declaredMethods.find? (·.token == m.token) with
  | none => exact absurd (by simp) (List.find?_eq_none.1 hfind m hm)
  | some n =>
    have htoken : n.token = m.token := by simpa using List.find?_some hfind
    exact congrArg some (htok.eq_of_token_eq hd (List.mem_of_find?_eq_some hfind) hm htoken)

/-- among declarations that the pool finds, the first method of a token is the one declared below its owner, if any -/
theorem find?_flatMap_declared (htok : t.pool.TokensDistinct) (hd : t.pool.find? m.owner = some d)
    (hm : m ∈ d.declaredMethods) {ds : List TypeDecl} (hds : ∀ e ∈ ds, t.pool.find? e.name = some e)
    (hmem : m.owner ∈ ds.map (·.name)) :
    (ds.flatMap (·.declaredMethods)).find? (·.token == m.token) =
      some ((((ds.takeWhile (·.name != m.owner)).flatMap (·.declaredMethods)).find? (·.token == m.token)).getD m) := by
  induction ds with
  | nil => exact absurd hmem (by simp)
  | cons e ds ih =>
    by_cases he : e.name = m.owner
    · obtain rfl : e = d := Option.some.inj ((hds e List.mem_cons_self).symm.trans (he ▸ hd))
      simp [he, find?_declaredMethods htok hd hm]
    · have hrest := ih (fun x hx => hds x (List.mem_cons_of_mem _ hx)) (by simpa [Ne.symm he] using hmem)
      have htake : (e :: ds).takeWhile (·.name != m.owner) = e :: ds.takeWhile (·.name != m.owner) := by simp [he]
      rw [htake, List.flatMap_cons, List.flatMap_cons, List.find?_append, List.find?_append, hrest]
      cases e.declaredMethods.find? (·.token == m.token) <;> rfl

/-- what is selected for a method of the lineage is what hides it, or the method itself -/
theorem selected_of_mem_lineage (htok : t.pool.TokensDistinct) (hd : t.pool.find? m.owner = some d)
    (hm : m ∈ d.declaredMethods) (hmem : m.owner ∈ t.lineage.map (·.name)) :
    t.selected m.token = some ((t.redeclaration m).getD m) :=
  find?_flatMap_declared htok hd hm (fun _ => find?_of_mem_lineage) hmem

theorem selected_of_not_mem_lineage (h : m.owner ∉ t.lineage.map (·.name)) :
    t.selected m.token = t.redeclaration m := by
  have hbelow : t.below m.owner = t.lineage := by
    refine List.takeWhile_eq_self_iff.2 fun d hd => ?_
    have hne : d.name ≠ m.owner := fun heq => h (heq ▸ List.mem_map_of_mem hd)
    simpa using hne
  rw [selected, redeclaration, hbelow]

theorem redeclaration_eq_some {n : Method} (h : t.redeclaration m = some n) :
    n.token = m.token ∧ n.owner ≠ m.owner ∧ ∃ d ∈ t.lineage, n ∈ d.declaredMethods := by
  have htoken : n.token = m.token := by simpa using List.find?_some h
  obtain ⟨d, hd, hn⟩ := List.mem_flatMap.1 (List.mem_of_find?_eq_some h)
  obtain ⟨hlineage, hne⟩ := mem_below hd
  exact ⟨htoken, by rw [(mem_declaredMethods hn).1]; exact hne, d, hlineage, hn⟩

/-! ## What a planner can find -/

/-- a reachable method, or what a reachable bridge may forward to -/
def Offers (t : KnownType) (m : Method) : Prop :=
  m ∈ t.reachableMethods ∨ ∃ b ∈ t.reachableBridges, m ∈ bridgeCandidates t.pool b

theorem find?_owner_of_offers (h : t.Offers m) : ∃ d, t.pool.find? m.owner = some d ∧ m ∈ d.declaredMethods := by
  rcases h with hreach | ⟨b, -, hc⟩
  · exact find?_owner_of_reachable hreach
  · obtain ⟨d, hd, hm, -, -⟩ := Pool.mem_bridgeCandidates.1 hc
    exact ⟨d, by rw [(mem_declaredMethods hm).1]; exact Pool.find?_self hd, hm⟩

/-- what a bridge may forward to is declared where the bridge is -/
theorem owner_of_mem_bridgeCandidates {p : Pool} {b : Method} (h : m ∈ bridgeCandidates p b) : m.owner = b.owner := by
  obtain ⟨d, hd, hm, -, -⟩ := Pool.mem_bridgeCandidates.1 h
  exact (mem_declaredMethods hm).1.trans (Pool.find?_name hd)

/-- the owner of a reachable method is the type itself, or one of its super classes or interfaces -/
theorem owner_of_reachable (h : m ∈ t.reachableMethods) :
    m.owner = t.name ∨ (∃ d ∈ t.superClasses, d.name = m.owner) ∨ ∃ d ∈ t.superInterfaces, d.name = m.owner := by
  rcases mem_reachableMethods.1 h with hown | ⟨-, hinh⟩
  · exact Or.inl (mem_declaredMethods hown).1
  · have hmem := List.mem_of_find?_eq_some hinh
    rw [inheritable, List.mem_append, List.mem_flatMap, List.mem_flatMap] at hmem
    rcases hmem with ⟨d, hd, hm⟩ | ⟨d, hd, hm⟩
    · exact Or.inr (Or.inl ⟨d, hd, (mem_declaredMethods (List.mem_filter.1 hm).1).1.symm⟩)
    · exact Or.inr (Or.inr ⟨d, hd, (mem_declaredMethods (List.mem_filter.1 hm).1).1.symm⟩)

theorem owner_of_offers (h : t.Offers m) :
    m.owner = t.name ∨ (∃ d ∈ t.superClasses, d.name = m.owner) ∨ ∃ d ∈ t.superInterfaces, d.name = m.owner := by
  rcases h with hreach | ⟨b, hb, hc⟩
  · exact owner_of_reachable hreach
  · rw [owner_of_mem_bridgeCandidates hc]
    exact owner_of_reachable (mem_reachableBridges.1 hb).1

/-- an inheritable method below a name is inherited rather than one of the same token declared at that name -/
theorem owner_ne_of_inheritable_below (hac : t.pool.Acyclic) (hs : t.superClass? = some s) {name : String}
    {n : Method} (hd : d ∈ s.below name) (hn : n ∈ d.declaredMethods) (hinh : n.isInheritable = true)
    (hm : t.inheritable.find? (·.token == n.token) = some m) : m.owner ≠ name := by
  have hsplit : t.inheritable = (s.below name).flatMap (·.declaredMethods.filter Method.isInheritable) ++
      ((s.lineage.dropWhile (·.name != name)).flatMap (·.declaredMethods.filter Method.isInheritable) ++
        t.superInterfaces.flatMap (·.declaredMethods.filter fun m => m.isInheritable && !m.isStatic)) := by
    have hchain : t.superClasses = s.lineage := superClasses_eq_cons hac hs
    rw [inheritable, hchain, ← List.append_assoc, ← List.flatMap_append, below, List.takeWhile_append_dropWhile]
  rw [hsplit, List.find?_append] at hm
  cases hfirst : ((s.below name).flatMap (·.declaredMethods.filter Method.isInheritable)).find?
      (·.token == n.token) with
  | none =>
    have hmem : n ∈ (s.below name).flatMap (·.declaredMethods.filter Method.isInheritable) :=
      List.mem_flatMap.2 ⟨d, hd, List.mem_filter.2 ⟨hn, hinh⟩⟩
    exact absurd (by simp) (List.find?_eq_none.1 hfirst n hmem)
  | some e =>
    rw [hfirst, Option.some_or] at hm
    obtain rfl := Option.some.inj hm
    obtain ⟨x, hx, he⟩ := List.mem_flatMap.1 (List.mem_of_find?_eq_some hfirst)
    rw [(mem_declaredMethods (List.mem_filter.1 he).1).1]
    exact (mem_below hx).2

/-- **Only a private method redeclares what is still inherited**: any other would be inherited in its place. -/
theorem isPrivate_of_redeclaration (hac : t.pool.Acyclic) (hs : t.superClass? = some s) (hm : m ∈ t.reachableMethods)
    (hmem : m.owner ∈ s.lineage.map (·.name)) {n : Method} (hn : s.redeclaration m = some n) : n.isPrivate = true := by
  obtain ⟨htoken, -, -⟩ := redeclaration_eq_some hn
  have hinherited : t.inheritable.find? (·.token == m.token) = some m := by
    rcases mem_reachableMethods.1 hm with hown | ⟨-, hinh⟩
    · -- the type itself is none of its super classes
      have hchain : t.superClasses = s.lineage := superClasses_eq_cons hac hs
      obtain ⟨d, hd, hname⟩ := List.mem_map.1 hmem
      rw [← hchain] at hd
      exact absurd (hname.trans (mem_declaredMethods hown).1) (find?_of_mem_superClasses hd).2
    · exact hinh
  obtain ⟨-, -, -, -, hinh⟩ := owner_of_inheritable (List.mem_of_find?_eq_some hinherited)
  by_contra hpublic
  have hninh : n.isInheritable = true := by
    have hname : n.name = m.name := congrArg MethodToken.name htoken
    obtain ⟨hconstructor, hinitializer, -⟩ := Method.isInheritable_iff.1 hinh
    rw [Method.isInheritable_iff, Method.isConstructor, Method.isTypeInitializer, hname]
    exact ⟨hconstructor, hinitializer, Bool.eq_false_iff.2 hpublic⟩
  obtain ⟨d, hd, hnd⟩ := List.mem_flatMap.1 (List.mem_of_find?_eq_some hn)
  exact owner_ne_of_inheritable_below hac hs hd hnd hninh (htoken ▸ hinherited) rfl

end KnownType

/-! ## What resolution returns -/

namespace BridgeResolver

/-- a method resolves to itself, to a reachable bridge or to a candidate of one -/
theorem offers_of_resolve {t : KnownType} {policy : ConflictPolicy} {r : BridgeResolver}
    (hr : ofType t policy.handler = .ok r) {m x : Method} (h : r.resolve m = .ok x) : x = m ∨ t.Offers x := by
  obtain ⟨index, hindex, hmk⟩ := bind_eq_ok.1 hr
  obtain rfl : (⟨t, index⟩ : BridgeResolver) = r := Except.ok.inj hmk
  obtain ⟨k, y, hend, hfinal⟩ := endsAt_of_resolve h
  have hy : y = m ∨ t.Offers y := by
    cases k with
    | zero => exact Or.inl (Option.some.inj hend.reached).symm
    | succ k =>
      have hreached := hend.reached
      rw [BridgeIndex.lookedUp_succ] at hreached
      obtain ⟨z, -, hz⟩ := Option.bind_eq_some_iff.1 hreached
      obtain ⟨b, hb, -, hc⟩ := candidate_of_next? hindex hz
      exact Or.inr (Or.inr ⟨b, hb, hc⟩)
  unfold BridgeIndex.final at hfinal
  split at hfinal
  · rename_i z hz
    obtain rfl := Except.ok.inj hfinal
    exact Or.inr (Or.inl (KnownType.mem_reachableBridges.1 (KnownType.mem_of_find?_resolved hindex hz).1).1)
  · exact absurd hfinal (by simp)
  · obtain rfl := Except.ok.inj hfinal
    exact hy

end BridgeResolver

/-- what `t` may call on its super class `s`: an instance method with a body, not private and no type initializer,
declared by a known class that `s` is assignable to, and by `s` itself if it is a constructor -/
structure SuperCallable (t s : KnownType) (m : Method) : Prop where
  notAbstract : m.isAbstract = false
  notStatic : m.isStatic = false
  notPrivate : m.isPrivate = false
  notTypeInitializer : m.isTypeInitializer = false
  ofClass : ∃ d, t.pool.find? m.owner = some d ∧ d.isInterface = false
  assignable : s.pool.isSubtype s.name m.owner = true
  constructorOfSuper : m.isConstructor = true → m.owner = s.name

namespace Planner

variable {t s : KnownType} {strategy : BridgeStrategy} {p : Planner} {m r : Method}

/-- what a super call finds is on offer -/
theorem offers_of_lookUp (hp : make strategy (.ofType t) = .ok p) (h : p.lookUp m .superType = .ok (some r)) :
    t.Offers r := by
  obtain ⟨f, hfind, hres⟩ := find?_of_lookUp h
  have hreach : f ∈ t.reachableMethods := by
    rw [find?_made hp, Option.or_eq_some_iff] at hfind
    rcases hfind with hfirst | ⟨-, hfirst⟩
    · exact (SignatureIndex.first?_eq_some hfirst).1
    · exact (SignatureIndex.first?_eq_some hfirst).1
  have hresolver := (make_eq_ok hp).2.2
  cases strategy with
  | leaveBridges =>
    rw [← Except.ok.inj hresolver] at hres
    exact Or.inl (Except.ok.inj hres ▸ hreach)
  | resolveBridges policy =>
    obtain ⟨resolver, hmade, hsome⟩ := bind_eq_ok.1 hresolver
    rw [← Except.ok.inj hsome] at hres
    rcases BridgeResolver.offers_of_resolve hmade hres with rfl | hoffers
    · exact Or.inl hreach
    · exact hoffers

/-- **The check of a super call, condition by condition.** -/
theorem maySuperCall_iff : maySuperCall t s r = true ↔ SuperCallable t s r := by
  have hconstructor : (!(r.isConstructor && r.owner != s.name)) = true ↔
      (r.isConstructor = true → r.owner = s.name) := by
    cases r.isConstructor <;> simp
  simp only [maySuperCall, Bool.and_eq_true, hconstructor, Bool.not_eq_true', Option.any_eq_true]
  constructor
  · rintro ⟨⟨⟨⟨⟨habstract, hstatic⟩, hprivate⟩, hinit⟩, hown⟩, declaring, htype, hclass, hassignable⟩
    obtain ⟨-, hfind⟩ := Pool.type?_eq_some_iff.1 htype
    have hname : declaring.name = r.owner := Pool.find?_name hfind
    exact ⟨habstract, hstatic, hprivate, hinit, ⟨declaring.decl, hfind, hclass⟩, hname ▸ hassignable, hown⟩
  · rintro ⟨habstract, hstatic, hprivate, hinit, ⟨d, hd, hclass⟩, hassignable, hown⟩
    have hname : d.name = r.owner := Pool.find?_name hd
    refine ⟨⟨⟨⟨⟨habstract, hstatic⟩, hprivate⟩, hinit⟩, hown⟩, ⟨t.pool, d, Pool.find?_self hd⟩, ?_, hclass, ?_⟩
    · exact Pool.type?_eq_some_iff.2 ⟨rfl, hd⟩
    · show s.pool.isSubtype s.name d.name = true
      rw [hname, hassignable]

/-- the call of a method on the super class is legal iff it may be called there -/
theorem callOnSuper_eq_legal_iff :
    callOnSuper t m = .legal r s ↔ r = m ∧ t.superClass? = some s ∧ SuperCallable t s m := by
  unfold callOnSuper
  cases hs : t.superClass? with
  | none => simp
  | some a =>
    by_cases hmay : maySuperCall t a m = true
    · simp only [hmay, if_true, SpecialCall.legal.injEq, Option.some.injEq]
      constructor
      · rintro ⟨rfl, rfl⟩
        exact ⟨rfl, rfl, maySuperCall_iff.1 hmay⟩
      · rintro ⟨rfl, rfl, -⟩
        exact ⟨rfl, rfl⟩
    · simp only [if_neg hmay]
      constructor
      · intro h
        exact absurd h (by simp)
      · rintro ⟨-, ha, hc⟩
        obtain rfl := Option.some.inj ha
        exact absurd (maySuperCall_iff.2 hc) hmay

/-- a legal super call is one of what was found, on the super class -/
theorem superCall_eq_legal {lookup : CallLookup} {on : KnownType} (h : p.superCall m lookup = .ok (.legal r on)) :
    p.lookUp m lookup = .ok (some r) ∧ p.type.superClass? = some on ∧ maySuperCall p.type on r = true := by
  obtain ⟨found, hlook, hcall⟩ := bind_eq_ok.1 h
  cases found with
  | none => exact absurd (Except.ok.inj hcall) (by simp)
  | some f =>
    obtain ⟨rfl, hsuper, hcallable⟩ := callOnSuper_eq_legal_iff.1 (Except.ok.inj hcall)
    exact ⟨hlook, hsuper, maySuperCall_iff.2 hcallable⟩

theorem isConcrete_of_maySuperCall (h : maySuperCall t s r = true) : r.isConcrete = true := by
  have hcallable := maySuperCall_iff.1 h
  simp [Method.isConcrete, hcallable.notAbstract, hcallable.notStatic, hcallable.notPrivate]

/-- what may be called on the super class is declared by a class that the super class is assignable to -/
theorem owner_of_maySuperCall (h : maySuperCall t s r = true) :
    ∃ d, t.pool.find? r.owner = some d ∧ d.isInterface = false ∧ s.pool.isSubtype s.name r.owner = true := by
  have hcallable := maySuperCall_iff.1 h
  obtain ⟨d, hd, hclass⟩ := hcallable.ofClass
  exact ⟨d, hd, hclass, hcallable.assignable⟩

/-- what can be found and called is declared in the lineage of the super class, unless the type passes for the root
class or a class stands where interfaces should -/
theorem owner_mem_lineage (hac : t.pool.Acyclic) (hs : t.superClass? = some s) (hoffers : t.Offers r)
    (hmay : maySuperCall t s r = true) (hname : t.name ≠ PlatformName.object)
    (hinterfaces : ∀ d ∈ t.superInterfaces, d.isInterface = true) : r.owner ∈ s.lineage.map (·.name) := by
  obtain ⟨d, hd, hclass, hsub⟩ := owner_of_maySuperCall hmay
  rcases KnownType.owner_of_offers hoffers with hown | ⟨e, he, hename⟩ | ⟨e, he, hename⟩
  · -- the super class would be below its own subclass
    rw [(KnownType.superClass?_eq_some hs).2, hown, Pool.isSubtype_iff] at hsub
    rcases hsub with hobject | hpath
    · exact absurd hobject hname
    · exact absurd (.head' (KnownType.parent_of_superClass? hs) hpath) (hac t.name)
  · rw [KnownType.superClasses_eq_cons hac hs] at he
    exact List.mem_map.2 ⟨e, he, hename⟩
  · obtain ⟨hfind, -⟩ := KnownType.find?_of_mem_superInterfaces he
    rw [hename, hd] at hfind
    obtain rfl := Option.some.inj hfind
    rw [hinterfaces d he] at hclass
    exact absurd hclass (by decide)

/-! ## Main results -/

/-- **When a planned super call links.** The method found can be run, and it is called on the super class. The method
that this call selects can be run iff the first redeclaration below the owner of the method found can, or there is
none and the owner is in the lineage of the super class. A reachable method is redeclared there by private methods
only, so what else stands in the way is a redeclaration of what an inherited bridge forwards to, or a hierarchy in
which the type passes for the root class or a class stands among the interfaces. -/
theorem superCall_linkage (t s : KnownType) (hac : t.pool.Acyclic) (htok : t.pool.TokensDistinct)
    (hs : t.superClass? = some s) (strategy : BridgeStrategy) (p : Planner) (hp : make strategy (.ofType t) = .ok p)
    (m r : Method) (on : KnownType) (hcall : p.superCall m .superType = .ok (.legal r on)) :
    on = s ∧ r.isConcrete = true ∧
    ((∃ d, s.selected r.token = some d ∧ d.isConcrete = true) ↔
      (∀ d, s.redeclaration r = some d → d.isConcrete = true) ∧
      (s.redeclaration r = none → r.owner ∈ s.lineage.map (·.name))) ∧
    (r ∈ t.reachableMethods → r.owner ∈ s.lineage.map (·.name) →
      ∀ d, s.redeclaration r = some d → d.isPrivate = true) ∧
    (r ∉ t.reachableMethods → ∃ b ∈ t.reachableBridges, r ∈ bridgeCandidates t.pool b) ∧
    (t.name ≠ PlatformName.object → (∀ d ∈ t.superInterfaces, d.isInterface = true) →
      r.owner ∈ s.lineage.map (·.name)) := by
  obtain ⟨hlook, hsuper, hmay⟩ := superCall_eq_legal hcall
  have htype : p.type = t := (make_eq_ok hp).1
  rw [htype] at hsuper hmay
  obtain rfl : s = on := Option.some.inj (hs.symm.trans hsuper)
  have hoffers := offers_of_lookUp hp hlook
  have hconcrete := isConcrete_of_maySuperCall hmay
  obtain ⟨d, hd, hr⟩ := KnownType.find?_owner_of_offers hoffers
  have hpool : s.pool = t.pool := (KnownType.superClass?_eq_some hs).2
  refine ⟨rfl, hconcrete, ?_, ?_, ?_, ?_⟩
  · by_cases hmem : r.owner ∈ s.lineage.map (·.name)
    · have hselected := KnownType.selected_of_mem_lineage (hpool ▸ htok) (hpool ▸ hd) hr hmem
      rw [hselected]
      cases s.redeclaration r with
      | none => simpa [hmem] using hconcrete
      | some n => simp
    · rw [KnownType.selected_of_not_mem_lineage hmem]
      cases s.redeclaration r with
      | none => simpa using hmem
      | some n => simp
  · intro hreach hmem n hn
    exact KnownType.isPrivate_of_redeclaration hac hs hreach hmem hn
  · intro hnot
    exact hoffers.resolve_left hnot
  · exact owner_mem_lineage hac hs hoffers hmay

/-- whether a call is legal and what it names passes a test -/
def legalAnd (f : Method → KnownType → Bool) : SpecialCall → Bool
  | .legal m on => f m on
  | .illegal => false

theorem exists_of_legalAnd {f : Method → KnownType → Bool} {a : SpecialCall} (h : legalAnd f a = true) :
    ∃ m on, a = .legal m on ∧ f m on = true := by
  cases a with
  | illegal => exact absurd h (by simp [legalAnd])
  | legal m on => exact ⟨m, on, rfl, h⟩

/-- a type that passes this test plans a legal call of `r`, and the call selects `n` -/
theorem exists_legal_call {x : Except Error KnownType} {m r n : Method}
    (h : x.toOption.any (fun t => t.pool.isOrderly &&
      (make .default (.ofType t)).toOption.any fun p => (p.superCall m .superType).toOption.any
        (legalAnd fun found on => found == r && on.selected r.token == some n)) = true) :
    ∃ t s p, x = .ok t ∧ t.pool.Acyclic ∧ t.pool.TokensDistinct ∧ t.superClass? = some s ∧
      make .default (.ofType t) = .ok p ∧ p.superCall m .superType = .ok (.legal r s) ∧
      s.selected r.token = some n := by
  obtain ⟨t, ht, htest⟩ := exists_ok_of_any h
  obtain ⟨horderly, hmake⟩ := Bool.and_eq_true_iff.1 htest
  obtain ⟨hac, -, htok⟩ := Pool.isOrderly_sound horderly
  obtain ⟨p, hp, hcall⟩ := exists_ok_of_any hmake
  obtain ⟨c, hc, hlegal⟩ := exists_ok_of_any hcall
  obtain ⟨found, on, rfl, htest⟩ := exists_of_legalAnd hlegal
  obtain ⟨hfound, hselected⟩ := Bool.and_eq_true_iff.1 htest
  obtain rfl : found = r := eq_of_beq hfound
  obtain ⟨-, hsuper, -⟩ := superCall_eq_legal hc
  have htype : p.type = t := (make_eq_ok hp).1
  exact ⟨t, on, p, ht, hac, htok, htype ▸ hsuper, hp, hc, eq_of_beq hselected⟩

/-- a covariant override is called on its own class, and nothing redeclares it -/
theorem covariant_superCall_linkage : ∃ t s p,
    Samples.covariant >>= (Samples.generatedSubclass · Samples.childName) = .ok t ∧ t.superClass? = some s ∧
    make .default (.ofType t) = .ok p ∧
    p.superCall Samples.childBridge .superType = .ok (.legal Samples.childGet s) ∧
    (∀ d, s.redeclaration Samples.childGet = some d → d.isConcrete = true) ∧
    (s.redeclaration Samples.childGet = none → Samples.childGet.owner ∈ s.lineage.map (·.name)) := by
  obtain ⟨t, s, p, ht, hac, htok, hs, hp, hcall, hselected⟩ := exists_legal_call
    (x := Samples.covariant >>= (Samples.generatedSubclass · Samples.childName))
    (m := Samples.childBridge) (r := Samples.childGet) (n := Samples.childGet)
    (by decide +kernel)
  obtain ⟨-, -, hlinks, -⟩ := superCall_linkage t s hac htok hs .default p hp _ _ s hcall
  exact ⟨t, s, p, ht, hs, hp, hcall, hlinks.1 ⟨Samples.childGet, hselected, by decide⟩⟩

/-- planned super calls that select a private method, and an abstract one -/
theorem unlinkable_superCalls :
    (∃ t s p, Samples.privateAgain >>= (Samples.generatedSubclass · Samples.middleName) = .ok t ∧ t.pool.Acyclic ∧
      t.pool.TokensDistinct ∧ t.superClass? = some s ∧ make .default (.ofType t) = .ok p ∧
      p.superCall Samples.topGet .superType = .ok (.legal Samples.topGet s) ∧
      s.selected Samples.topGet.token = some Samples.middleGet ∧ Samples.middleGet.isPrivate = true) ∧
    (∃ t s p, Samples.abstractAgain >>= (Samples.generatedSubclass · Samples.middleName) = .ok t ∧ t.pool.Acyclic ∧
      t.pool.TokensDistinct ∧ t.superClass? = some s ∧ make .default (.ofType t) = .ok p ∧
      p.superCall Samples.topPutBridge .superType = .ok (.legal Samples.topPut s) ∧
      s.selected Samples.topPut.token = some Samples.middlePut ∧ Samples.middlePut.isAbstract = true) := by
  constructor
  · obtain ⟨t, s, p, ht, hac, htok, hs, hp, hcall, hselected⟩ := exists_legal_call
      (x := Samples.privateAgain >>= (Samples.generatedSubclass · Samples.middleName))
      (m := Samples.topGet) (r := Samples.topGet) (n := Samples.middleGet)
      (by decide +kernel)
    exact ⟨t, s, p, ht, hac, htok, hs, hp, hcall, hselected, by decide⟩
  · obtain ⟨t, s, p, ht, hac, htok, hs, hp, hcall, hselected⟩ := exists_legal_call
      (x := Samples.abstractAgain >>= (Samples.generatedSubclass · Samples.middleName))
      (m := Samples.topPutBridge) (r := Samples.topPut) (n := Samples.middlePut)
      (by decide +kernel)
    exact ⟨t, s, p, ht, hac, htok, hs, hp, hcall, hselected, by decide⟩

end Planner

end CallPlan
