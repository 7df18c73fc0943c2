/-
Chains of bridges of every depth.

In a chain of depth `n` each level below the first overrides the getter of the level before with a narrower result, and
bridges the wider one to it. A name is a fixed text and a number, so no two types of a chain have one name, and the
pool takes them all. From the lowest level up, the bridge of each level has the token of the getter of the level
before, which it hides: what is reached is the getter of the lowest level and the bridges of all levels
(`reachableMethods_chainType`). The declaring level leaves each bridge one candidate, its own getter, whose token is
that of the bridge one level lower, and so resolution goes down level by level.

- `reachableMethods_chainType`: what the lowest level of a chain reaches;
- `deep_chain_resolves`: the path from the getter of any level, and what it resolves to, for every depth.
-/
import CallPlan.Proofs.Flattening
import CallPlan.Proofs.Names
import CallPlan.Proofs.Policies

namespace CallPlan

/-! ## Walks along numbered methods -/

namespace BridgeIndex

variable {index : BridgeIndex} {f : Nat → Method} {n k i : Nat}

theorem lookedUp_of_steps (h : ∀ j < n, next? index (f j) = some (f (j + 1))) (hi : k + i ≤ n) :
    lookedUp index (f k) i = some (f (k + i)) := by
  induction i with
  | zero => rfl
  | succ i ih =>
    rw [lookedUp_succ, ih (Nat.le_of_succ_le hi)]
    exact h (k + i) hi

theorem passed_of_steps (h : ∀ j < n, next? index (f j) = some (f (j + 1))) (hi : k + i ≤ n) :
    passed index (f k) i = (List.range' (k + 1) i).map f := by
  induction i generalizing k with
  | zero => rfl
  | succ i ih =>
    rw [passed, h k (by omega), List.range'_succ, List.map_cons, ← ih (by omega)]

/-- a walk over numbered methods ends at the first that leads no further -/
theorem endsAt_of_steps (h : ∀ j < n, next? index (f j) = some (f (j + 1))) (hlast : next? index (f n) = none)
    (hk : k ≤ n) : EndsAt index (f k) (n - k) (f n) := by
  have hreached := lookedUp_of_steps h (k := k) (i := n - k) (by omega)
  rw [Nat.add_sub_cancel' hk] at hreached
  exact ⟨hreached, hlast⟩

end BridgeIndex

namespace Samples

variable {n k i j : Nat} {d : TypeDecl}

/-! ## Names -/

/-- what tells the levels of a chain from their results, and both from the types of the platform -/
def kind (name : String) : List Char := name.toList.take 9

theorem kind_numbered {name : String} (h : 9 ≤ name.toList.length) (k : Nat) :
    kind (name ++ toString k) = kind name := by
  rw [kind, String.toList_append, List.take_append_of_le_length h, kind]

theorem kind_chainLevel (k : Nat) : kind (chainLevel k) = "fixture/L".toList := kind_numbered (by decide) k

theorem kind_chainResult (k : Nat) : kind (chainResult (k + 1)) = "fixture/R".toList :=
  kind_numbered (by decide) (k + 1)

theorem chainLevel_inj (h : chainLevel i = chainLevel j) : i = j := InternalName.numbered_inj h

theorem chainResult_inj (h : chainResult i = chainResult j) : i = j := by
  have hroot : ∀ k, chainResult 0 ≠ chainResult (k + 1) := fun k heq =>
    absurd ((congrArg kind heq).trans (kind_chainResult k)) (by decide)
  cases i with
  | zero =>
    cases j with
    | zero => rfl
    | succ j => exact absurd h (hroot j)
  | succ i =>
    cases j with
    | zero => exact absurd h.symm (hroot i)
    | succ j => exact InternalName.numbered_inj h

/-! ## The pool -/

/-- the result type that a level adds, below that of the level before -/
def resultDecl (k : Nat) : TypeDecl := .ofClass (chainResult (k + 1)) (chainResult k)

/-- the types of a chain, in the order they are declared -/
def chainDecls (n : Nat) : List TypeDecl := (List.range n).map resultDecl ++ (List.range (n + 1)).map chainLevelDecl

@[simp] theorem name_resultDecl (k : Nat) : (resultDecl k).name = chainResult (k + 1) := rfl

@[simp] theorem name_chainLevelDecl (k : Nat) : (chainLevelDecl k).name = chainLevel k := by cases k <;> rfl

theorem mem_chainDecls : d ∈ chainDecls n ↔ (∃ k < n, resultDecl k = d) ∨ ∃ k ≤ n, chainLevelDecl k = d := by
  simp only [chainDecls, List.mem_append, List.mem_map, List.mem_range, Nat.lt_succ_iff]

theorem nodup_chainDecls (n : Nat) : ((chainDecls n).map (·.name)).Nodup := by
  rw [chainDecls, List.map_append, List.map_map, List.map_map, List.nodup_append]
  refine ⟨List.nodup_range.map_on ?_, List.nodup_range.map_on ?_, ?_⟩
  · intro i _ j _ h
    exact Nat.succ.inj (chainResult_inj h)
  · intro i _ j _ h
    simp only [Function.comp_apply, name_chainLevelDecl] at h
    exact chainLevel_inj h
  · intro a ha b hb hab
    obtain ⟨i, -, rfl⟩ := List.mem_map.1 ha
    obtain ⟨j, -, rfl⟩ := List.mem_map.1 hb
    simp only [Function.comp_apply, name_resultDecl, name_chainLevelDecl] at hab
    exact absurd ((kind_chainResult i).symm.trans ((congrArg kind hab).trans (kind_chainLevel j))) (by decide)

theorem isValid_of_mem (h : d ∈ chainDecls n) : InternalName.isValid d.name = true := by
  rcases mem_chainDecls.1 h with ⟨k, -, rfl⟩ | ⟨k, -, rfl⟩
  · exact InternalName.isValid_numbered (by decide) (k + 1)
  · rw [name_chainLevelDecl]
    exact InternalName.isValid_numbered (by decide) k

/-- no type of a chain has the name of a platform type -/
theorem not_platform_of_mem (h : d ∈ chainDecls n) : d.name ∉ PlatformType.all.map (·.name) := by
  have hkind : kind d.name = "fixture/R".toList ∨ kind d.name = "fixture/L".toList := by
    rcases mem_chainDecls.1 h with ⟨k, -, rfl⟩ | ⟨k, -, rfl⟩
    · exact Or.inl (kind_chainResult k)
    · rw [name_chainLevelDecl]
      exact Or.inr (kind_chainLevel k)
  have hplatform : ∀ name ∈ PlatformType.all.map (·.name),
      kind name ≠ "fixture/R".toList ∧ kind name ≠ "fixture/L".toList := by decide
  intro hmem
  exact hkind.elim (hplatform _ hmem).1 (hplatform _ hmem).2

/-- the pool of a chain -/
def chainPool (n : Nat) : Pool := ⟨[PlatformType.all ++ chainDecls n]⟩

theorem chain_eq (n : Nat) : chain n = .ok (chainPool n) := by
  have hfresh : ∀ d ∈ chainDecls n, PoolBuilder.minimalPlatform.contains d.name = false := by
    intro d hd
    simpa [PoolBuilder.contains, PoolBuilder.minimalPlatform] using not_platform_of_mem hd
  show PoolBuilder.minimalPlatform.addAll (chainDecls n) >>= (fun b => .ok b.build) = .ok (chainPool n)
  rw [PoolBuilder.addAll_eq_ok (fun _ => isValid_of_mem) (nodup_chainDecls n) hfresh]
  rfl

theorem nodup_chainPool (n : Nat) : ((PlatformType.all ++ chainDecls n).map (·.name)).Nodup := by
  rw [List.map_append, List.nodup_append]
  refine ⟨PoolBuilder.sound_minimalPlatform.namesDistinct, nodup_chainDecls n, ?_⟩
  rintro a ha b hb rfl
  obtain ⟨d, hd, rfl⟩ := List.mem_map.1 hb
  exact not_platform_of_mem hd ha

theorem find?_chainPool {name : String} :
    (chainPool n).find? name = some d ↔ (d ∈ PlatformType.all ∨ d ∈ chainDecls n) ∧ d.name = name := by
  rw [Pool.find?, chainPool, PoolBuilder.decls_single, Pool.find?_eq_some_iff_of_nodup (nodup_chainPool n),
    List.mem_append]

theorem find?_chainLevel (h : k ≤ n) : (chainPool n).find? (chainLevel k) = some (chainLevelDecl k) :=
  find?_chainPool.2 ⟨Or.inr (mem_chainDecls.2 (Or.inr ⟨k, h, rfl⟩)), name_chainLevelDecl k⟩

theorem find?_chainResult (h : k < n) : (chainPool n).find? (chainResult (k + 1)) = some (resultDecl k) :=
  find?_chainPool.2 ⟨Or.inr (mem_chainDecls.2 (Or.inl ⟨k, h, rfl⟩)), rfl⟩

theorem find?_objectClass (n : Nat) : (chainPool n).find? PlatformName.object = some PlatformType.objectClass :=
  find?_chainPool.2 ⟨Or.inl List.mem_cons_self, rfl⟩

/-- the lowest level of a chain -/
def chainType (n : Nat) : KnownType :=
  ⟨chainPool n, chainLevelDecl n, by rw [name_chainLevelDecl]; exact find?_chainLevel (Nat.le_refl n)⟩

theorem type_chainPool (n : Nat) : (chainPool n).type (chainLevel n) = .ok (chainType n) :=
  Pool.type_eq_ok_iff.2 (Pool.type?_eq_some_iff.2 ⟨rfl, find?_chainLevel (Nat.le_refl n)⟩)

/-! ## Super classes -/

/-- the super classes of a level, nearest first -/
def levelsAbove : Nat → List TypeDecl
  | 0 => [PlatformType.objectClass]
  | k + 1 => chainLevelDecl k :: levelsAbove k

/-- among these declarations the levels before `k` and the root class are found -/
structure LevelsIn (ds : List TypeDecl) (k : Nat) : Prop where
  level : ∀ i < k, ds.find? (·.name == chainLevel i) = some (chainLevelDecl i)
  root : ds.find? (·.name == PlatformName.object) = some PlatformType.objectClass

theorem object_ne_chainLevel (k : Nat) : PlatformName.object ≠ chainLevel k := fun heq =>
  absurd ((congrArg kind heq).trans (kind_chainLevel k)) (by decide)

theorem levelsIn_chainPool (n : Nat) : LevelsIn (chainPool n).decls (n + 1) :=
  ⟨fun _ hi => find?_chainLevel (Nat.le_of_lt_succ hi), find?_objectClass n⟩

/-- taking a level leaves those before it -/
theorem LevelsIn.without {ds : List TypeDecl} (h : LevelsIn ds (k + 1)) : LevelsIn (without (chainLevel k) ds) k where
  level i hi := by
    rw [find?_without, if_neg fun heq => Nat.ne_of_lt hi (chainLevel_inj heq)]
    exact h.level i (Nat.lt_succ_of_lt hi)
  root := by rw [find?_without, if_neg (object_ne_chainLevel k), h.root]

theorem superChain_chainLevelDecl {ds : List TypeDecl} (h : LevelsIn ds k) :
    superChain ds (chainLevelDecl k).superName = levelsAbove k := by
  induction k generalizing ds with
  | zero =>
    show superChain ds (some PlatformName.object) = _
    rw [superChain_of_find? h.root]
    exact congrArg _ (superChain_none _)
  | succ k ih =>
    show superChain ds (some (chainLevel k)) = _
    rw [superChain_of_find? (h.level k (Nat.lt_succ_self k)), ih h.without, levelsAbove]

theorem superClasses_chainType (n : Nat) : (chainType n).superClasses = levelsAbove n := by
  have hname : (chainType n).name = chainLevel n := name_chainLevelDecl n
  rw [KnownType.superClasses, hname]
  exact superChain_chainLevelDecl (levelsIn_chainPool n).without

theorem interfaces_chainLevelDecl (k : Nat) : (chainLevelDecl k).interfaces = [] := by cases k <;> rfl

theorem interfaces_levelsAbove (k : Nat) : (levelsAbove k).flatMap (·.interfaces) = [] := by
  induction k with
  | zero => rfl
  | succ k ih => rw [levelsAbove, List.flatMap_cons, interfaces_chainLevelDecl, ih, List.nil_append]

theorem superInterfaces_chainType (n : Nat) : (chainType n).superInterfaces = [] := by
  have hdecl : (chainType n).decl.interfaces = [] := interfaces_chainLevelDecl n
  rw [KnownType.superInterfaces, KnownType.polls, superClasses_chainType, interfaces_levelsAbove, hdecl,
    List.append_nil, interfacePolls_nil, List.filterMap_nil]

/-! ## Methods -/

/-- the getter of a level, with its own result -/
def levelGet (k : Nat) : Method := getMethod (chainLevel k) (chainResult k) .publicBit

/-- the bridge of the level after, from the result of this level -/
def levelBridge (k : Nat) : Method := getMethod (chainLevel (k + 1)) (chainResult k) bridgeFlags

/-- the bridges of a level and of all levels before it, nearest first -/
def bridgesAbove : Nat → List Method
  | 0 => []
  | k + 1 => levelBridge k :: bridgesAbove k

/-- the methods of the root class that every type inherits -/
def rootMethods : List Method := PlatformType.objectClass.declaredMethods.filter Method.isInheritable

/-- what super classes have to inherit -/
def offered (ds : List TypeDecl) : List Method := ds.flatMap (·.declaredMethods.filter Method.isInheritable)

theorem token_levelBridge (k : Nat) : (levelBridge k).token = (levelGet k).token := rfl

theorem isBridge_levelGet (k : Nat) : (levelGet k).isBridge = false := by
  show AccessFlags.publicBit.has .bridgeBit = false
  decide

theorem isBridge_levelBridge (k : Nat) : (levelBridge k).isBridge = true := by
  show bridgeFlags.has .bridgeBit = true
  decide

theorem isInheritable_getMethod {flags : AccessFlags} (h : flags.has .privateBit = false) (owner typeName : String) :
    (getMethod owner typeName flags).isInheritable = true := by
  simp [Method.isInheritable, Method.isConstructor, Method.isTypeInitializer, Method.isPrivate, getMethod, h]

theorem token_levelGet_inj (h : (levelGet i).token = (levelGet j).token) : i = j := by
  simp only [levelGet, getMethod, getterOf, Method.token, Method.result, MethodToken.mk.injEq, ReturnType.value.injEq,
    FieldType.object.injEq] at h
  exact chainResult_inj h.2.1

theorem isInterface_chainLevelDecl (k : Nat) : (chainLevelDecl k).isInterface = false := by
  have hflags : (chainLevelDecl k).flags = .publicBit := by cases k <;> rfl
  rw [TypeDecl.isInterface, hflags]
  decide

theorem declaredMethods_zero : (chainLevelDecl 0).declaredMethods = [levelGet 0] := by
  rw [TypeDecl.declaredMethods, isInterface_chainLevelDecl]
  rfl

theorem declaredMethods_succ (k : Nat) :
    (chainLevelDecl (k + 1)).declaredMethods = [levelGet (k + 1), levelBridge k] := by
  rw [TypeDecl.declaredMethods, isInterface_chainLevelDecl]
  rfl

theorem declaredMethods_chainType (n : Nat) : (chainType n).declaredMethods = (chainLevelDecl n).declaredMethods := rfl

theorem offered_zero : offered (levelsAbove 1) = levelGet 0 :: rootMethods := by
  have hget : (levelGet 0).isInheritable = true := isInheritable_getMethod (by decide) _ _
  rw [offered, levelsAbove, List.flatMap_cons, declaredMethods_zero, List.filter_cons_of_pos hget]
  exact congrArg (levelGet 0 :: ·) (List.append_nil rootMethods)

theorem offered_succ (k : Nat) :
    offered (levelsAbove (k + 2)) = levelGet (k + 1) :: levelBridge k :: offered (levelsAbove (k + 1)) := by
  have hget : (levelGet (k + 1)).isInheritable = true := isInheritable_getMethod (by decide) _ _
  have hbridge : (levelBridge k).isInheritable = true := isInheritable_getMethod (by decide) _ _
  rw [offered, levelsAbove, List.flatMap_cons, declaredMethods_succ, List.filter_cons_of_pos hget,
    List.filter_cons_of_pos hbridge]
  rfl

theorem mem_bridgesAbove {b : Method} : b ∈ bridgesAbove k ↔ ∃ i < k, levelBridge i = b := by
  induction k with
  | zero => simp [bridgesAbove]
  | succ k ih =>
    rw [bridgesAbove, List.mem_cons, ih]
    constructor
    · rintro (rfl | ⟨i, hi, rfl⟩)
      · exact ⟨k, Nat.lt_succ_self k, rfl⟩
      · exact ⟨i, Nat.lt_succ_of_lt hi, rfl⟩
    · rintro ⟨i, hi, rfl⟩
      rcases Nat.lt_succ_iff_lt_or_eq.1 hi with hi | rfl
      · exact Or.inr ⟨i, hi, rfl⟩
      · exact Or.inl rfl

theorem length_bridgesAbove (k : Nat) : (bridgesAbove k).length = k := by
  induction k with
  | zero => rfl
  | succ k ih => rw [bridgesAbove, List.length_cons, ih]

/-- getters hide nothing of the root class -/
theorem firstByToken_rootMethods {seen : List MethodToken} (h : ∀ token ∈ seen, ∃ i, token = (levelGet i).token) :
    firstByToken seen rootMethods = rootMethods := by
  have hroot : firstByToken [] rootMethods = rootMethods ∧ ∀ m ∈ rootMethods, m.name ≠ "get" := by decide
  rw [firstByToken_eq_filter, hroot.1, List.filter_eq_self]
  intro m hm
  have hnew : m.token ∉ seen := by
    intro hmem
    obtain ⟨i, hi⟩ := h _ hmem
    exact hroot.2 m hm (congrArg MethodToken.name hi)
  simpa using hnew

/-- **What the levels before leave to inherit.** Below a level whose own token is seen, but none of the levels before,
each bridge is met before the getter that it hides. -/
theorem firstByToken_offered {seen : List MethodToken} (hown : (levelGet k).token ∈ seen)
    (hseen : ∀ token ∈ seen, ∃ i, k ≤ i ∧ token = (levelGet i).token) :
    firstByToken seen (offered (levelsAbove (k + 1))) = bridgesAbove k ++ rootMethods := by
  induction k generalizing seen with
  | zero =>
    have hroot := firstByToken_rootMethods fun token ht => (hseen token ht).imp fun _ h => h.2
    rw [offered_zero, firstByToken, if_pos (by simpa using hown), hroot]
    rfl
  | succ k ih =>
    -- the getter of level `k + 1` is hidden, the bridge behind it is new and hides the getter of level `k`
    have hnew : (levelGet k).token ∉ seen := by
      intro hmem
      obtain ⟨i, hi, heq⟩ := hseen _ hmem
      obtain rfl := token_levelGet_inj heq
      exact absurd hi (Nat.not_succ_le_self k)
    have hlater : ∀ token ∈ (levelGet k).token :: seen, ∃ i, k ≤ i ∧ token = (levelGet i).token := by
      intro token ht
      rcases List.mem_cons.1 ht with rfl | ht
      · exact ⟨k, Nat.le_refl k, rfl⟩
      · obtain ⟨i, hi, heq⟩ := hseen token ht
        exact ⟨i, Nat.le_of_succ_le hi, heq⟩
    rw [offered_succ, firstByToken, if_pos (by simpa using hown), firstByToken, token_levelBridge,
      if_neg (by simpa using hnew), ih List.mem_cons_self hlater]
    rfl

theorem inheritable_chainType (n : Nat) : (chainType n).inheritable = offered (levelsAbove n) := by
  rw [KnownType.inheritable, superClasses_chainType, superInterfaces_chainType, List.flatMap_nil, List.append_nil]
  rfl

/-- **What the lowest level of a chain reaches**: its getter, the bridges of all levels, and the root class. -/
theorem reachableMethods_chainType (n : Nat) :
    (chainType n).reachableMethods = levelGet n :: bridgesAbove n ++ rootMethods := by
  rw [KnownType.reachableMethods, inheritable_chainType, declaredMethods_chainType]
  cases n with
  | zero =>
    have hroot : firstByToken [(levelGet 0).token] rootMethods = rootMethods :=
      firstByToken_rootMethods fun token ht => ⟨0, List.mem_singleton.1 ht⟩
    rw [declaredMethods_zero]
    exact congrArg (levelGet 0 :: ·) hroot
  | succ n =>
    have hseen : ∀ token ∈ [(levelGet (n + 1)).token, (levelGet n).token],
        ∃ i, n ≤ i ∧ token = (levelGet i).token := by
      intro token ht
      rcases List.mem_pair.1 ht with rfl | rfl
      · exact ⟨n + 1, Nat.le_succ n, rfl⟩
      · exact ⟨n, Nat.le_refl n, rfl⟩
    have hrest := firstByToken_offered (by simp) hseen
    rw [declaredMethods_succ]
    exact congrArg ([levelGet (n + 1), levelBridge n] ++ ·) hrest

theorem reachableBridges_chainType (n : Nat) : (chainType n).reachableBridges = bridgesAbove n := by
  have hbridges : (bridgesAbove n).filter Method.isBridge = bridgesAbove n := by
    rw [List.filter_eq_self]
    intro b hb
    obtain ⟨i, -, rfl⟩ := mem_bridgesAbove.1 hb
    exact isBridge_levelBridge i
  have hroot : rootMethods.filter Method.isBridge = [] := by decide
  rw [KnownType.reachableBridges, reachableMethods_chainType, List.cons_append,
    List.filter_cons_of_neg (by simp [isBridge_levelGet]), List.filter_append, hbridges, hroot, List.append_nil]

theorem nodup_chainType (n : Nat) : ((chainType n).declaredMethods.map Method.token).Nodup := by
  rw [declaredMethods_chainType]
  cases n with
  | zero =>
    rw [declaredMethods_zero]
    exact List.nodup_singleton _
  | succ n =>
    have hne : (levelGet (n + 1)).token ≠ (levelGet n).token := fun heq => Nat.succ_ne_self n (token_levelGet_inj heq)
    rw [declaredMethods_succ]
    simpa [token_levelBridge] using hne

/-! ## Targets -/

/-- **Each bridge has one candidate**, the getter next to it. -/
theorem bridgeCandidates_levelBridge (h : k < n) :
    bridgeCandidates (chainPool n) (levelBridge k) = [levelGet (k + 1)] := by
  have hsub : (chainPool n).isSubtype (chainResult (k + 1)) (chainResult k) = true :=
    Pool.isSubtype_iff.2 (Or.inr (.single (Pool.parent_iff.2 ⟨_, find?_chainResult h, List.mem_cons_self⟩)))
  have hfits : (chainPool n).isBridgeCompatible (levelBridge k) (levelGet (k + 1)) = true :=
    Pool.isBridgeCompatible_iff.2 ⟨rfl, .nil, hsub⟩
  have hfind : (chainPool n).find? (levelBridge k).owner = some (chainLevelDecl (k + 1)) := find?_chainLevel h
  simp [bridgeCandidates, hfind, declaredMethods_succ, isBridge_levelGet, isBridge_levelBridge, hfits]

theorem bridgeTarget_levelBridge (h : k < n) (handler : ConflictHandler) :
    bridgeTarget (chainPool n) handler (levelBridge k) = .ok (.candidate (levelGet (k + 1))) := by
  rw [bridgeTarget, bridgeCandidates_levelBridge h]

variable {handler : ConflictHandler} {index : BridgeIndex}

/-- each getter but that of the lowest level leads on to the next -/
theorem next?_levelGet (h : (chainType n).bridgeIndex handler = .ok index) (hk : k < n) :
    index.next? (levelGet k) = some (levelGet (k + 1)) := by
  have hmem : levelBridge k ∈ (chainType n).reachableBridges := by
    rw [reachableBridges_chainType, mem_bridgesAbove]
    exact ⟨k, hk, rfl⟩
  obtain ⟨target, htarget, hfind⟩ := KnownType.find?_bridgeIndex_of_mem h (nodup_chainType n) hmem
  obtain rfl := Except.ok.inj ((bridgeTarget_levelBridge hk handler).symm.trans htarget)
  rw [token_levelBridge] at hfind
  exact BridgeIndex.next?_eq_some.2 hfind

theorem find?_levelGet (h : (chainType n).bridgeIndex handler = .ok index) : index.find? (levelGet n).token = none := by
  refine KnownType.find?_bridgeIndex_of_plain h (nodup_chainType n) ?_ (isBridge_levelGet n)
  rw [reachableMethods_chainType]
  exact List.mem_cons_self

end Samples

/-! ## Main result -/

namespace BridgeResolver

open Samples

/-- **Chains of every depth resolve to the narrowest override.** Whatever the conflict handler, the lowest level of a
chain of depth `n` has a resolver, with `n` entries. The path from the getter of level `k` takes the getters of all
levels below it, one by one, and ends with that of the lowest level, which is no bridge. -/
theorem deep_chain_resolves (n : Nat) (handler : ConflictHandler) : ∃ p t r,
    chain n = .ok p ∧ p.type (chainLevel n) = .ok t ∧ ofType t handler = .ok r ∧ r.size = n ∧
    (levelGet n).isBridge = false ∧
    ∀ k ≤ n, ∃ path, r.path (levelGet k) = .ok path ∧ path = (List.range' (k + 1) (n - k)).map levelGet ∧
      path.length = n - k ∧ r.resolve (levelGet k) = .ok (levelGet n) := by
  have htargets : ∀ b ∈ (chainType n).reachableBridges,
      ∃ target, bridgeTarget (chainPool n) handler b = .ok target := by
    intro b hb
    rw [reachableBridges_chainType] at hb
    obtain ⟨k, hk, rfl⟩ := mem_bridgesAbove.1 hb
    exact ⟨_, bridgeTarget_levelBridge hk handler⟩
  obtain ⟨r, hr⟩ := exists_ofType (chainType n) htargets
  obtain ⟨-, hindex⟩ := ofType_eq_ok hr
  have hsize : r.size = n := by
    rw [size, BridgeIndex.size_bridgeIndex hindex (nodup_chainType n), reachableBridges_chainType, length_bridgesAbove]
  refine ⟨_, _, r, chain_eq n, type_chainPool n, hr, hsize, isBridge_levelGet n, fun k hk => ?_⟩
  have hstep : ∀ j < n, r.index.next? (levelGet j) = some (levelGet (j + 1)) := fun j hj => next?_levelGet hindex hj
  have hlast : r.index.find? (levelGet n).token = none := find?_levelGet hindex
  have hend : r.index.EndsAt (levelGet k) (n - k) (levelGet n) :=
    BridgeIndex.endsAt_of_steps hstep (by simp [BridgeIndex.next?, hlast]) hk
  have hpassed : r.index.passed (levelGet k) (n - k) = (List.range' (k + 1) (n - k)).map levelGet :=
    BridgeIndex.passed_of_steps hstep (by omega)
  refine ⟨_, ?_, hpassed, BridgeIndex.length_passed hend.isSome, ?_⟩
  · rw [path_of_endsAt hend, BridgeIndex.outcome, hlast]
  · rw [resolve_of_endsAt hend, BridgeIndex.final, hlast]

/-- in a chain of two bridges the getter of the first level resolves to that of the last -/
theorem chain_of_two_resolves : ∃ p t r, chain 2 = .ok p ∧ p.type (chainLevel 2) = .ok t ∧
    ofType t ConflictPolicy.failFast.handler = .ok r ∧ r.size = 2 ∧
    r.path chainRootGet = .ok [levelGet 1, chainEndGet] ∧ r.resolve chainRootGet = .ok chainEndGet := by
  obtain ⟨p, t, r, hp, ht, hr, hsize, -, hlevel⟩ := deep_chain_resolves 2 ConflictPolicy.failFast.handler
  obtain ⟨path, hpath, hlevels, -, hresolve⟩ := hlevel 0 (by decide)
  have hgetters : path = [levelGet 1, chainEndGet] := hlevels
  exact ⟨p, t, r, hp, ht, hr, hsize, hgetters ▸ hpath, hresolve⟩

end BridgeResolver

end CallPlan
