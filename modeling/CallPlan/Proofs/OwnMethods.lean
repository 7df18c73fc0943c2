/-
Types that differ in the methods they declare themselves.

A draft grows method by method, and what it becomes in a layer above a pool has one name, one super class and one
list of interfaces however many methods were added. Two such types, one of which declares nothing, see the same
hierarchy and inherit the same methods (`Enriches`): super types are walked without the declaration of the type
itself, and its own methods only hide inherited ones.

- `TypeDraft.enriches_of_addMethods`: a run of additions leads from a bare type to one that enriches it;
- `Enriches.reachableMethods_eq`: the richer type reaches its own methods and those of the bare type with other tokens;
- `Enriches.bridgeTarget_eq`: bridges of other types have the same targets for both.
-/
import CallPlan.TypeDraft
import CallPlan.Proofs.BridgeIndex

namespace CallPlan

/-- `t` is the type `bare` with methods of its own -/
structure KnownType.Enriches (t bare : KnownType) : Prop where
  declaresNothing : bare.declaredMethods = []
  tokensDistinct : (t.declaredMethods.map Method.token).Nodup
  name : bare.name = t.name
  flags : bare.decl.flags = t.decl.flags
  superName : bare.decl.superName = t.decl.superName
  interfaces : bare.decl.interfaces = t.decl.interfaces
  others : without t.name bare.pool.decls = without t.name t.pool.decls

/-! ## Drafts -/

namespace TypeDraft

variable {d d' d'' : TypeDraft} {pool : Pool} {t t' : KnownType}

/-- `d'` is `d` but for its fields, its initializers and more methods, of which no two have one token -/
structure Extends (d' d : TypeDraft) : Prop where
  name : d'.name = d.name
  superName : d'.superName = d.superName
  interfaces : d'.interfaces = d.interfaces
  tokensDistinct : (d.methods.map Method.token).Nodup → (d'.methods.map Method.token).Nodup

theorem Extends.refl (d : TypeDraft) : d.Extends d := ⟨rfl, rfl, rfl, id⟩

theorem Extends.trans (h : d''.Extends d') (h' : d'.Extends d) : d''.Extends d :=
  ⟨h.name.trans h'.name, h.superName.trans h'.superName, h.interfaces.trans h'.interfaces,
    fun hd => h.tokensDistinct (h'.tokensDistinct hd)⟩

/-- one addition keeps the tokens distinct -/
theorem extends_of_addMethod {name : String} {descriptor : MethodDescriptor} {flags : AccessFlags}
    (h : d.addMethod name descriptor flags = .ok d') : d'.Extends d := by
  simp only [addMethod] at h
  split at h
  · exact absurd h (by simp)
  · rename_i hfresh
    obtain rfl := Except.ok.inj h
    refine ⟨rfl, rfl, rfl, fun hd => ?_⟩
    rw [List.map_append, List.nodup_append]
    refine ⟨hd, List.nodup_singleton _, ?_⟩
    intro a ha b hb hab
    obtain rfl := List.mem_singleton.1 hb
    obtain ⟨n, hn, rfl⟩ := List.mem_map.1 ha
    exact hfresh (List.any_eq_true.2 ⟨n, hn, by simpa using hab⟩)

/-- the draft with methods added one after the other, each given by name, descriptor and flags -/
def addMethods (d : TypeDraft) (ms : List (String × MethodDescriptor × AccessFlags)) : Except Error TypeDraft :=
  ms.foldlM (fun d (name, descriptor, flags) => d.addMethod name descriptor flags) d

/-- what holds of every step holds of a run -/
theorem extends_of_foldlM {β : Type} {f : TypeDraft → β → Except Error TypeDraft}
    (hstep : ∀ {d x d'}, f d x = .ok d' → d'.Extends d) {xs : List β} (h : xs.foldlM f d = .ok d') : d'.Extends d := by
  induction xs generalizing d with
  | nil =>
    obtain rfl : d = d' := Except.ok.inj h
    exact .refl d
  | cons x xs ih =>
    rw [List.foldlM_cons] at h
    obtain ⟨next, hnext, hrest⟩ := bind_eq_ok.1 h
    exact (ih hrest).trans (hstep hnext)

theorem extends_of_addMethods {ms : List (String × MethodDescriptor × AccessFlags)} (h : d.addMethods ms = .ok d') :
    d'.Extends d :=
  extends_of_foldlM extends_of_addMethod h

/-- what a draft becomes is found first, above everything else -/
theorem typeAbove_eq_ok (h : d.typeAbove pool = .ok t) : t.decl = d.toDecl ∧ t.pool.decls = d.toDecl :: pool.decls := by
  obtain ⟨builder, hadd, htype⟩ := bind_eq_ok.1 h
  obtain ⟨_, _, hadd⟩ := bind_eq_ok.1 hadd
  split at hadd
  · exact absurd hadd (by simp)
  · obtain rfl := Except.ok.inj hadd
    obtain ⟨hpool, hdecl⟩ := Pool.type?_eq_some_iff.1 (Pool.type_eq_ok_iff.1 htype)
    have hdecls : t.pool.decls = d.toDecl :: pool.decls := by
      rw [hpool]
      rfl
    refine ⟨?_, hdecls⟩
    rw [Pool.find?, ← hpool, hdecls, List.find?_cons_of_pos (by simp [toDecl])] at hdecl
    exact (Option.some.inj hdecl).symm

theorem tokens_toDecl (d : TypeDraft) : d.toDecl.declaredMethods.map Method.token = d.methods.map Method.token := by
  simp [toDecl, TypeDecl.declaredMethods, Method.token, Method.result, Method.parameters, Function.comp_def]

/-- **Methods added to a bare draft enrich its type.** -/
theorem enriches_of_addMethods {ms : List (String × MethodDescriptor × AccessFlags)} (hbare : d.methods = [])
    (hadd : d.addMethods ms = .ok d') (ht : d.typeAbove pool = .ok t) (ht' : d'.typeAbove pool = .ok t') :
    t'.Enriches t := by
  have hext := extends_of_addMethods hadd
  obtain ⟨hdecl, hdecls⟩ := typeAbove_eq_ok ht
  obtain ⟨hdecl', hdecls'⟩ := typeAbove_eq_ok ht'
  have hname : t'.name = d.name := by rw [KnownType.name, hdecl', toDecl, hext.name]
  refine ⟨?_, ?_, ?_, ?_, ?_, ?_, ?_⟩
  · rw [KnownType.declaredMethods, hdecl]
    simp [toDecl, hbare, TypeDecl.declaredMethods]
  · rw [KnownType.declaredMethods, hdecl', tokens_toDecl]
    exact hext.tokensDistinct (hbare ▸ List.nodup_nil)
  · rw [hname, KnownType.name, hdecl, toDecl]
  · rw [hdecl, hdecl', toDecl, toDecl]
  · rw [hdecl, hdecl', toDecl, toDecl, hext.superName]
  · rw [hdecl, hdecl', toDecl, toDecl, hext.interfaces]
  · rw [hdecls, hdecls', hname]
    simp [without, toDecl, hext.name]

end TypeDraft

/-! ## One hierarchy -/

namespace KnownType.Enriches

variable {t bare : KnownType} (h : t.Enriches bare)

include h

theorem tokensDistinct_bare : (bare.declaredMethods.map Method.token).Nodup := h.declaresNothing ▸ List.nodup_nil

theorem find?_eq {n : String} (hn : n ≠ t.name) : bare.pool.find? n = t.pool.find? n := by
  have hfind : ∀ p : Pool, p.find? n = (without t.name p.decls).find? (·.name == n) := by
    intro p
    rw [find?_without, if_neg hn]
    rfl
  rw [hfind, hfind, h.others]

theorem find?_own : bare.pool.find? t.name = some bare.decl := h.name ▸ bare.known

theorem parentsOf_eq (n : String) : bare.pool.parentsOf n = t.pool.parentsOf n := by
  by_cases hn : n = t.name
  · have hbare : bare.pool.find? n = some bare.decl := hn ▸ h.find?_own
    have ht : t.pool.find? n = some t.decl := hn ▸ t.known
    simp [Pool.parentsOf, hbare, ht, TypeDecl.parents, h.superName, h.interfaces]
  · rw [Pool.parentsOf, Pool.parentsOf, h.find?_eq hn]

theorem isSubtype_eq (a b : String) : bare.pool.isSubtype a b = t.pool.isSubtype a b :=
  Pool.isSubtype_congr h.parentsOf_eq a b

theorem isAssignable_eq (a b : FieldType) : bare.pool.isAssignable a b = t.pool.isAssignable a b :=
  Pool.isAssignable_congr h.parentsOf_eq a b

theorem isBridgeCompatible_eq (b c : Method) :
    bare.pool.isBridgeCompatible b c = t.pool.isBridgeCompatible b c := by
  simp only [Pool.isBridgeCompatible, h.isAssignable_eq]

/-- what a bridge of another type may forward to does not depend on the methods of this one -/
theorem bridgeCandidates_eq {b : Method} (hb : b.owner ≠ t.name) :
    bridgeCandidates bare.pool b = bridgeCandidates t.pool b := by
  simp only [bridgeCandidates, h.find?_eq hb, h.isBridgeCompatible_eq]

theorem bridgeTarget_eq {b : Method} (hb : b.owner ≠ t.name) (handler : ConflictHandler) :
    bridgeTarget bare.pool handler b = bridgeTarget t.pool handler b := by
  rw [bridgeTarget, bridgeTarget, h.bridgeCandidates_eq hb]

/-- the super class is the same declaration, or the type itself if it is its own -/
theorem superClass?_eq {s : KnownType} (hs : bare.superClass? = some s) :
    ∃ s', t.superClass? = some s' ∧ s'.name = s.name := by
  obtain ⟨hsuper, hpool⟩ := superClass?_eq_some hs
  have hfound : ∃ d, t.pool.find? s.name = some d := by
    by_cases hn : s.name = t.name
    · exact ⟨t.decl, hn ▸ t.known⟩
    · exact ⟨s.decl, by rw [← h.find?_eq hn, ← hpool]; exact s.known⟩
  obtain ⟨d, hd⟩ := hfound
  refine ⟨⟨t.pool, d, Pool.find?_self hd⟩, ?_, Pool.find?_name hd⟩
  rw [superClass?, ← h.superName, hsuper]
  exact Pool.type?_eq_some_iff.2 ⟨rfl, hd⟩

/-! ## What is inherited -/

theorem inheritable_eq : bare.inheritable = t.inheritable := by
  have hclasses : bare.superClasses = t.superClasses := by
    rw [superClasses, superClasses, h.superName, h.name, h.others]
  have hinterfaces : bare.superInterfaces = t.superInterfaces := by
    rw [superInterfaces, superInterfaces, polls, polls, hclasses, h.interfaces, h.name, h.others]
  rw [inheritable, inheritable, hclasses, hinterfaces]

/-- **The richer type reaches its own methods and what they do not hide.** -/
theorem reachableMethods_eq : t.reachableMethods = t.declaredMethods ++
    bare.reachableMethods.filter fun m => !(t.declaredMethods.map Method.token).contains m.token := by
  rw [reachableMethods, reachableMethods, h.declaresNothing, h.inheritable_eq, firstByToken_eq_filter]
  rfl

theorem mem_reachableMethods {m : Method} : m ∈ t.reachableMethods ↔ m ∈ t.declaredMethods ∨
    m ∈ bare.reachableMethods ∧ m.token ∉ t.declaredMethods.map Method.token := by
  rw [h.reachableMethods_eq, List.mem_append, List.mem_filter]
  simp

theorem owner_ne {m : Method} (hm : m ∈ bare.reachableMethods) : m.owner ≠ t.name := by
  rcases KnownType.mem_reachableMethods.1 hm with hown | ⟨-, hinh⟩
  · rw [h.declaresNothing] at hown
    exact absurd hown List.not_mem_nil
  · obtain ⟨-, -, -, hne, -⟩ := owner_of_inheritable (List.mem_of_find?_eq_some hinh)
    exact h.name ▸ hne

end KnownType.Enriches

end CallPlan
