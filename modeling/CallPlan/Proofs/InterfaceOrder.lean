/-
Which declaration of an interface method is inherited.

The walk through the interfaces is breadth first, so it meets the nearer ones first: what is met is no farther than
anything that has not been met (`near_of_polls`). The queue carries the invariant. Each entry stands at a distance,
and distances never fall along the queue, nor does the last exceed the first by more than one (`Levelled`).

Being met first is not being more specific. An interface that is named before one that extends it is met first, and
its method is inherited although the other one declares it again.

- `exists_reachable_iff`: a type inherits from the super type that is met first of all that hand a token down;
- `interface_method_first_met`: an interface that overrides what is inherited is met later, and is no nearer;
- `redeclared_default_inherited`: an acyclic hierarchy in which a default method is inherited, and offered as a
  default, although a more specific interface declares it abstract again.
-/
import CallPlan.Proofs.BridgeIndex
import CallPlan.Proofs.Inheritance
import CallPlan.Samples.Pools

namespace CallPlan

/-! ## Distances in the queue -/

/-- the distances never fall, and differ by one at most -/
def Levelled (queue : List (String × Nat)) : Prop := queue.Pairwise fun a b => a.2 ≤ b.2 ∧ b.2 ≤ a.2 + 1

/-- `b` is reached from the queue within that distance -/
def ReachedWithin (ds : List TypeDecl) (queue : List (String × Nat)) (n : Nat) (b : String) : Prop :=
  ∃ e ∈ queue, ∃ l, InterfaceRoute ds l e.1 b ∧ e.2 + l ≤ n

section Queue

variable {ds : List TypeDecl} {name b : String} {w n : Nat} {queue : List (String × Nat)} {d r s : TypeDecl}

/-- names at one distance -/
theorem levelled_map (names : List String) (w : Nat) : Levelled (names.map (·, w)) :=
  List.pairwise_map.2 (List.pairwise_of_forall_mem_list fun _ _ _ _ => ⟨Nat.le_refl w, Nat.le_succ w⟩)

/-- interfaces one farther than the head can be put at the end -/
theorem Levelled.extend (h : Levelled ((name, w) :: queue)) (names : List String) :
    Levelled (queue ++ names.map (·, w + 1)) := by
  obtain ⟨hhead, hrest⟩ := List.pairwise_cons.1 h
  refine List.pairwise_append.2 ⟨hrest, levelled_map names (w + 1), ?_⟩
  intro x hx y hy
  obtain ⟨c, -, rfl⟩ := List.mem_map.1 hy
  obtain ⟨hle, hstep⟩ := hhead x hx
  exact ⟨hstep, Nat.succ_le_succ hle⟩

theorem Levelled.head_le (h : Levelled ((name, w) :: queue)) {e : String × Nat} (he : e ∈ (name, w) :: queue) :
    w ≤ e.2 := by
  rcases List.mem_cons.1 he with rfl | he
  · exact Nat.le_refl _
  · exact ((List.pairwise_cons.1 h).1 e he).1

/-- an unknown name leads nowhere -/
theorem ReachedWithin.of_unknown (hnone : ds.find? (·.name == name) = none)
    (h : ReachedWithin ds ((name, w) :: queue) n b) : ReachedWithin ds queue n b := by
  obtain ⟨e, he, l, hroute, hle⟩ := h
  rcases List.mem_cons.1 he with rfl | he
  · obtain ⟨d, hd⟩ := hroute.source_declared
    exact absurd (hnone.symm.trans hd) (by simp)
  · exact ⟨e, he, l, hroute, hle⟩

/-- taking a name keeps every other distance -/
theorem ReachedWithin.take (hlev : Levelled ((name, w) :: queue)) (hd : ds.find? (·.name == name) = some d)
    (hb : b ≠ name) (h : ReachedWithin ds ((name, w) :: queue) n b) :
    ReachedWithin (without name ds) (queue ++ d.interfaces.map (·, w + 1)) n b := by
  obtain ⟨e, he, l, hroute, hle⟩ := h
  rcases hroute.cut hd with hstay | heq | ⟨c, hc, k, hk, hcut⟩
  · obtain ⟨x, hx⟩ := hstay.source_declared
    rcases List.mem_cons.1 he with rfl | he
    · exact absurd rfl (find?_of_without hx).2
    · exact ⟨e, List.mem_append_left _ he, l, hstay, hle⟩
  · exact absurd heq hb
  · have := hlev.head_le he
    exact ⟨(c, w + 1), List.mem_append_right _ (List.mem_map_of_mem hc), k, hcut, by simp only; omega⟩

/-- what is near after a name is taken was near before -/
theorem ReachedWithin.of_take (hd : ds.find? (·.name == name) = some d)
    (h : ReachedWithin (without name ds) (queue ++ d.interfaces.map (·, w + 1)) n b) :
    ReachedWithin ds ((name, w) :: queue) n b := by
  obtain ⟨e, he, l, hroute, hle⟩ := h
  rcases List.mem_append.1 he with he | he
  · exact ⟨e, List.mem_cons_of_mem _ he, l, hroute.of_without, hle⟩
  · obtain ⟨c, hc, rfl⟩ := List.mem_map.1 he
    exact ⟨(name, w), List.mem_cons_self, l + 1, ⟨d, hd, c, hc, hroute.of_without⟩, by simp only at hle ⊢; omega⟩

/-- **The walk meets what is nearer first**: where `s` is met and `r` has not been met, `s` is no farther than `r`. -/
theorem near_of_polls {before after : List TypeDecl} (hlev : Levelled queue)
    (hsplit : (interfacePolls ds (queue.map (·.1))).filterMap (·.2) = before ++ s :: after)
    (hr : ds.find? (·.name == r.name) = some r) (hunmet : r ∉ before) (h : ReachedWithin ds queue n r.name) :
    ReachedWithin ds queue n s.name := by
  generalize hnames : queue.map (·.1) = names at hsplit
  fun_induction interfacePolls ds names generalizing queue before with
  | case1 => exact absurd hsplit (by simp)
  | case2 ds name rest hnone ih =>
    obtain ⟨⟨name, w⟩, queue, rfl, rfl, hrest⟩ := List.map_eq_cons_iff.1 hnames
    obtain ⟨e, he, l, hroute, hle⟩ :=
      ih (List.pairwise_cons.1 hlev).2 hr hunmet (h.of_unknown hnone) hrest hsplit
    exact ⟨e, List.mem_cons_of_mem _ he, l, hroute, hle⟩
  | case3 ds name rest d hd ih =>
    obtain ⟨⟨name, w⟩, queue, rfl, rfl, rfl⟩ := List.map_eq_cons_iff.1 hnames
    cases before with
    | nil =>
      -- the head is met now, and no entry of the queue is nearer
      obtain ⟨rfl, -⟩ := List.cons.inj hsplit
      obtain ⟨e, he, l, -, hle⟩ := h
      have hname : d.name = name := by simpa using List.find?_some hd
      have := hlev.head_le he
      exact ⟨_, List.mem_cons_self, 0, ⟨hname.symm, d, hd⟩, by simp only; omega⟩
    | cons x before =>
      obtain ⟨rfl, hlater⟩ := List.cons.inj hsplit
      have hne : r.name ≠ name := by
        intro heq
        obtain rfl := Option.some.inj (hd.symm.trans (heq ▸ hr))
        exact hunmet List.mem_cons_self
      refine (ih (hlev.extend d.interfaces) ?_ (fun hmem => hunmet (List.mem_cons_of_mem _ hmem))
        (h.take hlev hd hne) ?_ hlater).of_take hd
      · rw [find?_without, if_neg hne, hr]
      · simp [Function.comp_def]

end Queue

namespace KnownType

variable {t : KnownType} {r s : TypeDecl} {m : Method} {token : MethodToken} {k : Nat}

/-! ## What is met first -/

/-- an interface that the type implements, that extends `s`, and that declares a method of this token for its
subtypes -/
structure Overrides (t : KnownType) (r s : TypeDecl) (token : MethodToken) : Prop where
  isInterface : r.isInterface = true
  known : t.pool.find? r.name = some r
  implemented : ∃ k, t.ImplementsIn k r.name
  other : r ≠ s
  extending : ∃ k, InterfaceRoute t.pool.decls (k + 1) r.name s.name
  declares : ∃ n ∈ r.declaredMethods, n.isConstructor = false ∧ n.isTypeInitializer = false ∧ n.isPrivate = false ∧
    n.isStatic = false ∧ n.token = token

theorem Overrides.handsDown (h : t.Overrides r s token) : ∃ n, t.HandsDown r n ∧ n.token = token := by
  obtain ⟨n, hmem, hconstructor, hinitializer, hprivate, hstatic, htoken⟩ := h.declares
  have hplace : n.isStatic = true → t.OnChain r := fun hs => absurd (hstatic.symm.trans hs) (by simp)
  exact ⟨n, ⟨hmem, hconstructor, hinitializer, hprivate, hplace⟩, htoken⟩

theorem Overrides.superType (h : t.Overrides r s token) : t.SuperType r := by
  obtain ⟨k, hk⟩ := h.implemented
  exact superType_of_implementsIn h.known hk

/-- an interface met before another one is at most as far away -/
theorem near_of_superInterfaces {before after : List TypeDecl} (hsplit : t.superInterfaces = before ++ s :: after)
    (hr : t.pool.find? r.name = some r) (hoff : ¬ t.OnChain r) (hunmet : r ∉ before) (h : t.ImplementsIn k r.name) :
    ∃ n ≤ k, t.ImplementsIn n s.name := by
  have hnames : (t.implementedNames.map (·, 0)).map (·.1) = t.implementedNames := by
    simp [Function.comp_def]
  have hreached : ReachedWithin t.offChain (t.implementedNames.map (·, 0)) k r.name := by
    obtain ⟨a, ha, l, hl, hroute⟩ := exists_route_offChain hr hoff h
    exact ⟨(a, 0), List.mem_map_of_mem ha, l, hroute, by simpa using hl⟩
  obtain ⟨e, he, l, hroute, hle⟩ := near_of_polls (levelled_map t.implementedNames 0)
    (by rw [hnames, ← superInterfaces_eq, hsplit]) (find?_offChain.2 ⟨hr, hoff⟩) hunmet hreached
  obtain ⟨a, ha, rfl⟩ := List.mem_map.1 he
  exact ⟨l, by simpa using hle, implementsIn_of_route ha hroute⟩

/-- the interfaces are met after the whole chain of super classes -/
theorem split_superInterfaces {before after : List TypeDecl} (hsplit : t.superTypes = before ++ s :: after)
    (hoff : ¬ t.OnChain s) : ∃ between, before = t.superClasses ++ between ∧
      t.superInterfaces = between ++ s :: after := by
  rcases List.append_eq_append_iff.1 hsplit with ⟨between, hbefore, hrest⟩ | ⟨between, hclasses, hrest⟩
  · exact ⟨between, hbefore, hrest⟩
  · cases between with
    | nil => exact ⟨[], by simpa using hclasses.symm, by simpa using hrest.symm⟩
    | cons x between =>
      obtain ⟨rfl, -⟩ := List.cons.inj hrest
      have hmem : s ∈ t.superClasses := hclasses ▸ List.mem_append_right _ List.mem_cons_self
      exact absurd (onChain_iff.2 (Or.inr hmem)) hoff

/-- **What is inherited is what is met first**, if the type does not declare it itself. -/
theorem exists_reachable_iff (hs : t.SuperType s) (hne : s.name ≠ t.name) :
    (∃ m ∈ t.reachableMethods, m.owner = s.name ∧ m.token = token) ↔
      token ∉ t.declaredMethods.map Method.token ∧ (∃ n, t.HandsDown s n ∧ n.token = token) ∧
        ∃ later, t.FirstMet s token later := by
  constructor
  · rintro ⟨m, hm, howner, rfl⟩
    rcases mem_reachableMethods.1 hm with hown | ⟨hhidden, hfind⟩
    · exact absurd (howner.symm.trans (mem_declaredMethods hown).1) hne
    · obtain ⟨d, later, hfirst, hhands⟩ := exists_firstMet hfind
      have hname : d.name = s.name := (mem_declaredMethods hhands.declared).1.symm.trans howner
      obtain rfl : d = s := Option.some.inj (hfirst.superType.1.1.symm.trans (hname ▸ hs.1))
      exact ⟨hhidden, ⟨m, hhands, rfl⟩, later, hfirst⟩
  · rintro ⟨hhidden, ⟨n, hn, rfl⟩, later, hfirst⟩
    obtain ⟨m, hdecl, hfind⟩ := hfirst.exists_find? hn
    have htoken : m.token = n.token := by simpa using List.find?_some hfind
    rw [← htoken] at hhidden hfind
    exact ⟨m, mem_reachableMethods.2 (Or.inr ⟨hhidden, hfind⟩), (mem_declaredMethods hdecl).1, htoken⟩

/-- **Whatever overrides it is met later**, and is at least as far away. -/
theorem FirstMet.overridden_later {later : List TypeDecl} (hfirst : t.FirstMet s token later)
    (hhidden : token ∉ t.declaredMethods.map Method.token) (hr : t.Overrides r s token) :
    r ∈ later ∧ (¬ t.OnChain s → ∀ k, t.ImplementsIn k r.name → ∃ n ≤ k, t.ImplementsIn n s.name) := by
  obtain ⟨before, hsplit, hbefore⟩ := hfirst
  obtain ⟨n, hn, htoken⟩ := hr.handsDown
  have hunmet : r ∉ before := fun hmem => hbefore r hmem n hn htoken
  have hother : r ≠ t.decl := by
    rintro rfl
    exact hhidden (List.mem_map.2 ⟨n, hn.declared, htoken⟩)
  have hname : r.name ≠ t.name := fun heq => hother (Option.some.inj (hr.known.symm.trans (heq ▸ t.known)))
  constructor
  · have hmem : r ∈ before ++ s :: later := hsplit ▸ mem_superTypes_iff.2 ⟨hr.superType, hname⟩
    exact (List.mem_cons.1 ((List.mem_append.1 hmem).resolve_left hunmet)).resolve_left hr.other
  · intro hoff k hk
    obtain ⟨between, rfl, hinterfaces⟩ := split_superInterfaces hsplit hoff
    have hroff : ¬ t.OnChain r := fun hon =>
      hunmet (List.mem_append_left _ ((onChain_iff.1 hon).resolve_left hother))
    exact near_of_superInterfaces hinterfaces hr.known hroff (fun h => hunmet (List.mem_append_right _ h)) hk

theorem superType_of_reachable (hm : m ∈ t.reachableMethods) : ∃ s, t.SuperType s ∧ m.owner = s.name := by
  rcases mem_reachableMethods.1 hm with hown | ⟨-, hfind⟩
  · exact ⟨t.decl, superType_iff.2 (Or.inl (onChain_self t)), (mem_declaredMethods hown).1⟩
  · obtain ⟨s, later, hfirst, hhands⟩ := exists_firstMet hfind
    exact ⟨s, hfirst.superType.1, (mem_declaredMethods hhands.declared).1⟩

/-- the defaults of an interface are what it reaches -/
theorem reachable_of_defaultMethods {i : KnownType} {ms : List Method} (h : t.defaultMethods.find? i = some ms) :
    ∃ j ∈ t.interfaces, j.name = i.name ∧ ms = j.reachableMethods.filter Method.isDefault := by
  obtain ⟨e, he, hkey, rfl⟩ := Table.mem_of_find?_ofList h
  obtain ⟨j, hj, rfl⟩ := List.mem_map.1 he
  exact ⟨j, hj, beq_iff_name_eq.1 hkey, rfl⟩

/-! ## Main results -/

/-- **An interface method is inherited if its interface is met first, breadth first.** An interface that extends it
and declares the method again is then met later, and is no nearer to the type. The default methods of an interface are
those that it reaches, so this holds of them too. -/
theorem interface_method_first_met (t : KnownType) :
    (∀ s token, t.SuperType s → s.name ≠ t.name →
      ((∃ m ∈ t.reachableMethods, m.owner = s.name ∧ m.token = token) ↔
        token ∉ t.declaredMethods.map Method.token ∧ (∃ n, t.HandsDown s n ∧ n.token = token) ∧
          ∃ later, t.FirstMet s token later)) ∧
    (∀ m ∈ t.reachableMethods, m.owner ≠ t.name → ∃ s later, t.pool.find? m.owner = some s ∧
      t.FirstMet s m.token later ∧ ∀ r, t.Overrides r s m.token →
        r ∈ later ∧ (¬ t.OnChain s → ∀ k, t.ImplementsIn k r.name → ∃ n ≤ k, t.ImplementsIn n s.name)) ∧
    (∀ i ms, t.defaultMethods.find? i = some ms →
      ∃ j ∈ t.interfaces, j.name = i.name ∧ ms = j.reachableMethods.filter Method.isDefault) := by
  refine ⟨fun _ _ => exists_reachable_iff, fun m hm hne => ?_, fun _ _ => reachable_of_defaultMethods⟩
  obtain ⟨s, hs, howner⟩ := superType_of_reachable hm
  obtain ⟨hhidden, -, later, hfirst⟩ := (exists_reachable_iff hs (howner ▸ hne)).1 ⟨m, hm, howner, rfl⟩
  exact ⟨s, later, howner ▸ hs.1, hfirst, fun r hr => hfirst.overridden_later hhidden hr⟩

/-! ## An override that is met too late -/

theorem solid_overrides_shape (hshape : t.pool.find? Samples.shapeName = some Samples.shapeDecl)
    (hsolid : t.pool.find? Samples.solidName = some Samples.solidDecl)
    (himplements : Samples.solidName ∈ t.decl.interfaces) :
    t.Overrides Samples.solidDecl Samples.shapeDecl Samples.shapeGet.token where
  isInterface := by decide
  known := hsolid
  implemented := ⟨0, t.decl, onChain_self t, Samples.solidName, himplements, rfl, Samples.solidDecl, hsolid⟩
  other := by decide
  extending :=
    ⟨0, Samples.solidDecl, hsolid, Samples.shapeName, List.mem_cons_self, rfl, Samples.shapeDecl, hshape⟩
  declares :=
    ⟨{ Samples.shapeGet with owner := Samples.solidName, flags := .publicBit ∪ .abstractBit }, by decide⟩

/-- whether the type of a pool with both interfaces implements the one that extends the other, and inherits the
default method of the other all the same -/
def inheritsShape (t : KnownType) : Bool :=
  t.pool.isOrderly && t.pool.find? Samples.shapeName == some Samples.shapeDecl &&
    t.pool.find? Samples.solidName == some Samples.solidDecl && t.decl.interfaces.contains Samples.solidName &&
    t.reachableMethods.contains Samples.shapeGet && t.name != Samples.shapeName

theorem inheritsShape_sound (h : t.inheritsShape = true) : t.pool.Acyclic ∧
    t.pool.find? Samples.shapeName = some Samples.shapeDecl ∧ Samples.shapeGet ∈ t.reachableMethods ∧
    Samples.shapeGet.owner ≠ t.name ∧ t.Overrides Samples.solidDecl Samples.shapeDecl Samples.shapeGet.token := by
  simp only [inheritsShape, Bool.and_eq_true, beq_iff_eq, bne_iff_ne, List.contains_iff_mem] at h
  obtain ⟨⟨⟨⟨⟨horderly, hshape⟩, hsolid⟩, himplements⟩, hmem⟩, hne⟩ := h
  exact ⟨(Pool.isOrderly_sound horderly).1, hshape, hmem, hne.symm, solid_overrides_shape hshape hsolid himplements⟩

/-- a class whose first interface has the method, and whose second extends the first and makes it abstract again -/
theorem box_method_first_met : ∃ t later, Samples.shapes >>= (·.type Samples.boxName) = .ok t ∧
    t.FirstMet Samples.shapeDecl Samples.shapeGet.token later ∧ Samples.solidDecl ∈ later ∧
    ∀ k, t.ImplementsIn k Samples.solidName → ∃ n ≤ k, t.ImplementsIn n Samples.shapeName := by
  obtain ⟨t, ht, htest⟩ := exists_ok_of_any (x := Samples.shapes >>= (·.type Samples.boxName))
    (f := fun t => t.inheritsShape && t.superClasses.all (·.name != Samples.shapeName)) (by decide +kernel)
  obtain ⟨hinherits, hclasses⟩ := Bool.and_eq_true_iff.1 htest
  obtain ⟨-, hshape, hmem, hne, hoverrides⟩ := inheritsShape_sound hinherits
  obtain ⟨-, hfirst, -⟩ := interface_method_first_met t
  obtain ⟨s, later, hs, hmet, hlater⟩ := hfirst Samples.shapeGet hmem hne
  obtain rfl : s = Samples.shapeDecl := Option.some.inj (hs.symm.trans hshape)
  obtain ⟨hsolid, hnear⟩ := hlater Samples.solidDecl hoverrides
  refine ⟨t, later, ht, hmet, hsolid, hnear fun hon => ?_⟩
  rcases onChain_iff.1 hon with heq | hclass
  · exact hne (congrArg TypeDecl.name heq)
  · simpa [Samples.shapeDecl, TypeDecl.ofInterface] using List.all_eq_true.1 hclasses _ hclass

/-- **A default method is inherited, and offered, although a more specific interface declares it abstract again**, in a
hierarchy without cycles: a class and an interface name the more general interface first. -/
theorem redeclared_default_inherited :
    (∃ t, Samples.shapes >>= (·.type Samples.boxName) = .ok t ∧ t.pool.Acyclic ∧
      Samples.shapeGet ∈ t.reachableMethods ∧ Samples.shapeGet.owner ≠ t.name ∧
      t.pool.find? Samples.shapeGet.owner = some Samples.shapeDecl ∧ Samples.shapeDecl.isInterface = true ∧
      t.Overrides Samples.solidDecl Samples.shapeDecl Samples.shapeGet.token) ∧
    (∃ t i ms, Samples.shapes >>= (·.type Samples.crateName) = .ok t ∧ i ∈ t.interfaces ∧
      t.defaultMethods.find? i = some ms ∧ Samples.shapeGet ∈ ms ∧
      i.Overrides Samples.solidDecl Samples.shapeDecl Samples.shapeGet.token) := by
  constructor
  · obtain ⟨t, ht, htest⟩ := exists_ok_of_any (x := Samples.shapes >>= (·.type Samples.boxName))
      (f := inheritsShape) (by decide +kernel)
    obtain ⟨hac, hshape, hmem, hne, hoverrides⟩ := inheritsShape_sound htest
    exact ⟨t, ht, hac, hmem, hne, hshape, by decide, hoverrides⟩
  · obtain ⟨t, ht, htest⟩ := exists_ok_of_any (x := Samples.shapes >>= (·.type Samples.crateName))
      (f := fun t => t.interfaces.any fun i => i.inheritsShape &&
        (t.defaultMethods.find? i).any (·.contains Samples.shapeGet)) (by decide +kernel)
    obtain ⟨i, hi, htest⟩ := List.any_eq_true.1 htest
    obtain ⟨hinherits, hoffered⟩ := Bool.and_eq_true_iff.1 htest
    obtain ⟨-, -, -, -, hoverrides⟩ := inheritsShape_sound hinherits
    obtain ⟨ms, hms, hmem⟩ := (Option.any_eq_true _ _).1 hoffered
    exact ⟨t, i, ms, ht, hi, hms, by simpa using hmem, hoverrides⟩

end KnownType

end CallPlan
