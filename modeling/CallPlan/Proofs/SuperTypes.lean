/-
Both walks over super types take exactly what they reach.

The walks work on the declarations that have not been taken yet, so a name met again is not there any more. A way
through the untaken declarations can be cut where it meets the name being taken: it avoids the name, ends there, or
goes on from what stands next to it (`superAt_without`, `InterfaceRoute.cut`). So nothing is lost when a name is
skipped, in cyclic hierarchies and in diamonds too.

- `getElem?_superClasses`, `exists_getElem?_superClasses`: the super classes are the ancestors of a type, each at its
  first place;
- `mem_superInterfaces_iff`: the super interfaces are the known types that the type or an ancestor implements, but for
  those on the chain of super classes;
- `mem_superTypes_iff`: together they are the super types other than the type itself.
-/
import CallPlan.Proofs.Reachable

namespace CallPlan

/-! ## Up the super classes -/

/-- the declaration `k` super classes above the one named `next` -/
def superAt (ds : List TypeDecl) : Nat → Option String → Option TypeDecl
  | 0, next => next.bind fun name => ds.find? (·.name == name)
  | k + 1, next => (next.bind fun name => ds.find? (·.name == name)).bind fun d => superAt ds k d.superName

section SuperAt

variable {ds : List TypeDecl} {next : Option String} {name : String} {k i : Nat} {d e : TypeDecl}

theorem superAt_some (name : String) (k : Nat) : superAt ds (k + 1) (some name) =
    (ds.find? (·.name == name)).bind fun d => superAt ds k d.superName := rfl

/-- what is above a name is declared under its own name -/
theorem find?_of_superAt (h : superAt ds k next = some e) : ds.find? (·.name == e.name) = some e := by
  induction k generalizing next with
  | zero =>
    obtain ⟨name, rfl, hfind⟩ := Option.bind_eq_some_iff.1 h
    have hname : e.name = name := by simpa using List.find?_some hfind
    rw [hname, hfind]
  | succ k ih =>
    obtain ⟨x, -, hrest⟩ := Option.bind_eq_some_iff.1 h
    exact ih hrest

theorem superAt_of_without (h : superAt (without name ds) k next = some e) : superAt ds k next = some e := by
  induction k generalizing next with
  | zero =>
    obtain ⟨n, rfl, hfind⟩ := Option.bind_eq_some_iff.1 h
    exact (find?_of_without hfind).1
  | succ k ih =>
    obtain ⟨x, hx, hrest⟩ := Option.bind_eq_some_iff.1 h
    obtain ⟨n, rfl, hfind⟩ := Option.bind_eq_some_iff.1 hx
    rw [superAt_some, (find?_of_without hfind).1]
    exact ih hrest

/-- **The cut.** What is above `next` is still above it without `name`, is declared as `name`, or is above its super
class, no farther up. -/
theorem superAt_without (hd : ds.find? (·.name == name) = some d) (h : superAt ds k next = some e) :
    superAt (without name ds) k next = some e ∨ e = d ∨ ∃ j < k, superAt (without name ds) j d.superName = some e := by
  induction k generalizing next with
  | zero =>
    obtain ⟨n, rfl, hfind⟩ := Option.bind_eq_some_iff.1 h
    by_cases hn : n = name
    · subst hn
      exact Or.inr (Or.inl (Option.some.inj (hfind.symm.trans hd)))
    · exact Or.inl (by simpa [superAt, find?_without, hn] using hfind)
  | succ k ih =>
    obtain ⟨x, hx, hrest⟩ := Option.bind_eq_some_iff.1 h
    obtain ⟨n, rfl, hfind⟩ := Option.bind_eq_some_iff.1 hx
    rcases ih hrest with hstay | heq | ⟨j, hj, hcut⟩
    · by_cases hn : n = name
      · subst hn
        obtain rfl := Option.some.inj (hfind.symm.trans hd)
        exact Or.inr (Or.inr ⟨k, Nat.lt_succ_self k, hstay⟩)
      · refine Or.inl ?_
        rw [superAt_some, find?_without, if_neg hn, hfind]
        exact hstay
    · exact Or.inr (Or.inl heq)
    · exact Or.inr (Or.inr ⟨j, Nat.lt_succ_of_lt hj, hcut⟩)

theorem superAt_of_getElem? (h : (superChain ds next)[i]? = some e) : superAt ds i next = some e := by
  fun_induction superChain ds next generalizing i with
  | case1 => exact absurd h (by simp)
  | case2 => exact absurd h (by simp)
  | case3 ds name d hd ih =>
    cases i with
    | zero =>
      obtain rfl : d = e := by simpa using h
      exact hd
    | succ i =>
      rw [superAt_some, hd]
      exact superAt_of_without (ih (by simpa using h))

theorem exists_getElem?_superChain (h : superAt ds k next = some e) :
    ∃ i ≤ k, (superChain ds next)[i]? = some e := by
  fun_induction superChain ds next generalizing k with
  | case1 => cases k <;> exact absurd h (by simp [superAt])
  | case2 ds name hnone => cases k <;> exact absurd h (by simp [superAt, hnone])
  | case3 ds name d hd ih =>
    cases k with
    | zero =>
      obtain rfl : d = e := Option.some.inj (hd.symm.trans h)
      exact ⟨0, Nat.le_refl 0, rfl⟩
    | succ k =>
      rw [superAt_some, hd] at h
      rcases superAt_without hd h with hstay | rfl | ⟨j, hj, hcut⟩
      · obtain ⟨i, hi, hget⟩ := ih hstay
        exact ⟨i + 1, Nat.succ_le_succ hi, by simpa using hget⟩
      · exact ⟨0, Nat.zero_le _, rfl⟩
      · obtain ⟨i, hi, hget⟩ := ih hcut
        exact ⟨i + 1, by omega, by simpa using hget⟩

end SuperAt

/-! ## Through the interfaces -/

/-- a way of `n` interface edges from `a` to `b`, over declared names only -/
def InterfaceRoute (ds : List TypeDecl) : Nat → String → String → Prop
  | 0, a, b => a = b ∧ ∃ d, ds.find? (·.name == a) = some d
  | n + 1, a, b => ∃ d, ds.find? (·.name == a) = some d ∧ ∃ c ∈ d.interfaces, InterfaceRoute ds n c b

section Route

variable {ds : List TypeDecl} {queue : List String} {name a b : String} {n : Nat} {d : TypeDecl}

theorem InterfaceRoute.source_declared (h : InterfaceRoute ds n a b) : ∃ d, ds.find? (·.name == a) = some d := by
  cases n with
  | zero => exact h.2
  | succ n =>
    obtain ⟨d, hd, -⟩ := h
    exact ⟨d, hd⟩

theorem InterfaceRoute.of_without (h : InterfaceRoute (without name ds) n a b) : InterfaceRoute ds n a b := by
  induction n generalizing a with
  | zero =>
    obtain ⟨rfl, d, hd⟩ := h
    exact ⟨rfl, d, (find?_of_without hd).1⟩
  | succ n ih =>
    obtain ⟨d, hd, c, hc, hrest⟩ := h
    exact ⟨d, (find?_of_without hd).1, c, hc, ih hrest⟩

/-- **The cut.** A route avoids `name`, ends there, or can be started at one of its interfaces, and gets shorter. -/
theorem InterfaceRoute.cut (hd : ds.find? (·.name == name) = some d) (h : InterfaceRoute ds n a b) :
    InterfaceRoute (without name ds) n a b ∨ b = name ∨
      ∃ c ∈ d.interfaces, ∃ k < n, InterfaceRoute (without name ds) k c b := by
  induction n generalizing a with
  | zero =>
    obtain ⟨rfl, e, he⟩ := h
    by_cases ha : a = name
    · exact Or.inr (Or.inl ha)
    · exact Or.inl ⟨rfl, e, by rw [find?_without, if_neg ha, he]⟩
  | succ n ih =>
    obtain ⟨e, he, c, hc, hrest⟩ := h
    rcases ih hrest with hstay | heq | ⟨c', hc', k, hk, hcut⟩
    · by_cases ha : a = name
      · subst ha
        obtain rfl := Option.some.inj (he.symm.trans hd)
        exact Or.inr (Or.inr ⟨c, hc, n, Nat.lt_succ_self n, hstay⟩)
      · exact Or.inl ⟨e, by rw [find?_without, if_neg ha, he], c, hc, hstay⟩
    · exact Or.inr (Or.inl heq)
    · exact Or.inr (Or.inr ⟨c', hc', k, Nat.lt_succ_of_lt hk, hcut⟩)

/-- what is taken is reached from the queue -/
theorem exists_route_of_mem_polls (h : d ∈ (interfacePolls ds queue).filterMap (·.2)) :
    ∃ a ∈ queue, ∃ n, InterfaceRoute ds n a d.name := by
  fun_induction interfacePolls ds queue with
  | case1 => exact absurd h (by simp)
  | case2 ds name rest _ ih =>
    obtain ⟨a, ha, hroute⟩ := ih (by simpa using h)
    exact ⟨a, List.mem_cons_of_mem _ ha, hroute⟩
  | case3 ds name rest e he ih =>
    have hname : e.name = name := by simpa using List.find?_some he
    rcases List.mem_cons.1 h with rfl | h
    · exact ⟨name, List.mem_cons_self, 0, hname.symm, d, he⟩
    · obtain ⟨a, ha, n, hroute⟩ := ih h
      rcases List.mem_append.1 ha with ha | ha
      · exact ⟨a, List.mem_cons_of_mem _ ha, n, hroute.of_without⟩
      · exact ⟨name, List.mem_cons_self, n + 1, e, he, a, ha, hroute.of_without⟩

/-- what is reached from the queue is taken -/
theorem mem_polls_of_route (hd : ds.find? (·.name == d.name) = some d) (ha : a ∈ queue)
    (h : InterfaceRoute ds n a d.name) : d ∈ (interfacePolls ds queue).filterMap (·.2) := by
  fun_induction interfacePolls ds queue generalizing a n with
  | case1 => exact absurd ha List.not_mem_nil
  | case2 ds name rest hnone ih =>
    rw [List.filterMap_cons_none rfl]
    rcases List.mem_cons.1 ha with rfl | ha
    · obtain ⟨e, he⟩ := h.source_declared
      exact absurd (hnone.symm.trans he) (by simp)
    · exact ih hd ha h
  | case3 ds name rest e he ih =>
    refine List.mem_cons.2 ?_
    by_cases hdn : d.name = name
    · rw [hdn] at hd
      exact Or.inl (Option.some.inj (hd.symm.trans he))
    · have hd' : (without name ds).find? (·.name == d.name) = some d := by rw [find?_without, if_neg hdn, hd]
      refine Or.inr ?_
      rcases h.cut he with hstay | heq | ⟨c, hc, k, -, hcut⟩
      · obtain ⟨x, hx⟩ := hstay.source_declared
        have han : a ≠ name := (find?_of_without hx).2
        exact ih hd' (List.mem_append_left _ ((List.mem_cons.1 ha).resolve_left han)) hstay
      · exact absurd heq hdn
      · exact ih hd' (List.mem_append_right _ hc) hcut

end Route

/-! ## Super types -/

namespace KnownType

variable {t : KnownType} {d : TypeDecl} {name : String} {k i n : Nat}

/-- the type that many super classes up, if the pool knows them all -/
def ancestor? (t : KnownType) (k : Nat) : Option TypeDecl := superAt t.pool.decls k (some t.name)

/-- the type itself, or a super class of it -/
def OnChain (t : KnownType) (d : TypeDecl) : Prop := ∃ k, t.ancestor? k = some d

/-- an interface of the type or of one of its super classes, or one `n` interface edges above such an interface -/
def ImplementsIn (t : KnownType) (n : Nat) (name : String) : Prop :=
  ∃ c, t.OnChain c ∧ ∃ a ∈ c.interfaces, InterfaceRoute t.pool.decls n a name

/-- a known type, reached over super classes and then over interfaces -/
def SuperType (t : KnownType) (d : TypeDecl) : Prop :=
  t.pool.find? d.name = some d ∧ ∃ c, t.OnChain c ∧ ∃ n, InterfaceRoute t.pool.decls n c.name d.name

/-- all super types but the type itself, in the order in which they are met -/
def superTypes (t : KnownType) : List TypeDecl := t.superClasses ++ t.superInterfaces

/-! ### The chain of super classes -/

theorem ancestor?_zero (t : KnownType) : t.ancestor? 0 = some t.decl := t.known

theorem ancestor?_succ (t : KnownType) (k : Nat) : t.ancestor? (k + 1) = superAt t.pool.decls k t.decl.superName := by
  rw [ancestor?, superAt_some]
  exact congrArg (fun o => o.bind fun d => superAt t.pool.decls k d.superName) t.known

theorem getElem?_superClasses (h : t.superClasses[i]? = some d) : t.ancestor? (i + 1) = some d := by
  rw [ancestor?_succ]
  exact superAt_of_without (superAt_of_getElem? h)

/-- **Every ancestor is among the super classes**, at its distance or nearer. -/
theorem exists_getElem?_superClasses (h : t.ancestor? k = some d) (hne : d ≠ t.decl) :
    ∃ i < k, t.superClasses[i]? = some d := by
  cases k with
  | zero => exact absurd (Option.some.inj ((ancestor?_zero t).symm.trans h)).symm hne
  | succ k =>
    rw [ancestor?_succ] at h
    rcases superAt_without t.known h with hstay | heq | ⟨j, hj, hcut⟩
    · obtain ⟨i, hi, hget⟩ := exists_getElem?_superChain hstay
      exact ⟨i, Nat.lt_succ_of_le hi, hget⟩
    · exact absurd heq hne
    · obtain ⟨i, hi, hget⟩ := exists_getElem?_superChain hcut
      exact ⟨i, by omega, hget⟩

theorem onChain_self (t : KnownType) : t.OnChain t.decl := ⟨0, ancestor?_zero t⟩

theorem OnChain.find?_eq (h : t.OnChain d) : t.pool.find? d.name = some d := by
  obtain ⟨k, hk⟩ := h
  exact find?_of_superAt hk

theorem onChain_iff : t.OnChain d ↔ d = t.decl ∨ d ∈ t.superClasses := by
  constructor
  · rintro ⟨k, hk⟩
    by_cases hd : d = t.decl
    · exact Or.inl hd
    · obtain ⟨i, -, hget⟩ := exists_getElem?_superClasses hk hd
      exact Or.inr (List.mem_of_getElem? hget)
  · rintro (rfl | hmem)
    · exact onChain_self t
    · obtain ⟨i, hget⟩ := List.getElem?_of_mem hmem
      exact ⟨i + 1, getElem?_superClasses hget⟩

/-! ### The interfaces above it -/

/-- the declarations that are left for the walk through the interfaces -/
def offChain (t : KnownType) : List TypeDecl :=
  t.superClasses.foldl (fun ds d => without d.name ds) (without t.name t.pool.decls)

/-- the names that this walk starts from -/
def implementedNames (t : KnownType) : List String := t.decl.interfaces ++ t.superClasses.flatMap (·.interfaces)

theorem superInterfaces_eq (t : KnownType) :
    t.superInterfaces = (interfacePolls t.offChain t.implementedNames).filterMap (·.2) := rfl

theorem mem_implementedNames : name ∈ t.implementedNames ↔ ∃ c, t.OnChain c ∧ name ∈ c.interfaces := by
  rw [implementedNames, List.mem_append, List.mem_flatMap]
  constructor
  · rintro (hown | ⟨c, hc, hmem⟩)
    · exact ⟨t.decl, onChain_self t, hown⟩
    · exact ⟨c, onChain_iff.2 (Or.inr hc), hmem⟩
  · rintro ⟨c, hc, hmem⟩
    rcases onChain_iff.1 hc with rfl | hc
    · exact Or.inl hmem
    · exact Or.inr ⟨c, hc, hmem⟩

theorem find?_offChain : t.offChain.find? (·.name == name) = some d ↔ t.pool.find? name = some d ∧ ¬ t.OnChain d := by
  rw [offChain, find?_foldl_without, find?_without, onChain_iff]
  constructor
  · intro h
    split at h
    · exact absurd h (by simp)
    · rename_i hclasses
      split at h
      · exact absurd h (by simp)
      · rename_i hself
        have hname : d.name = name := Pool.find?_name (p := t.pool) h
        refine ⟨h, ?_⟩
        rintro (rfl | hmem)
        · exact hself hname.symm
        · exact hclasses (hname ▸ List.mem_map_of_mem hmem)
  · rintro ⟨hfind, hoff⟩
    have hclasses : name ∉ t.superClasses.map (·.name) := by
      intro hmem
      obtain ⟨e, he, rfl⟩ := List.mem_map.1 hmem
      obtain rfl := Option.some.inj ((find?_of_mem_superClasses he).1.symm.trans hfind)
      exact hoff (Or.inr he)
    have hself : name ≠ t.name := by
      rintro rfl
      exact hoff (Or.inl (Option.some.inj (hfind.symm.trans t.known)))
    rw [if_neg hclasses, if_neg hself]
    exact hfind

theorem route_of_offChain {a b : String} (h : InterfaceRoute t.offChain n a b) :
    InterfaceRoute t.pool.decls n a b := by
  induction n generalizing a with
  | zero =>
    obtain ⟨rfl, d, hd⟩ := h
    exact ⟨rfl, d, (find?_offChain.1 hd).1⟩
  | succ n ih =>
    obtain ⟨d, hd, c, hc, hrest⟩ := h
    exact ⟨d, (find?_offChain.1 hd).1, c, hc, ih hrest⟩

/-- a route to a type off the chain leaves the chain for the last time at one of its implemented names -/
theorem route_offChain {a b : String} (hb : t.pool.find? b = some d) (hoff : ¬ t.OnChain d)
    (h : InterfaceRoute t.pool.decls n a b) : InterfaceRoute t.offChain n a b ∨
      ∃ a' ∈ t.implementedNames, ∃ k < n, InterfaceRoute t.offChain k a' b := by
  induction n generalizing a with
  | zero =>
    obtain ⟨rfl, -⟩ := h
    exact Or.inl ⟨rfl, d, find?_offChain.2 ⟨hb, hoff⟩⟩
  | succ n ih =>
    obtain ⟨e, he, c, hc, hrest⟩ := h
    rcases ih hrest with hstay | ⟨a', ha', k, hk, hcut⟩
    · by_cases hon : t.OnChain e
      · exact Or.inr ⟨c, mem_implementedNames.2 ⟨e, hon, hc⟩, n, Nat.lt_succ_self n, hstay⟩
      · exact Or.inl ⟨e, find?_offChain.2 ⟨he, hon⟩, c, hc, hstay⟩
    · exact Or.inr ⟨a', ha', k, Nat.lt_succ_of_lt hk, hcut⟩

/-- what is implemented off the chain is reached off the chain from an implemented name, no farther away -/
theorem exists_route_offChain (hd : t.pool.find? d.name = some d) (hoff : ¬ t.OnChain d)
    (h : t.ImplementsIn n d.name) : ∃ a ∈ t.implementedNames, ∃ k ≤ n, InterfaceRoute t.offChain k a d.name := by
  obtain ⟨c, hc, a, ha, hroute⟩ := h
  rcases route_offChain hd hoff hroute with hstay | ⟨a', ha', k, hk, hcut⟩
  · exact ⟨a, mem_implementedNames.2 ⟨c, hc, ha⟩, n, Nat.le_refl n, hstay⟩
  · exact ⟨a', ha', k, Nat.le_of_lt hk, hcut⟩

theorem implementsIn_of_route {a : String} (ha : a ∈ t.implementedNames) (h : InterfaceRoute t.offChain n a name) :
    t.ImplementsIn n name := by
  obtain ⟨c, hc, hmem⟩ := mem_implementedNames.1 ha
  exact ⟨c, hc, a, hmem, route_of_offChain h⟩

/-- **The super interfaces are what is implemented off the chain.** -/
theorem mem_superInterfaces_iff : d ∈ t.superInterfaces ↔
    t.pool.find? d.name = some d ∧ ¬ t.OnChain d ∧ ∃ n, t.ImplementsIn n d.name := by
  rw [superInterfaces_eq]
  constructor
  · intro h
    obtain ⟨a, ha, n, hroute⟩ := exists_route_of_mem_polls h
    obtain ⟨⟨_, polled⟩, hpoll, hd⟩ := List.mem_filterMap.1 h
    obtain rfl : polled = some d := hd
    obtain ⟨hfind, hoff⟩ := find?_offChain.1 (find?_of_mem_interfacePolls hpoll)
    exact ⟨hfind, hoff, n, implementsIn_of_route ha hroute⟩
  · rintro ⟨hfind, hoff, n, himp⟩
    obtain ⟨a, ha, k, -, hroute⟩ := exists_route_offChain hfind hoff himp
    exact mem_polls_of_route (find?_offChain.2 ⟨hfind, hoff⟩) ha hroute

/-! ### All super types -/

theorem superType_of_implementsIn (hd : t.pool.find? d.name = some d) (h : t.ImplementsIn n d.name) :
    t.SuperType d := by
  obtain ⟨c, hc, a, ha, hroute⟩ := h
  exact ⟨hd, c, hc, n + 1, c, hc.find?_eq, a, ha, hroute⟩

/-- **The super types** are the chain of super classes and the super interfaces. -/
theorem superType_iff : t.SuperType d ↔ t.OnChain d ∨ d ∈ t.superInterfaces := by
  constructor
  · rintro ⟨hfind, c, hc, n, hroute⟩
    by_cases hon : t.OnChain d
    · exact Or.inl hon
    · refine Or.inr (mem_superInterfaces_iff.2 ⟨hfind, hon, ?_⟩)
      cases n with
      | zero =>
        obtain ⟨hname, -⟩ := hroute
        obtain rfl := Option.some.inj (hc.find?_eq.symm.trans (hname ▸ hfind))
        exact absurd hc hon
      | succ n =>
        obtain ⟨e, he, a, ha, hrest⟩ := hroute
        obtain rfl := Option.some.inj (hc.find?_eq.symm.trans he)
        exact ⟨n, c, hc, a, ha, hrest⟩
  · rintro (hon | hmem)
    · exact ⟨hon.find?_eq, d, hon, 0, rfl, d, hon.find?_eq⟩
    · obtain ⟨hfind, -, n, himp⟩ := mem_superInterfaces_iff.1 hmem
      exact superType_of_implementsIn hfind himp

theorem mem_superTypes_iff : d ∈ t.superTypes ↔ t.SuperType d ∧ d.name ≠ t.name := by
  rw [superTypes, List.mem_append, superType_iff, onChain_iff]
  constructor
  · rintro (hmem | hmem)
    · exact ⟨Or.inl (Or.inr hmem), (find?_of_mem_superClasses hmem).2⟩
    · exact ⟨Or.inr hmem, (find?_of_mem_superInterfaces hmem).2⟩
  · rintro ⟨(rfl | hmem) | hmem, hne⟩
    · exact absurd rfl hne
    · exact Or.inl hmem
    · exact Or.inr hmem

end KnownType

end CallPlan
