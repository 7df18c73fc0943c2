/-
What a type inherits, and from where.

Both walks over super types only ever take declarations that the pool finds, each name at most once, so every
reachable method is declared by the type under its owner's name. `firstByToken` keeps the first method of each token:
starting with some tokens already seen is the same as dropping the methods of these tokens afterwards
(`firstByToken_eq_filter`), which is how declared methods hide inherited ones.

- `find?_owner_of_reachable`: a reachable method is a declared method of its owner;
- `reachableMethods_nodup`: a type without repeated tokens reaches no token twice;
- `superClasses_eq_cons`: in an acyclic hierarchy the super classes of a type are its super class and the super
  classes of that.
-/
import CallPlan.Proofs.Narrowing

namespace CallPlan

/-! ## The first method of each token -/

/-- the tokens that `seen` and `more` hold together hide what `more` hides after `seen` -/
theorem firstByToken_split {seen more all : List MethodToken} (h : ∀ t, t ∈ all ↔ t ∈ seen ∨ t ∈ more)
    (ms : List Method) : firstByToken all ms = (firstByToken seen ms).filter fun m => !more.contains m.token := by
  induction ms generalizing seen all with
  | nil => rfl
  | cons m ms ih =>
    by_cases hs : m.token ∈ seen
    · have ha : m.token ∈ all := (h _).2 (Or.inl hs)
      simp only [firstByToken, List.contains_eq_mem, hs, ha, decide_true, if_true]
      simpa using ih h
    · by_cases hm : m.token ∈ more
      · -- hidden on the left by `all`, kept and filtered on the right
        have ha : m.token ∈ all := (h _).2 (Or.inr hm)
        have hall : ∀ t, t ∈ all ↔ t ∈ m.token :: seen ∨ t ∈ more := by
          intro t
          rw [h t, List.mem_cons]
          constructor
          · rintro (ht | ht)
            · exact Or.inl (Or.inr ht)
            · exact Or.inr ht
          · rintro ((rfl | ht) | ht)
            · exact Or.inr hm
            · exact Or.inl ht
            · exact Or.inr ht
        simp only [firstByToken, List.contains_eq_mem, hs, ha, decide_true, decide_false, if_true, Bool.false_eq_true,
          if_false]
        rw [ih hall]
        simp [hm]
      · have ha : m.token ∉ all := fun ha => ((h _).1 ha).elim hs hm
        have hall : ∀ t, t ∈ m.token :: all ↔ t ∈ m.token :: seen ∨ t ∈ more := by
          intro t
          rw [List.mem_cons, List.mem_cons, h t, or_assoc]
        simp only [firstByToken, List.contains_eq_mem, hs, ha, decide_false, Bool.false_eq_true, if_false]
        rw [ih hall]
        simp [hm]

/-- tokens seen before are tokens filtered out after -/
theorem firstByToken_eq_filter (seen : List MethodToken) (ms : List Method) :
    firstByToken seen ms = (firstByToken [] ms).filter fun m => !seen.contains m.token :=
  firstByToken_split (by simp) ms

/-- what is kept is the first of its token -/
theorem mem_firstByToken {seen : List MethodToken} {ms : List Method} {m : Method} :
    m ∈ firstByToken seen ms ↔ m.token ∉ seen ∧ ms.find? (·.token == m.token) = some m := by
  induction ms generalizing seen with
  | nil => simp [firstByToken]
  | cons n ms ih =>
    by_cases hn : n.token = m.token
    · have hfind : (n :: ms).find? (·.token == m.token) = some n := by simp [hn]
      rw [hfind, Option.some.injEq]
      by_cases hs : n.token ∈ seen
      · simp [firstByToken, ← hn, hs, ih]
      · constructor
        · intro h
          simp only [firstByToken, List.contains_eq_mem, hs, decide_false, Bool.false_eq_true, if_false,
            List.mem_cons] at h
          rcases h with rfl | h
          · exact ⟨hs, rfl⟩
          · exact absurd (hn ▸ List.mem_cons_self) (ih.1 h).1
        · rintro ⟨-, rfl⟩
          simp [firstByToken, hs]
    · have hfind : (n :: ms).find? (·.token == m.token) = ms.find? (·.token == m.token) := by simp [hn]
      have hne : m ≠ n := fun h => hn (h ▸ rfl)
      rw [hfind]
      by_cases hs : n.token ∈ seen
      · simp [firstByToken, hs, ih]
      · simp [firstByToken, hs, ih, hne, Ne.symm hn]

theorem firstByToken_nodup (seen : List MethodToken) (ms : List Method) :
    ((firstByToken seen ms).map Method.token).Nodup := by
  induction ms generalizing seen with
  | nil => exact List.nodup_nil
  | cons m ms ih =>
    by_cases hs : m.token ∈ seen
    · simpa [firstByToken, hs] using ih seen
    · have hfresh : m.token ∉ (firstByToken (m.token :: seen) ms).map Method.token := by
        intro hmem
        obtain ⟨n, hn, hnm⟩ := List.mem_map.1 hmem
        exact (mem_firstByToken.1 hn).1 (hnm ▸ List.mem_cons_self)
      simpa [firstByToken, hs] using ⟨by simpa using hfresh, ih (m.token :: seen)⟩

theorem firstByToken_sublist (seen : List MethodToken) (ms : List Method) : (firstByToken seen ms).Sublist ms := by
  induction ms generalizing seen with
  | nil => exact .refl _
  | cons m ms ih =>
    unfold firstByToken
    split
    · exact (ih _).cons _
    · exact (ih _).cons_cons _

/-! ## Walks take what the pool finds -/

theorem find?_without {a b : String} {ds : List TypeDecl} :
    (without a ds).find? (·.name == b) = if b = a then none else ds.find? (·.name == b) := by
  unfold without
  rw [List.find?_filter]
  split
  · rename_i hba
    rw [List.find?_eq_none]
    rintro d - hd
    simp only [bne_iff_ne, ne_eq, decide_eq_true_eq, beq_iff_eq] at hd
    exact hd.1 (hd.2.trans hba)
  · rename_i hba
    congr 1
    funext d
    by_cases hd : d.name = b
    · simp [hd, hba]
    · simp [hd]

/-- what is found after a name is left out was found before, under another name -/
theorem find?_of_without {a b : String} {ds : List TypeDecl} {d : TypeDecl}
    (h : (without a ds).find? (·.name == b) = some d) : ds.find? (·.name == b) = some d ∧ b ≠ a := by
  rw [find?_without] at h
  split at h
  · exact absurd h (by simp)
  · rename_i hba
    exact ⟨h, hba⟩

theorem without_comm (a b : String) (ds : List TypeDecl) : without a (without b ds) = without b (without a ds) := by
  simp only [without, List.filter_filter, Bool.and_comm]

/-- a super class was untaken, and what is found under its name -/
theorem find?_of_mem_superChain {ds : List TypeDecl} {next : Option String} {d : TypeDecl}
    (h : d ∈ superChain ds next) : ds.find? (·.name == d.name) = some d := by
  fun_induction superChain ds next with
  | case1 => simp at h
  | case2 => simp at h
  | case3 ds name e he ih =>
    have hname : e.name = name := by simpa using List.find?_some he
    rcases List.mem_cons.1 h with rfl | h
    · rw [hname]; exact he
    · exact (find?_of_without (ih h)).1

/-- a polled declaration was untaken, and what is found under its name -/
theorem find?_of_mem_interfacePolls {ds : List TypeDecl} {queue : List String} {n : String} {d : TypeDecl}
    (h : (n, some d) ∈ interfacePolls ds queue) : ds.find? (·.name == d.name) = some d := by
  fun_induction interfacePolls ds queue with
  | case1 => simp at h
  | case2 ds name rest _ ih =>
    rcases List.mem_cons.1 h with heq | h
    · simp at heq
    · exact ih h
  | case3 ds name rest e he ih =>
    have hname : e.name = name := by simpa using List.find?_some he
    rcases List.mem_cons.1 h with heq | h
    · simp only [Prod.mk.injEq, Option.some.injEq] at heq
      obtain ⟨-, rfl⟩ := heq
      rw [hname]; exact he
    · exact (find?_of_without (ih h)).1

/-! ## The walks, step by step -/

section Steps

variable {ds : List TypeDecl} {name : String} {d : TypeDecl}

theorem superChain_none (ds : List TypeDecl) : superChain ds none = [] := by simp [superChain]

theorem superChain_of_unknown (h : ds.find? (·.name == name) = none) : superChain ds (some name) = [] := by
  rw [superChain]
  split
  · rfl
  · rename_i e he
    exact absurd (h.symm.trans he) (by simp)

theorem superChain_of_find? (h : ds.find? (·.name == name) = some d) :
    superChain ds (some name) = d :: superChain (without name ds) d.superName := by
  rw [superChain]
  split
  · rename_i he
    exact absurd (h.symm.trans he) (by simp)
  · rename_i e he
    obtain rfl : d = e := Option.some.inj (h.symm.trans he)
    rfl

theorem interfacePolls_nil (ds : List TypeDecl) : interfacePolls ds [] = [] := by simp [interfacePolls]

theorem interfacePolls_of_unknown (h : ds.find? (·.name == name) = none) (rest : List String) :
    interfacePolls ds (name :: rest) = (name, none) :: interfacePolls ds rest := by
  rw [interfacePolls]
  split
  · rfl
  · rename_i e he
    exact absurd (h.symm.trans he) (by simp)

theorem interfacePolls_of_find? (h : ds.find? (·.name == name) = some d) (rest : List String) :
    interfacePolls ds (name :: rest) = (name, some d) :: interfacePolls (without name ds) (rest ++ d.interfaces) := by
  rw [interfacePolls]
  split
  · rename_i he
    exact absurd (h.symm.trans he) (by simp)
  · rename_i e he
    obtain rfl : d = e := Option.some.inj (h.symm.trans he)
    rfl

end Steps

/-- leaving out a name that the walk up does not meet changes nothing -/
theorem superChain_without {ds : List TypeDecl} {next : Option String} {a : String}
    (h : ∀ d ∈ superChain ds next, d.name ≠ a) : superChain (without a ds) next = superChain ds next := by
  fun_induction superChain ds next with
  | case1 => exact superChain_none _
  | case2 ds name hnone =>
    have hwithout : (without a ds).find? (·.name == name) = none := by
      rw [find?_without, hnone, ite_self]
    exact superChain_of_unknown hwithout
  | case3 ds name d hd ih =>
    have hname : d.name = name := by simpa using List.find?_some hd
    have hna : name ≠ a := hname ▸ h d List.mem_cons_self
    have hwithout : (without a ds).find? (·.name == name) = some d := by
      rw [find?_without, if_neg hna, hd]
    rw [superChain_of_find? hwithout, without_comm, ih fun x hx => h x (List.mem_cons_of_mem _ hx)]

/-! ## Super types -/

theorem mem_declaredMethods {d : TypeDecl} {m : Method} (h : m ∈ d.declaredMethods) :
    m.owner = d.name ∧ m.ownerIsInterface = d.isInterface := by
  obtain ⟨_, _, rfl⟩ := List.mem_map.1 h
  exact ⟨rfl, rfl⟩

/-- the walk up stays above the name it starts at -/
theorem path_of_mem_superChain {p : Pool} {ds : List TypeDecl} {name : String} {d : TypeDecl}
    (hds : ∀ b e, ds.find? (·.name == b) = some e → p.find? b = some e) (h : d ∈ superChain ds (some name)) :
    Relation.ReflTransGen p.Parent name d.name := by
  generalize hnext : some name = next at h
  fun_induction superChain ds next generalizing name with
  | case1 => simp at h
  | case2 => simp at h
  | case3 ds n e he ih =>
    obtain rfl := Option.some.inj hnext
    have hname : e.name = name := by simpa using List.find?_some he
    rcases List.mem_cons.1 h with rfl | h
    · rw [hname]
    · cases hsup : e.superName with
      | none => rw [hsup] at h; simp [superChain] at h
      | some above =>
        have hstep : p.Parent name above :=
          Pool.parent_iff.2 ⟨e, hds name e he, by simp [TypeDecl.parents, hsup]⟩
        exact .head hstep (ih (fun b x hx => hds b x (find?_of_without hx).1) hsup.symm h)

namespace KnownType

variable {t s : KnownType}

theorem superClass?_eq_some (h : t.superClass? = some s) : t.decl.superName = some s.name ∧ s.pool = t.pool := by
  obtain ⟨name, hname, htype⟩ := Option.bind_eq_some_iff.1 h
  obtain ⟨hpool, hfind⟩ := Pool.type?_eq_some_iff.1 htype
  have hdecl : s.decl.name = name := Pool.find?_name hfind
  exact ⟨by rw [hname, ← hdecl]; rfl, hpool⟩

theorem parent_of_superClass? (h : t.superClass? = some s) : t.pool.Parent t.name s.name :=
  Pool.parent_iff.2 ⟨t.decl, t.known, by simp [TypeDecl.parents, (superClass?_eq_some h).1]⟩

theorem find?_of_mem_superClasses {d : TypeDecl} (h : d ∈ t.superClasses) :
    t.pool.find? d.name = some d ∧ d.name ≠ t.name :=
  find?_of_without (find?_of_mem_superChain h)

/-- what is left when declarations have been taken one after the other -/
theorem find?_foldl_without {taken ds : List TypeDecl} {b : String} :
    (taken.foldl (fun ds x => without x.name ds) ds).find? (·.name == b) =
      if b ∈ taken.map (·.name) then none else ds.find? (·.name == b) := by
  induction taken generalizing ds with
  | nil => simp
  | cons x taken ih =>
    rw [List.foldl_cons, ih, find?_without, List.map_cons]
    by_cases hx : b = x.name <;> by_cases hmem : b ∈ taken.map (·.name) <;> simp [hx, hmem]

theorem find?_of_mem_superInterfaces {d : TypeDecl} (h : d ∈ t.superInterfaces) :
    t.pool.find? d.name = some d ∧ d.name ≠ t.name := by
  obtain ⟨⟨n, polled⟩, hpoll, hd⟩ := List.mem_filterMap.1 h
  obtain rfl : polled = some d := hd
  have hleft := find?_of_mem_interfacePolls hpoll
  rw [find?_foldl_without] at hleft
  split at hleft
  · exact absurd hleft (by simp)
  · exact find?_of_without hleft

/-- the super classes of a subtype's super class are its own -/
theorem superClasses_eq_cons (hac : t.pool.Acyclic) (hs : t.superClass? = some s) :
    t.superClasses = s.decl :: s.superClasses := by
  obtain ⟨hname, hpool⟩ := superClass?_eq_some hs
  have hstep := parent_of_superClass? hs
  have hne : s.name ≠ t.name := fun h => hac t.name (.single (h ▸ hstep))
  have hfind : (without t.name t.pool.decls).find? (·.name == s.name) = some s.decl := by
    rw [find?_without, if_neg hne]
    exact hpool ▸ s.known
  have hunmet : ∀ d ∈ s.superClasses, d.name ≠ t.name := by
    intro d hd heq
    unfold superClasses at hd
    cases hsup : s.decl.superName with
    | none => rw [hsup] at hd; simp [superChain] at hd
    | some above =>
      rw [hsup] at hd
      have habove : t.pool.Parent s.name above :=
        Pool.parent_iff.2 ⟨s.decl, hpool ▸ s.known, by simp [TypeDecl.parents, hsup]⟩
      have hpath : Relation.ReflTransGen t.pool.Parent above d.name :=
        path_of_mem_superChain (fun b e he => (find?_of_without (hpool ▸ he)).1) hd
      exact hac t.name (.head hstep (.head' habove (heq ▸ hpath)))
  calc t.superClasses
      = superChain (without t.name t.pool.decls) (some s.name) := by rw [superClasses, hname]
    _ = s.decl :: superChain (without s.name (without t.name t.pool.decls)) s.decl.superName :=
        superChain_of_find? hfind
    _ = s.decl :: s.superClasses := by
        rw [without_comm, ← hpool]
        exact congrArg _ (superChain_without hunmet)

/-! ## Reachable methods -/

theorem mem_reachableMethods {m : Method} :
    m ∈ t.reachableMethods ↔ m ∈ t.declaredMethods ∨
      m.token ∉ t.declaredMethods.map Method.token ∧ t.inheritable.find? (·.token == m.token) = some m := by
  rw [reachableMethods, List.mem_append, mem_firstByToken]

/-- what a type inherits is declared by another type that the pool finds -/
theorem owner_of_inheritable {m : Method} (h : m ∈ t.inheritable) :
    ∃ d, t.pool.find? m.owner = some d ∧ m ∈ d.declaredMethods ∧ m.owner ≠ t.name ∧ m.isInheritable = true := by
  rw [inheritable, List.mem_append, List.mem_flatMap, List.mem_flatMap] at h
  rcases h with ⟨d, hd, hm⟩ | ⟨d, hd, hm⟩
  · obtain ⟨hm, hinh⟩ := List.mem_filter.1 hm
    obtain ⟨hfind, hne⟩ := find?_of_mem_superClasses hd
    rw [(mem_declaredMethods hm).1]
    exact ⟨d, hfind, hm, hne, hinh⟩
  · obtain ⟨hm, hinh⟩ := List.mem_filter.1 hm
    obtain ⟨hfind, hne⟩ := find?_of_mem_superInterfaces hd
    rw [(mem_declaredMethods hm).1]
    rw [Bool.and_eq_true] at hinh
    exact ⟨d, hfind, hm, hne, hinh.1⟩

/-- **A reachable method is a declared method of its owner.** -/
theorem find?_owner_of_reachable {m : Method} (h : m ∈ t.reachableMethods) :
    ∃ d, t.pool.find? m.owner = some d ∧ m ∈ d.declaredMethods := by
  rcases mem_reachableMethods.1 h with hown | ⟨-, hinh⟩
  · exact ⟨t.decl, by rw [(mem_declaredMethods hown).1]; exact t.known, hown⟩
  · obtain ⟨d, hfind, hmem, -, -⟩ := owner_of_inheritable (List.mem_of_find?_eq_some hinh)
    exact ⟨d, hfind, hmem⟩

/-- **A type without repeated tokens reaches no token twice.** -/
theorem reachableMethods_nodup (h : (t.declaredMethods.map Method.token).Nodup) :
    (t.reachableMethods.map Method.token).Nodup := by
  rw [reachableMethods, List.map_append, List.nodup_append]
  refine ⟨h, firstByToken_nodup _ _, ?_⟩
  intro a ha b hb hab
  obtain ⟨m, hm, rfl⟩ := List.mem_map.1 hb
  exact (mem_firstByToken.1 hm).1 (hab ▸ ha)

end KnownType

end CallPlan
