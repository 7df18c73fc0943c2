/-
No walk takes a name twice, so its length is bounded by what the pool mentions.

The search for a super type moves names from the fresh ones to the pending ones (`expand_perm`), and from there to the
expanded ones; all of them are the start or mentioned in the pool. The walks over super types take declarations out of
the untaken ones, so what they take has distinct names. The interface walk polls the names it starts with, and one more
for each interface of what it takes (`length_interfacePolls`).

- `climbFrom_nodup`, `length_climbFrom_le`: the search expands each name at most once, and at most one name more than
  are mentioned as parents;
- `KnownType.nodup_superTypes`: no two types that are taken have one name, nor has one of them that of the type itself;
- `KnownType.length_polls`: the interface walk polls as often as the visited types mention interfaces;
- `KnownType.subperm_superTypes`: the visited types are different declarations of the pool.
-/
import CallPlan.Proofs.SuperTypes
import Mathlib.Data.List.Flatten
import Mathlib.Data.List.Induction
import Mathlib.Data.List.Nodup
import Mathlib.Data.List.Perm.Subperm

namespace CallPlan

theorem nodup_eraseDups {α : Type} [BEq α] [LawfulBEq α] (as : List α) : as.eraseDups.Nodup := by
  induction as using List.reverseRecOn with
  | nil => exact List.nodup_nil
  | append_singleton as a ih =>
    rw [List.eraseDups_append]
    by_cases ha : a ∈ as
    · simpa [List.removeAll, ha] using ih
    · have hnew : [a].removeAll as = [a] := by simp [List.removeAll, ha]
      rw [hnew, List.nodup_append]
      refine ⟨ih, List.nodup_singleton a, ?_⟩
      rintro b hb _ hlast rfl
      exact ha (List.mem_singleton.1 hlast ▸ List.mem_eraseDups.1 hb)

/-! ## The search for a super type -/

namespace Pool

variable {p : Pool} {goal : String} {pending fresh : List String}

theorem nodup_parentNames (p : Pool) : p.parentNames.Nodup := nodup_eraseDups _

/-- distinct names, all of them mentioned as parents but for one -/
theorem length_le_of_subset {names : List String} {sub : String} (h : names.Nodup)
    (hsub : names ⊆ sub :: p.parentNames) : names.length ≤ 1 + p.parentNames.length := by
  have hle := (h.subperm hsub).length_le
  rwa [List.length_cons, Nat.add_comm] at hle

/-- **Expanding a name only moves names** from the fresh to the pending ones. -/
theorem expand_perm (name : String) (rest fresh : List String) :
    (p.met name fresh ++ rest ++ p.unmet name fresh).Perm (rest ++ fresh) :=
  calc List.Perm (p.met name fresh ++ rest ++ p.unmet name fresh) (rest ++ p.met name fresh ++ p.unmet name fresh) :=
        List.perm_append_comm.append_right _
    List.Perm _ (rest ++ (p.met name fresh ++ p.unmet name fresh)) := .of_eq (List.append_assoc ..)
    List.Perm _ (rest ++ fresh) := (List.filter_append_perm _ fresh).append_left rest

theorem mem_of_mem_climb {x : String} (h : x ∈ p.climb goal pending fresh) : x ∈ pending ++ fresh := by
  fun_induction climb p goal pending fresh with
  | case1 => exact absurd h List.not_mem_nil
  | case2 =>
    obtain rfl := List.mem_singleton.1 h
    exact List.mem_cons_self
  | case3 fresh next rest _ ih =>
    rcases List.mem_cons.1 h with rfl | h
    · exact List.mem_cons_self
    · exact List.mem_cons_of_mem _ ((expand_perm next rest fresh).mem_iff.1 (ih h))

/-- **No name is expanded twice**, if the pending and the fresh names are distinct at the start. -/
theorem climb_nodup (h : (pending ++ fresh).Nodup) : (p.climb goal pending fresh).Nodup := by
  fun_induction climb p goal pending fresh with
  | case1 => exact List.nodup_nil
  | case2 => exact List.nodup_singleton _
  | case3 fresh next rest _ ih =>
    obtain ⟨hnext, hrest⟩ := List.nodup_cons.1 h
    have hmoved := expand_perm (p := p) next rest fresh
    refine List.nodup_cons.2 ⟨fun hagain => ?_, ih (hmoved.nodup_iff.2 hrest)⟩
    exact hnext (hmoved.mem_iff.1 (mem_of_mem_climb hagain))

theorem climbFrom_nodup (p : Pool) (sub goal : String) : (p.climbFrom sub goal).Nodup := by
  refine climb_nodup (List.nodup_cons.2 ⟨fun hmem => ?_, (nodup_parentNames p).filter _⟩)
  simpa using (List.mem_filter.1 hmem).2

theorem mem_of_mem_climbFrom {sub x : String} (h : x ∈ p.climbFrom sub goal) : x ∈ sub :: p.parentNames := by
  rcases List.mem_append.1 (mem_of_mem_climb h) with hsub | hfresh
  · exact List.mem_cons.2 (Or.inl (List.mem_singleton.1 hsub))
  · exact List.mem_cons_of_mem _ (List.mem_filter.1 hfresh).1

theorem length_climbFrom_le (p : Pool) (sub goal : String) :
    (p.climbFrom sub goal).length ≤ 1 + p.parentNames.length :=
  length_le_of_subset (climbFrom_nodup p sub goal) fun _ hx => mem_of_mem_climbFrom hx

end Pool

/-! ## The walks over super types -/

theorem superChain_nodup (ds : List TypeDecl) (next : Option String) :
    ((superChain ds next).map (·.name)).Nodup := by
  fun_induction superChain ds next with
  | case1 => exact List.nodup_nil
  | case2 => exact List.nodup_nil
  | case3 ds name d hd ih =>
    have hname : d.name = name := by simpa using List.find?_some hd
    refine List.nodup_cons.2 ⟨fun hagain => ?_, ih⟩
    obtain ⟨e, he, heq⟩ := List.mem_map.1 hagain
    exact (find?_of_without (find?_of_mem_superChain he)).2 (heq.trans hname)

theorem interfacePolls_nodup (ds : List TypeDecl) (queue : List String) :
    (((interfacePolls ds queue).filterMap (·.2)).map (·.name)).Nodup := by
  fun_induction interfacePolls ds queue with
  | case1 => exact List.nodup_nil
  | case2 ds name rest _ ih => exact ih
  | case3 ds name rest d hd ih =>
    have hname : d.name = name := by simpa using List.find?_some hd
    refine List.nodup_cons.2 ⟨fun hagain => ?_, ih⟩
    obtain ⟨e, he, heq⟩ := List.mem_map.1 hagain
    obtain ⟨⟨n, polled⟩, hpoll, he⟩ := List.mem_filterMap.1 he
    obtain rfl : polled = some e := he
    exact (find?_of_without (find?_of_mem_interfacePolls hpoll)).2 (heq.trans hname)

theorem interfaceMentions_cons (d : TypeDecl) (ds : List TypeDecl) :
    interfaceMentions (d :: ds) = d.interfaces.length + interfaceMentions ds := by
  simp [interfaceMentions]

theorem interfaceMentions_append (ds es : List TypeDecl) :
    interfaceMentions (ds ++ es) = interfaceMentions ds + interfaceMentions es := by
  simp [interfaceMentions]

/-- what is polled was queued at the start, or is an interface of what was taken -/
theorem length_interfacePolls (ds : List TypeDecl) (queue : List String) : (interfacePolls ds queue).length =
    queue.length + interfaceMentions ((interfacePolls ds queue).filterMap (·.2)) := by
  fun_induction interfacePolls ds queue with
  | case1 => rfl
  | case2 ds name rest _ ih =>
    rw [List.filterMap_cons_none rfl, List.length_cons, List.length_cons, ih]
    omega
  | case3 ds name rest d _ ih =>
    have htaken : ((name, some d) :: interfacePolls (without name ds) (rest ++ d.interfaces)).filterMap (·.2) =
        d :: (interfacePolls (without name ds) (rest ++ d.interfaces)).filterMap (·.2) := rfl
    rw [htaken, interfaceMentions_cons, List.length_cons, List.length_cons, ih, List.length_append]
    omega

namespace KnownType

/-- **No two of the types that are taken have one name**, and none has that of the type itself. -/
theorem nodup_superTypes (t : KnownType) : (t.name :: t.superTypes.map (·.name)).Nodup := by
  refine List.nodup_cons.2 ⟨fun hself => ?_, ?_⟩
  · obtain ⟨d, hd, hname⟩ := List.mem_map.1 hself
    exact (mem_superTypes_iff.1 hd).2 hname
  · rw [superTypes, List.map_append, List.nodup_append]
    refine ⟨superChain_nodup _ _, interfacePolls_nodup _ _, ?_⟩
    rintro _ hclass _ hinterface rfl
    obtain ⟨d, hd, hname⟩ := List.mem_map.1 hclass
    obtain ⟨e, he, heq⟩ := List.mem_map.1 hinterface
    obtain ⟨hfind, hoff, -⟩ := mem_superInterfaces_iff.1 he
    obtain rfl : d = e := Option.some.inj ((find?_of_mem_superClasses hd).1.symm.trans (by rw [hname, ← heq, hfind]))
    exact hoff (onChain_iff.2 (Or.inr hd))

theorem length_polls (t : KnownType) : t.polls.length = interfaceMentions (t.decl :: t.superTypes) := by
  have hclasses : (t.superClasses.flatMap (·.interfaces)).length = interfaceMentions t.superClasses := rfl
  rw [interfaceMentions_cons, superTypes, interfaceMentions_append, superInterfaces, polls, length_interfacePolls,
    List.length_append, hclasses, Nat.add_assoc]

/-- **Visiting is no more than going through the declarations of the pool.** -/
theorem subperm_superTypes (t : KnownType) : (t.decl :: t.superTypes).Subperm t.pool.decls := by
  have hnames : ((t.decl :: t.superTypes).map (·.name)).Nodup := t.nodup_superTypes
  refine (List.Nodup.of_map _ hnames).subperm ?_
  intro d hd
  rcases List.mem_cons.1 hd with rfl | hd
  · exact Pool.mem_of_find? t.known
  · exact Pool.mem_of_find? (mem_superTypes_iff.1 hd).1.1

theorem length_superTypes_lt (t : KnownType) : t.superTypes.length < t.pool.decls.length :=
  t.subperm_superTypes.length_le

theorem interfaceMentions_superTypes_le (t : KnownType) :
    interfaceMentions (t.decl :: t.superTypes) ≤ interfaceMentions t.pool.decls := by
  obtain ⟨visited, hperm, hsub⟩ := t.subperm_superTypes
  calc interfaceMentions (t.decl :: t.superTypes)
      = interfaceMentions visited := (hperm.flatMap_right _).length_eq.symm
    _ ≤ interfaceMentions t.pool.decls := (hsub.flatMap _).length_le

end KnownType

end CallPlan
