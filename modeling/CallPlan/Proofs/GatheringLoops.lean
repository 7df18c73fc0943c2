/-
The reachable methods of a type as two loops that share a set of visited names.

The first loop goes up the super classes and is over at a name that has been visited; the second polls a queue of
interfaces and skips names that have been visited. Both take what they meet for the first time: its name is visited,
its methods are offered, and its interfaces are queued. The queue may grow with every poll. The walks over the untaken
declarations follow the loops iteration by iteration, since what is untaken is what the pool finds under a name that
has not been visited (`Untaken`); the queue holds the known types among the names of the walk.

- `Kept.methods_foldl_offer`: the methods that are kept are the first ones of their tokens;
- `Gathering.exists_loopEnds_climb`, `Gathering.exists_loopEnds_poll`: each loop ends, having taken what its walk takes;
- `graph_walks_linear`: what the walks over a pool cost.
-/
import CallPlan.Proofs.SearchLoop

namespace CallPlan

/-! ## The loops -/

/-- the methods kept so far, and the tokens seen -/
structure Kept where
  seen : List MethodToken
  methods : List Method

/-- keeps a method whose token has not been seen -/
def Kept.offer (k : Kept) (m : Method) : Kept :=
  if k.seen.contains m.token then k else ⟨m.token :: k.seen, k.methods ++ [m]⟩

theorem Kept.methods_foldl_offer (k : Kept) (ms : List Method) :
    (ms.foldl Kept.offer k).methods = k.methods ++ firstByToken k.seen ms := by
  induction ms generalizing k with
  | nil => exact (List.append_nil _).symm
  | cons m ms ih =>
    rw [List.foldl_cons, ih, firstByToken, Kept.offer]
    split
    · rfl
    · exact List.append_assoc ..

/-- the state that the two loops share -/
structure Gathering where
  kept : Kept
  visited : List String
  /-- the super class to go on with -/
  current : Option KnownType
  queue : List KnownType
  /-- the declarations taken so far, in order -/
  taken : List TypeDecl

namespace Gathering

/-- the declared methods are kept, and the type itself is visited -/
def start (t : KnownType) : Gathering where
  kept := ⟨t.declaredMethods.map Method.token, t.declaredMethods⟩
  visited := [t.name]
  current := t.superClass?
  queue := t.interfaces
  taken := []

/-- visits a type, offers the methods that it hands down, and queues its interfaces -/
def take (s : Gathering) (handsDown : Method → Bool) (c : KnownType) : Gathering :=
  { s with
    kept := (c.declaredMethods.filter handsDown).foldl Kept.offer s.kept
    visited := c.name :: s.visited
    queue := s.queue ++ c.interfaces
    taken := s.taken ++ [c.decl] }

/-- an iteration of the first loop, which breaks off at a class that has been visited -/
def climb? (s : Gathering) : Option Gathering :=
  match s.current with
  | none => none
  | some c =>
    if s.visited.contains c.name then some { s with current := none }
    else some { s.take Method.isInheritable c with current := c.superClass? }

/-- what interfaces hand down -/
def handedDownByInterface (m : Method) : Bool := m.isInheritable && !m.isStatic

/-- an iteration of the second loop, which skips an interface that has been visited -/
def poll? (s : Gathering) : Option Gathering :=
  match s.queue with
  | [] => none
  | i :: rest =>
    let polled := { s with queue := rest }
    if s.visited.contains i.name then some polled else some (polled.take handedDownByInterface i)

/-! ## Where the loops end -/

/-- the state once these declarations have been taken -/
def took (s : Gathering) (handsDown : Method → Bool) (ds : List TypeDecl) (queue : List KnownType) : Gathering where
  kept := (ds.flatMap (·.declaredMethods.filter handsDown)).foldl Kept.offer s.kept
  visited := (ds.map (·.name)).reverse ++ s.visited
  current := none
  queue := queue
  taken := s.taken ++ ds

theorem took_nil (s : Gathering) (handsDown : Method → Bool) (queue : List KnownType) :
    s.took handsDown [] queue = { s with current := none, queue := queue } := by
  simp [took]

theorem took_take (s : Gathering) (handsDown : Method → Bool) (c : KnownType) (ds : List TypeDecl)
    (queue : List KnownType) :
    (s.take handsDown c).took handsDown ds queue = s.took handsDown (c.decl :: ds) queue := by
  simp [took, take, KnownType.declaredMethods, KnownType.name]

variable {p : Pool} {s : Gathering} {ds : List TypeDecl} {visited : List String} {name : String} {d : TypeDecl}

/-- what is untaken is what the pool finds under a name that has not been visited -/
def Untaken (p : Pool) (visited : List String) (ds : List TypeDecl) : Prop :=
  ∀ name, ds.find? (·.name == name) = if name ∈ visited then none else p.find? name

theorem Untaken.without (h : Untaken p visited ds) (name : String) :
    Untaken p (name :: visited) (without name ds) := by
  intro n
  rw [find?_without, h n]
  by_cases hn : n = name <;> simp [hn]

/-- what the walk takes is a known type that has not been visited -/
theorem Untaken.exists_type? (h : Untaken p visited ds) (hd : ds.find? (·.name == name) = some d) :
    ∃ c, p.type? name = some c ∧ c.pool = p ∧ c.decl = d ∧ c.name = name ∧ ¬ visited.contains name = true := by
  rw [h name] at hd
  split at hd
  · exact absurd hd (by simp)
  · rename_i hnew
    exact ⟨⟨p, d, Pool.find?_self hd⟩, Pool.type?_eq_some_iff.2 ⟨rfl, hd⟩, rfl, rfl, Pool.find?_name hd,
      mt List.contains_iff_mem.1 hnew⟩

/-- a known type that the walk does not take has been visited -/
theorem Untaken.contains_name (h : Untaken p visited ds) (hnone : ds.find? (·.name == name) = none) {c : KnownType}
    (hc : p.type? name = some c) : visited.contains c.name = true := by
  obtain ⟨-, hfind⟩ := Pool.type?_eq_some_iff.1 hc
  have hname : c.name = name := Pool.find?_name hfind
  rw [h name] at hnone
  split at hnone
  · exact hname ▸ List.contains_iff_mem.2 ‹_›
  · exact absurd (hnone.symm.trans hfind) (by simp)

theorem loopEnds_climb_done (h : s.current = none) : LoopEnds climb? 0 s (s.took Method.isInheritable [] s.queue) := by
  have hsame : s.took Method.isInheritable [] s.queue = s := by rw [took_nil, ← h]
  rw [hsame]
  exact .done (by rw [climb?, h])

/-- **The loop up the super classes ends**, having taken the declarations of the walk up. -/
theorem exists_loopEnds_climb {next : Option String} (hds : Untaken p s.visited ds)
    (hcurrent : s.current = next.bind p.type?) :
    ∃ n ≤ (superChain ds next).length + 1, LoopEnds climb? n s (s.took Method.isInheritable (superChain ds next)
      (s.queue ++ ((superChain ds next).flatMap (·.interfaces)).filterMap p.type?)) := by
  fun_induction superChain ds next generalizing s with
  | case1 ds =>
    rw [List.flatMap_nil, List.filterMap_nil, List.append_nil]
    exact ⟨0, Nat.zero_le _, loopEnds_climb_done hcurrent⟩
  | case2 ds name hnone =>
    rw [List.flatMap_nil, List.filterMap_nil, List.append_nil]
    rw [Option.bind_some] at hcurrent
    cases hc : p.type? name with
    | none => exact ⟨0, Nat.zero_le _, loopEnds_climb_done (hcurrent.trans hc)⟩
    | some c =>
      -- only a name that comes again costs an iteration that takes nothing
      have hbreak : climb? s = some { s with current := none } := by
        rw [climb?, hcurrent, hc]
        exact if_pos (hds.contains_name hnone hc)
      exact ⟨1, Nat.le_refl 1, .again hbreak (loopEnds_climb_done rfl)⟩
  | case3 ds name d hd ih =>
    obtain ⟨c, hc, rfl, rfl, rfl, hnew⟩ := hds.exists_type? hd
    have htake : climb? s = some { s.take Method.isInheritable c with current := c.superClass? } := by
      rw [climb?, hcurrent, Option.bind_some, hc]
      exact if_neg hnew
    obtain ⟨n, hn, hends⟩ := ih (s := { s.take Method.isInheritable c with current := c.superClass? })
      (hds.without c.name) rfl
    refine ⟨n + 1, Nat.succ_le_succ hn, .again htake ?_⟩
    rw [← took_take, List.flatMap_cons, List.filterMap_append, ← List.append_assoc]
    exact hends

/-- **The loop over the interfaces ends**, having taken the declarations of the polls. -/
theorem exists_loopEnds_poll {names : List String} (hds : Untaken p s.visited ds)
    (hqueue : s.queue = names.filterMap p.type?) (hcurrent : s.current = none) :
    ∃ n ≤ (interfacePolls ds names).length, LoopEnds poll? n s
      (s.took handedDownByInterface ((interfacePolls ds names).filterMap (·.2)) []) := by
  fun_induction interfacePolls ds names generalizing s with
  | case1 ds =>
    rw [List.filterMap_nil] at hqueue
    have hsame : s.took handedDownByInterface [] [] = s := by rw [took_nil, ← hcurrent, ← hqueue]
    refine ⟨0, Nat.zero_le _, ?_⟩
    rw [List.filterMap_nil, hsame]
    exact .done (by rw [poll?, hqueue])
  | case2 ds name rest hnone ih =>
    -- an unknown name is not in the queue, a name that comes again is skipped
    cases hc : p.type? name with
    | none =>
      obtain ⟨n, hn, hends⟩ := ih hds (by rw [hqueue, List.filterMap_cons_none hc]) hcurrent
      exact ⟨n, Nat.le_succ_of_le hn, hends⟩
    | some c =>
      rw [List.filterMap_cons_some hc] at hqueue
      have hskip : poll? s = some { s with queue := rest.filterMap p.type? } := by
        rw [poll?, hqueue]
        exact if_pos (hds.contains_name hnone hc)
      obtain ⟨n, hn, hends⟩ := ih (s := { s with queue := rest.filterMap p.type? }) hds rfl hcurrent
      exact ⟨n + 1, Nat.succ_le_succ hn, .again hskip hends⟩
  | case3 ds name rest d hd ih =>
    obtain ⟨c, hc, rfl, rfl, rfl, hnew⟩ := hds.exists_type? hd
    rw [List.filterMap_cons_some hc] at hqueue
    have htake : poll? s =
        some (take { s with queue := rest.filterMap c.pool.type? } handedDownByInterface c) := by
      rw [poll?, hqueue]
      exact if_neg hnew
    obtain ⟨n, hn, hends⟩ :=
      ih (s := take { s with queue := rest.filterMap c.pool.type? } handedDownByInterface c)
        (hds.without c.name) List.filterMap_append.symm hcurrent
    rw [took_take] at hends
    exact ⟨n + 1, Nat.succ_le_succ hn, .again htake hends⟩

/-! ## What the loops cost -/

theorem untaken_start (t : KnownType) : Untaken t.pool (start t).visited (CallPlan.without t.name t.pool.decls) := by
  intro n
  rw [find?_without]
  by_cases hn : n = t.name <;> simp [start, Pool.find?, hn]

theorem Untaken.foldl_without (h : Untaken p visited ds) (taken : List TypeDecl) :
    Untaken p ((taken.map (·.name)).reverse ++ visited)
      (taken.foldl (fun ds d => CallPlan.without d.name ds) ds) := by
  intro n
  rw [KnownType.find?_foldl_without, h n]
  by_cases hn : n ∈ taken.map (·.name) <;> simp [hn]

/-- the state between the two loops -/
def climbed (t : KnownType) : Gathering :=
  (start t).took Method.isInheritable t.superClasses (t.implementedNames.filterMap t.pool.type?)

/-- the state at the end -/
def gathered (t : KnownType) : Gathering := (climbed t).took handedDownByInterface t.superInterfaces []

theorem exists_climbs (t : KnownType) :
    ∃ n ≤ t.superClasses.length + 1, LoopEnds climb? n (start t) (climbed t) := by
  have hcurrent : (start t).current = t.decl.superName.bind t.pool.type? := rfl
  obtain ⟨n, hn, hends⟩ := exists_loopEnds_climb (untaken_start t) hcurrent
  have hqueue : t.implementedNames.filterMap t.pool.type? =
      (start t).queue ++ (t.superClasses.flatMap (·.interfaces)).filterMap t.pool.type? := List.filterMap_append
  refine ⟨n, hn, ?_⟩
  rw [climbed, hqueue]
  exact hends

theorem exists_polls (t : KnownType) : ∃ n ≤ t.polls.length, LoopEnds poll? n (climbed t) (gathered t) :=
  exists_loopEnds_poll (s := climbed t) ((untaken_start t).foldl_without t.superClasses) rfl rfl

theorem methods_gathered (t : KnownType) : (gathered t).kept.methods = t.reachableMethods := by
  have hkept : (gathered t).kept = t.inheritable.foldl Kept.offer (start t).kept := (List.foldl_append ..).symm
  rw [hkept, Kept.methods_foldl_offer]
  rfl

/-- the two loops for a type end after so many iterations each, and gather its reachable methods -/
structure Cost (t : KnownType) (climbs polls : Nat) (mid e : Gathering) : Prop where
  climbing : LoopEnds climb? climbs (start t) mid
  polling : LoopEnds poll? polls mid e
  classes : mid.taken = t.superClasses
  superTypes : e.taken = t.superTypes
  /-- the loops share what they have visited, which the type itself is from the start -/
  once : (t.name :: e.taken.map (·.name)).Nodup
  climbs_le : climbs ≤ mid.taken.length + 1
  polls_le : polls ≤ interfaceMentions (t.decl :: e.taken)
  methods : e.kept.methods = t.reachableMethods

/-- **Both loops end**, having taken what the walks take, and gathered the reachable methods. -/
theorem exists_cost (t : KnownType) : ∃ climbs polls mid e, Cost t climbs polls mid e := by
  obtain ⟨climbs, hclimbs, hclimbing⟩ := exists_climbs t
  obtain ⟨polls, hpolls, hpolling⟩ := exists_polls t
  refine ⟨climbs, polls, _, _, hclimbing, hpolling, rfl, rfl, t.nodup_superTypes, hclimbs, ?_, methods_gathered t⟩
  exact t.length_polls ▸ hpolls

end Gathering

/-! ## Main result -/

/-- **The walks over a pool end within linear work**, in any hierarchy: cyclic, with unknown names, or with names that
are a super class here and an interface there. The search for a super type, as it is defined and as a loop, expands no
name twice, and at most one name more than are mentioned as parents. The loops for the reachable methods take no name
twice between them, nor that of the type itself; the first is over with what it takes or with one iteration more, and
the second polls at most as often as the types that are visited mention interfaces. So neither takes more than the pool
declares, nor polls more than the pool mentions. -/
theorem graph_walks_linear :
    (∀ (p : Pool) (sub goal : String), p.parentNames.Nodup ∧ (p.climbFrom sub goal).Nodup ∧
      (p.climbFrom sub goal).length ≤ 1 + p.parentNames.length ∧ ∃ n e, Search.Cost p sub goal n e) ∧
    ∀ t : KnownType, (∃ climbs polls mid e, Gathering.Cost t climbs polls mid e) ∧
      t.polls.length = interfaceMentions (t.decl :: t.superTypes) ∧
      t.superTypes.length < t.pool.decls.length ∧
      interfaceMentions (t.decl :: t.superTypes) ≤ interfaceMentions t.pool.decls := by
  refine ⟨fun p sub goal => ?_, fun t => ?_⟩
  · exact ⟨p.nodup_parentNames, p.climbFrom_nodup sub goal, p.length_climbFrom_le sub goal,
      Search.exists_cost p sub goal⟩
  · exact ⟨Gathering.exists_cost t, t.length_polls, t.length_superTypes_lt, t.interfaceMentions_superTypes_le⟩

/-- a class below a circle of two classes, one of which is an interface of itself, and below a circle of interfaces -/
def tangle : Pool := ⟨[[
  { TypeDecl.ofClass "tangle/Start" "tangle/Upper" with interfaces := ["tangle/Left"] },
  { TypeDecl.ofClass "tangle/Upper" "tangle/Lower" with interfaces := ["tangle/Upper"] },
  TypeDecl.ofClass "tangle/Lower" "tangle/Upper",
  { TypeDecl.ofInterface "tangle/Left" with interfaces := ["tangle/Right"] },
  { TypeDecl.ofInterface "tangle/Right" with interfaces := ["tangle/Left", "tangle/Upper"] }]]⟩

/-- the bound on the search is reached -/
example : (tangle.climbFrom "tangle/Start" "tangle/Nowhere").length = 1 + tangle.parentNames.length := by
  decide +kernel

end CallPlan
