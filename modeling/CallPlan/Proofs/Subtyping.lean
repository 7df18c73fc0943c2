/-
Subtyping is reachability in the graph of parents.

The walk of `Pool.climb` keeps every name it still may schedule in `fresh`. It finds a goal iff the goal can be
reached from a pending name over parents that are all still fresh: expanding a name moves some fresh names to the
pending ones, and a path through them is cut at the last name moved (`Within.expand`). From a single starting name
every path can be cut at its last visit there, so the walk misses nothing, however cyclic the hierarchy is.

- `mem_climbFrom_iff`: the walk expands its goal iff the goal is reached over parents;
- `isSubtype_iff`: a subtype is below the root class or reaches its supertype;
- `isSubtype_trans` and `isSubtype_antisymm`: with a root class that has no parents subtyping is transitive, and
  in an acyclic hierarchy no two names are subtypes of each other.
-/
import CallPlan.KnownType
import Mathlib.Logic.Relation

namespace CallPlan.Pool

open Relation

variable {p : Pool}

/-! ## The graph of parents -/

/-- `sup` is the super class or an interface of `sub` -/
def Parent (p : Pool) (sub sup : String) : Prop := sup ∈ p.parentsOf sub

/-- no name is above itself -/
def Acyclic (p : Pool) : Prop := ∀ name, ¬ TransGen p.Parent name name

/-- the root class has no parents -/
def RootIsTop (p : Pool) : Prop := p.parentsOf PlatformName.object = []

theorem parent_iff {a b : String} : p.Parent a b ↔ ∃ d, p.find? a = some d ∧ b ∈ d.parents := by
  unfold Parent parentsOf
  cases h : p.find? a with
  | none => simp
  | some d => simp

theorem Parent.mem_parentNames {a b : String} (h : p.Parent a b) : b ∈ p.parentNames := by
  obtain ⟨d, hd, hb⟩ := parent_iff.1 h
  exact List.mem_eraseDups.2 (List.mem_flatMap.2 ⟨d, mem_of_find? hd, hb⟩)

theorem mem_met {name n : String} {fresh : List String} : n ∈ p.met name fresh ↔ n ∈ fresh ∧ p.Parent name n := by
  simp [met, Parent, List.mem_filter]

theorem mem_unmet {name n : String} {fresh : List String} :
    n ∈ p.unmet name fresh ↔ n ∈ fresh ∧ ¬ p.Parent name n := by
  simp [unmet, Parent, List.mem_filter]

/-! ## The walk finds what is reached -/

/-- a path over parents whose names, the first one apart, are all in `fresh` -/
def Within (p : Pool) (fresh : List String) : String → String → Prop :=
  ReflTransGen fun a b => p.Parent a b ∧ b ∈ fresh

/-- a path through fresh names stays fresh when `name` is expanded, or it can be started at a name that the expansion
schedules -/
theorem Within.expand {fresh : List String} {a goal : String} (h : p.Within fresh a goal) (name : String) :
    p.Within (p.unmet name fresh) a goal ∨ ∃ m ∈ p.met name fresh, p.Within (p.unmet name fresh) m goal := by
  induction h using ReflTransGen.head_induction_on with
  | refl => exact Or.inl .refl
  | @head a b hab _ ih =>
    obtain ⟨hpar, hb⟩ := hab
    rcases ih with hstay | hcut
    · by_cases hn : p.Parent name b
      · exact Or.inr ⟨b, mem_met.2 ⟨hb, hn⟩, hstay⟩
      · exact Or.inl (.head ⟨hpar, mem_unmet.2 ⟨hb, hn⟩⟩ hstay)
    · exact Or.inr hcut

/-- every path to the goal avoids its starting name from some point on -/
theorem Within.of_path {sub a goal : String} (h : ReflTransGen p.Parent a goal) :
    p.Within (p.parentNames.filter (· != sub)) a goal ∨ p.Within (p.parentNames.filter (· != sub)) sub goal := by
  induction h using ReflTransGen.head_induction_on with
  | refl => exact Or.inl .refl
  | @head a b hab _ ih =>
    rcases ih with hb | hsub
    · by_cases hbs : b = sub
      · exact Or.inr (hbs ▸ hb)
      · exact Or.inl (.head ⟨hab, List.mem_filter.2 ⟨hab.mem_parentNames, by simpa using hbs⟩⟩ hb)
    · exact Or.inr hsub

/-- what the walk expands is above a pending name -/
theorem path_of_mem_climb {goal x : String} {pending fresh : List String} (h : x ∈ p.climb goal pending fresh) :
    ∃ s ∈ pending, ReflTransGen p.Parent s x := by
  fun_induction climb p goal pending fresh with
  | case1 => simp at h
  | case2 _ rest =>
    obtain rfl := List.mem_singleton.1 h
    exact ⟨x, List.mem_cons_self, .refl⟩
  | case3 fresh next rest _ ih =>
    rcases List.mem_cons.1 h with rfl | h
    · exact ⟨x, List.mem_cons_self, .refl⟩
    · obtain ⟨s, hs, hpath⟩ := ih h
      rcases List.mem_append.1 hs with hs | hs
      · exact ⟨next, List.mem_cons_self, .head (mem_met.1 hs).2 hpath⟩
      · exact ⟨s, List.mem_cons_of_mem _ hs, hpath⟩

/-- a goal reached through fresh names is expanded -/
theorem mem_climb_of_within {goal s : String} {pending fresh : List String} (hs : s ∈ pending)
    (h : p.Within fresh s goal) : goal ∈ p.climb goal pending fresh := by
  fun_induction climb p goal pending fresh generalizing s with
  | case1 => simp at hs
  | case2 => exact List.mem_singleton.2 rfl
  | case3 fresh next rest hne ih =>
    refine List.mem_cons_of_mem _ ?_
    rcases h.expand next with hstay | ⟨m, hm, hcut⟩
    · rcases List.mem_cons.1 hs with rfl | hs
      · -- the path leaves the expanded name, so its first step is one of the names just scheduled
        rcases ReflTransGen.cases_head hstay with rfl | ⟨b, ⟨hpar, hb⟩, _⟩
        · exact absurd rfl hne
        · exact absurd hpar (mem_unmet.1 hb).2
      · exact ih (List.mem_append_right _ hs) hstay
    · exact ih (List.mem_append_left _ hm) hcut

/-- **The walk decides reachability**, in cyclic hierarchies too. -/
theorem mem_climbFrom_iff {sub sup : String} : sup ∈ p.climbFrom sub sup ↔ ReflTransGen p.Parent sub sup := by
  constructor
  · intro h
    obtain ⟨s, hs, hpath⟩ := path_of_mem_climb h
    exact List.mem_singleton.1 hs ▸ hpath
  · intro h
    exact mem_climb_of_within List.mem_cons_self ((Within.of_path h).elim id id)

/-- **Subtyping.** A name is a subtype of the root class and of every name that it reaches over parents. -/
theorem isSubtype_iff {sub sup : String} :
    p.isSubtype sub sup = true ↔ sup = PlatformName.object ∨ ReflTransGen p.Parent sub sup := by
  simp only [isSubtype, Bool.or_eq_true, beq_iff_eq, List.contains_eq_mem, decide_eq_true_eq, mem_climbFrom_iff]
  constructor
  · rintro ((rfl | hroot) | hpath)
    · exact Or.inr .refl
    · exact Or.inl hroot
    · exact Or.inr hpath
  · rintro (hroot | hpath)
    · exact Or.inl (Or.inr hroot)
    · exact Or.inr hpath

/-- pools in which every name has the same parents have the same subtypes -/
theorem isSubtype_congr {q : Pool} (h : ∀ n, p.parentsOf n = q.parentsOf n) (sub sup : String) :
    p.isSubtype sub sup = q.isSubtype sub sup := by
  have hpar : p.Parent = q.Parent := by
    funext a b
    simp only [Parent, h]
  rw [Bool.eq_iff_iff, isSubtype_iff, isSubtype_iff, hpar]

/-! ## Subtyping as an order -/

theorem isSubtype_refl (name : String) : p.isSubtype name name = true := isSubtype_iff.2 (Or.inr .refl)

/-- nothing but itself is above a name without parents -/
theorem eq_of_path_of_parentsOf_eq_nil {a b : String} (ha : p.parentsOf a = []) (h : ReflTransGen p.Parent a b) :
    b = a := by
  rcases ReflTransGen.cases_head h with heq | ⟨c, hc, _⟩
  · exact heq.symm
  · rw [Parent, ha] at hc
    exact absurd hc List.not_mem_nil

theorem RootIsTop.eq_of_path (h : p.RootIsTop) {b : String} (hb : ReflTransGen p.Parent PlatformName.object b) :
    b = PlatformName.object :=
  eq_of_path_of_parentsOf_eq_nil h hb

theorem isSubtype_trans (hroot : p.RootIsTop) {a b c : String} (hab : p.isSubtype a b = true)
    (hbc : p.isSubtype b c = true) : p.isSubtype a c = true := by
  rw [isSubtype_iff] at hab hbc ⊢
  rcases hbc with hc | hbc
  · exact Or.inl hc
  · rcases hab with rfl | hab
    · exact Or.inl (hroot.eq_of_path hbc)
    · exact Or.inr (hab.trans hbc)

/-- two names that reach each other are one, unless the hierarchy has a cycle -/
theorem Acyclic.eq_of_paths (h : p.Acyclic) {a b : String} (hab : ReflTransGen p.Parent a b)
    (hba : ReflTransGen p.Parent b a) : a = b := by
  rcases reflTransGen_iff_eq_or_transGen.1 hab with heq | hab
  · exact heq.symm
  · exact absurd (hab.trans_left hba) (h a)

theorem isSubtype_antisymm (hroot : p.RootIsTop) (hac : p.Acyclic) {a b : String} (hab : p.isSubtype a b = true)
    (hba : p.isSubtype b a = true) : a = b := by
  rw [isSubtype_iff] at hab hba
  rcases hab with rfl | hab
  · rcases hba with ha | hba
    · exact ha
    · exact hroot.eq_of_path hba
  · rcases hba with rfl | hba
    · exact (hroot.eq_of_path hab).symm
    · exact hac.eq_of_paths hab hba

/-- a hierarchy is acyclic when a rank grows strictly from every declared type to its parents -/
theorem Acyclic.of_rank (rank : String → Nat) (h : ∀ d ∈ p.decls, ∀ b ∈ d.parents, rank b < rank d.name) :
    p.Acyclic := by
  have hstep : ∀ a b, p.Parent a b → rank b < rank a := by
    intro a b hab
    obtain ⟨d, hd, hb⟩ := parent_iff.1 hab
    rw [← find?_name hd]
    exact h d (mem_of_find? hd) b hb
  intro name hcycle
  have hlt : ∀ b, TransGen p.Parent name b → rank b < rank name := by
    intro b hb
    induction hb with
    | single hb => exact hstep _ _ hb
    | tail _ hbc ih => exact Nat.lt_trans (hstep _ _ hbc) ih
  exact absurd (hlt name hcycle) (Nat.lt_irrefl _)

/-! ## A check for cycles -/

/-- how late a name is declared, counting from the bottom layer up; unknown names come before all others -/
def rank (p : Pool) (name : String) : Nat :=
  match p.layers.reverse.flatten.findIdx? (·.name == name) with
  | none => 0
  | some i => i + 1

/-- whether every type is declared after its super class and its interfaces -/
def parentsFirst (p : Pool) : Bool := p.decls.all fun d => d.parents.all fun b => p.rank b < p.rank d.name

theorem Acyclic.of_parentsFirst (h : p.parentsFirst = true) : p.Acyclic := by
  refine Acyclic.of_rank p.rank fun d hd b hb => ?_
  have hall := List.all_eq_true.1 h d hd
  exact of_decide_eq_true (List.all_eq_true.1 hall b hb)

end CallPlan.Pool
