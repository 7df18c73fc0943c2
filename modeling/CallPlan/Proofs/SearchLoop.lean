/-
The search for a super type as a loop over a stack of names.

The loop keeps the names that are pending, the latest first, and all names that it has seen. It pops a name, is over if
that is the goal, and else pushes each of its parents that has not been seen. Nothing in the loop counts down, and the
stack may grow. What bounds it is an invariant: the names seen are the expanded and the pending ones, each once
(`Tidy`), and every iteration expands one more of them, so it ends when the names that can be reached are used up. The
names come in another order than in `Pool.climb`, with the same answer.

- `exists_loopEnds`: a loop ends if each iteration adds to a bounded quantity;
- `Search.Sound`, `Sound.step`: the invariant, which one iteration keeps;
- `Search.exists_loopEnds`: from any name, to any goal, the loop ends after as many iterations as it expands names;
- `Search.Sound.found_iff`: it ends with the goal found iff the goal is above the start.
-/
import CallPlan.Proofs.WalkBounds

namespace CallPlan

open Relation

/-! ## Loops -/

section Loops

variable {σ : Type} {step : σ → Option σ}

/-- the loop that repeats `step` from the first state is over after exactly that many iterations, in the second state -/
inductive LoopEnds (step : σ → Option σ) : Nat → σ → σ → Prop
  | done {s : σ} (h : step s = none) : LoopEnds step 0 s s
  | again {n : Nat} {s next e : σ} (h : step s = some next) (rest : LoopEnds step n next e) : LoopEnds step (n + 1) s e

theorem LoopEnds.step_eq_none {n : Nat} {s e : σ} (h : LoopEnds step n s e) : step e = none := by
  induction h with
  | done h => exact h
  | again _ _ ih => exact ih

/-- **A loop whose iterations all add to a bounded quantity ends**, with its invariant, after as many iterations as it
has added. -/
theorem exists_loopEnds {inv : σ → Prop} {size : σ → Nat} {bound : Nat}
    (hstep : ∀ s next, inv s → step s = some next → inv next ∧ size next = size s + 1)
    (hbound : ∀ s, inv s → size s ≤ bound) {s : σ} (hs : inv s) :
    ∃ n e, LoopEnds step n s e ∧ inv e ∧ size e = size s + n := by
  cases hnext : step s with
  | none => exact ⟨0, s, .done hnext, hs, rfl⟩
  | some next =>
    obtain ⟨hinv, hsize⟩ := hstep s next hs hnext
    have hle := hbound next hinv
    obtain ⟨n, e, hends, he, hadded⟩ := exists_loopEnds hstep hbound hinv
    exact ⟨n + 1, e, .again hnext hends, he, by omega⟩
termination_by bound - size s
decreasing_by omega

end Loops

/-! ## The loop -/

/-- the state of the search -/
structure Search where
  /-- a stack, the latest name first -/
  pending : List String
  seen : List String
  /-- the names popped so far, in order -/
  expanded : List String
  found : Bool

namespace Search

def start (sub : String) : Search := ⟨[sub], [sub], [], false⟩

/-- pushes a name that has not been seen -/
def meet (s : Search) (name : String) : Search :=
  if s.seen.contains name then s else { s with pending := name :: s.pending, seen := name :: s.seen }

/-- one iteration, as long as the goal is not found and a name is pending -/
def step? (p : Pool) (goal : String) (s : Search) : Option Search :=
  if s.found then none
  else match s.pending with
    | [] => none
    | next :: rest =>
      let popped := { s with pending := rest, expanded := s.expanded ++ [next] }
      if next = goal then some { popped with found := true }
      else some ((p.parentsOf next).foldl meet popped)

variable {p : Pool} {sub goal : String} {s t : Search} {names : List String}

/-- when there is no further iteration -/
theorem step?_eq_none (h : step? p goal s = none) : s.found = true ∨ s.pending = [] := by
  unfold step? at h
  split at h
  · exact Or.inl ‹_›
  · split at h
    · exact Or.inr ‹_›
    · split at h <;> exact absurd h (by simp)

/-- what an iteration does -/
theorem step?_cases (h : step? p goal s = some t) : s.found = false ∧ ∃ next rest, s.pending = next :: rest ∧
    ((next = goal ∧ t = { s with pending := rest, expanded := s.expanded ++ [next], found := true }) ∨
      (next ≠ goal ∧
        t = (p.parentsOf next).foldl meet { s with pending := rest, expanded := s.expanded ++ [next] })) := by
  unfold step? at h
  split at h
  · exact absurd h (by simp)
  · rename_i hfound
    refine ⟨Bool.eq_false_iff.2 hfound, ?_⟩
    split at h
    · exact absurd h (by simp)
    · rename_i next rest hpending
      refine ⟨next, rest, hpending, ?_⟩
      split at h
      · exact Or.inl ⟨‹_›, (Option.some.inj h).symm⟩
      · exact Or.inr ⟨‹_›, (Option.some.inj h).symm⟩

/-! ### Pushing the parents -/

theorem mem_seen_foldl_meet {n : String} : n ∈ (names.foldl meet s).seen ↔ n ∈ s.seen ∨ n ∈ names := by
  induction names generalizing s with
  | nil => simp
  | cons a names ih =>
    rw [List.foldl_cons, ih, List.mem_cons, ← or_assoc]
    refine or_congr_left ?_
    unfold meet
    split
    · rename_i ha
      have ha : a ∈ s.seen := by simpa using ha
      exact ⟨Or.inl, fun h => h.elim id fun heq => heq ▸ ha⟩
    · exact List.mem_cons.trans or_comm

@[simp]
theorem expanded_meet (s : Search) (a : String) : (s.meet a).expanded = s.expanded := by
  unfold meet; split <;> rfl

@[simp]
theorem found_meet (s : Search) (a : String) : (s.meet a).found = s.found := by
  unfold meet; split <;> rfl

@[simp]
theorem expanded_foldl_meet (s : Search) (names : List String) : (names.foldl meet s).expanded = s.expanded := by
  induction names generalizing s with
  | nil => rfl
  | cons a names ih => rw [List.foldl_cons, ih, expanded_meet]

@[simp]
theorem found_foldl_meet (s : Search) (names : List String) : (names.foldl meet s).found = s.found := by
  induction names generalizing s with
  | nil => rfl
  | cons a names ih => rw [List.foldl_cons, ih, found_meet]

/-! ### The invariant -/

/-- the names seen are the expanded and the pending ones, each once -/
structure Tidy (s : Search) : Prop where
  nodup : (s.expanded ++ s.pending).Nodup
  mem_seen_iff : ∀ n, n ∈ s.seen ↔ n ∈ s.expanded ++ s.pending

theorem Tidy.meet (h : s.Tidy) (a : String) : (s.meet a).Tidy := by
  unfold Search.meet
  split
  · exact h
  · rename_i ha
    have hnew : a ∉ s.expanded ++ s.pending := fun hmem => ha (by simpa using (h.mem_seen_iff a).2 hmem)
    have hperm : (s.expanded ++ a :: s.pending).Perm (a :: (s.expanded ++ s.pending)) := List.perm_middle
    refine ⟨hperm.nodup_iff.2 (List.nodup_cons.2 ⟨hnew, h.nodup⟩), fun n => ?_⟩
    rw [hperm.mem_iff, List.mem_cons, List.mem_cons, h.mem_seen_iff]

theorem Tidy.foldl_meet (h : s.Tidy) (names : List String) : (names.foldl Search.meet s).Tidy := by
  induction names generalizing s with
  | nil => exact h
  | cons a names ih => exact ih (h.meet a)

/-- what holds in the search for `goal` above `sub` -/
structure Sound (p : Pool) (sub goal : String) (s : Search) : Prop extends Tidy s where
  start : sub ∈ s.seen
  reached : ∀ n ∈ s.seen, ReflTransGen p.Parent sub n
  closed : s.found = false → ∀ n ∈ s.expanded, n ≠ goal ∧ ∀ b, p.Parent n b → b ∈ s.seen
  goal_mem : s.found = true → goal ∈ s.expanded

theorem sound_start (p : Pool) (sub goal : String) : Sound p sub goal (Search.start sub) where
  nodup := List.nodup_singleton sub
  mem_seen_iff _ := Iff.rfl
  start := List.mem_cons_self
  reached n hn := List.mem_singleton.1 hn ▸ .refl
  closed _ n hn := absurd hn List.not_mem_nil
  goal_mem h := absurd h (by simp [Search.start])

/-- **One iteration keeps the invariant**, and expands one more name. -/
theorem Sound.step (h : Sound p sub goal s) (hstep : step? p goal s = some t) :
    Sound p sub goal t ∧ t.expanded.length = s.expanded.length + 1 := by
  obtain ⟨hfound, next, rest, hpending, hcase⟩ := step?_cases hstep
  -- a popped name goes from the front of the stack to the end of the expanded names
  have hmoved : s.expanded ++ s.pending = (s.expanded ++ [next]) ++ rest := by simp [hpending]
  have hseen : next ∈ s.seen := (h.mem_seen_iff next).2 (by simp [hpending])
  rcases hcase with ⟨rfl, rfl⟩ | ⟨hne, rfl⟩
  · refine ⟨⟨⟨hmoved ▸ h.nodup, hmoved ▸ h.mem_seen_iff⟩, h.start, h.reached, fun hcontra => ?_, fun _ => ?_⟩, by simp⟩
    · exact absurd hcontra (by simp)
    · exact List.mem_append_right _ List.mem_cons_self
  · have htidy : Tidy { s with pending := rest, expanded := s.expanded ++ [next] } :=
      ⟨hmoved ▸ h.nodup, hmoved ▸ h.mem_seen_iff⟩
    refine ⟨⟨htidy.foldl_meet _, mem_seen_foldl_meet.2 (Or.inl h.start), ?_, ?_, ?_⟩, by simp⟩
    · intro n hn
      rcases mem_seen_foldl_meet.1 hn with hold | hparent
      · exact h.reached n hold
      · exact (h.reached next hseen).tail hparent
    · intro _ n hn
      rw [expanded_foldl_meet] at hn
      rcases List.mem_append.1 hn with hold | hnext
      · obtain ⟨hgoal, hparents⟩ := h.closed hfound n hold
        exact ⟨hgoal, fun b hb => mem_seen_foldl_meet.2 (Or.inl (hparents b hb))⟩
      · obtain rfl := List.mem_singleton.1 hnext
        exact ⟨hne, fun b hb => mem_seen_foldl_meet.2 (Or.inr hb)⟩
    · intro hcontra
      rw [found_foldl_meet] at hcontra
      exact absurd (hfound.symm.trans hcontra) (by simp)

/-- only the start and names mentioned as parents are ever seen -/
theorem Sound.mem_of_mem_seen (h : Sound p sub goal s) {n : String} (hn : n ∈ s.seen) : n ∈ sub :: p.parentNames := by
  rcases ReflTransGen.cases_tail (h.reached n hn) with rfl | ⟨b, -, hparent⟩
  · exact List.mem_cons_self
  · exact List.mem_cons_of_mem _ hparent.mem_parentNames

theorem Sound.length_expanded_le (h : Sound p sub goal s) : s.expanded.length ≤ 1 + p.parentNames.length :=
  Pool.length_le_of_subset (List.nodup_append.1 h.nodup).1
    fun n hn => h.mem_of_mem_seen ((h.mem_seen_iff n).2 (List.mem_append_left _ hn))

/-- **The loop finds what is above the start**, in cyclic hierarchies too. -/
theorem Sound.found_iff (h : Sound p sub goal s) (hdone : step? p goal s = none) :
    s.found = true ↔ ReflTransGen p.Parent sub goal := by
  constructor
  · intro hfound
    exact h.reached goal ((h.mem_seen_iff goal).2 (List.mem_append_left _ (h.goal_mem hfound)))
  · intro hpath
    by_contra hcontra
    have hfound : s.found = false := Bool.eq_false_iff.2 hcontra
    have hempty : s.pending = [] := (step?_eq_none hdone).resolve_left hcontra
    -- nothing is pending, so what has been seen has been expanded, and is closed under parents
    have hexpanded : ∀ n, n ∈ s.seen ↔ n ∈ s.expanded := by simpa [hempty] using h.mem_seen_iff
    have hall : ∀ n, ReflTransGen p.Parent sub n → n ∈ s.expanded := by
      intro n hn
      induction hn with
      | refl => exact (hexpanded sub).1 h.start
      | tail _ hparent ih => exact (hexpanded _).1 ((h.closed hfound _ ih).2 _ hparent)
    exact (h.closed hfound goal (hall goal hpath)).1 rfl

/-- **The loop ends**, whatever the hierarchy, after as many iterations as it expands names. -/
theorem exists_loopEnds (p : Pool) (sub goal : String) :
    ∃ n e, LoopEnds (step? p goal) n (Search.start sub) e ∧ Sound p sub goal e ∧ e.expanded.length = n := by
  have hstep : ∀ s t, Sound p sub goal s → step? p goal s = some t →
      Sound p sub goal t ∧ t.expanded.length = s.expanded.length + 1 := fun _ _ hs => hs.step
  obtain ⟨n, e, hends, hsound, hsize⟩ :=
    CallPlan.exists_loopEnds hstep (fun _ hs => hs.length_expanded_le) (sound_start p sub goal)
  exact ⟨n, e, hends, hsound, by simpa [Search.start] using hsize⟩

/-- the search for `goal` above `sub` ends after so many iterations, having expanded a name in each, none twice -/
structure Cost (p : Pool) (sub goal : String) (n : Nat) (e : Search) : Prop where
  ends : LoopEnds (step? p goal) n (Search.start sub) e
  counted : e.expanded.length = n
  once : e.expanded.Nodup
  bounded : n ≤ 1 + p.parentNames.length
  answer : p.isSubtype sub goal = (sub == goal || goal == PlatformName.object || e.found)

/-- **The loop ends within its bound**, and answers what subtyping asks of it. -/
theorem exists_cost (p : Pool) (sub goal : String) : ∃ n e, Cost p sub goal n e := by
  obtain ⟨n, e, hends, hsound, hcount⟩ := exists_loopEnds p sub goal
  refine ⟨n, e, hends, hcount, (List.nodup_append.1 hsound.nodup).1, hcount ▸ hsound.length_expanded_le, ?_⟩
  rw [Bool.eq_iff_iff, Pool.isSubtype_iff, Bool.or_eq_true, Bool.or_eq_true, beq_iff_eq, beq_iff_eq,
    hsound.found_iff hends.step_eq_none]
  constructor
  · rintro (hroot | hpath)
    · exact Or.inl (Or.inr hroot)
    · exact Or.inr hpath
  · rintro ((rfl | hroot) | hpath)
    · exact Or.inr .refl
    · exact Or.inl hroot
    · exact Or.inr hpath

end Search

end CallPlan
