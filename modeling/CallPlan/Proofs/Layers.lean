/-
Stacks of layers and what can be done to them.

A stack starts with an open bottom layer, empty or with the minimal platform in it. From then on a declaration is
asked for, which the open layer takes or refuses, or the open layer is closed and another one is opened above it. The
one check made when a declaration is asked for looks at all layers in reach. It keeps every name of a stack valid and
declared once, whatever the layer (`Pool.Sound`), and so a declaration that is found once is found ever after.

- `step_sound`, `run_sound`: the invariant, for one step and for a run;
- `find?_build_add`: a declaration that is taken changes the look-up of its own name and of no other;
- `find?_run_of_some`: what is found is found after every run;
- `platformOnTop_run`: nothing that is declared later comes between the minimal platform and the root class.
-/
import CallPlan.Proofs.Assignability
import CallPlan.Proofs.BridgeIndex

namespace CallPlan

/-! ## Steps and runs -/

inductive StackStep where
  /-- asks the open layer for a declaration -/
  | declare (d : TypeDecl)
  /-- closes the open layer and opens one above it -/
  | openLayer

namespace PoolBuilder

/-- one step; what is refused leaves the open layer as it was -/
def step (b : PoolBuilder) : StackStep → PoolBuilder
  | .declare d => match b.add d with
    | .ok b' => b'
    | .error _ => b
  | .openLayer => .above b.build

def run (b : PoolBuilder) (steps : List StackStep) : PoolBuilder := steps.foldl step b

/-- the open layer of a stack, whatever was done to it since its bottom was opened -/
def Stacked (b : PoolBuilder) : Prop :=
  ∃ bottom steps, (bottom = .empty ∨ bottom = .minimalPlatform) ∧ b = run bottom steps

variable {b b' : PoolBuilder} {d : TypeDecl} {n : String}

theorem run_cons (b : PoolBuilder) (s : StackStep) (steps : List StackStep) :
    b.run (s :: steps) = (b.step s).run steps := rfl

/-! ## Asking for a declaration -/

/-- the open layer takes a declaration of a valid name that is not declared in reach; a wrong name is reported first -/
theorem add_eq (b : PoolBuilder) (d : TypeDecl) : b.add d =
    if InternalName.isValid d.name = true then
      if b.contains d.name = true then .error (.duplicateType d.name) else .ok { b with decls := b.decls ++ [d] }
    else .error (.invalidInternalName d.name) := by
  unfold add InternalName.check
  split
  · rfl
  · rfl

theorem add_eq_ok_iff : b.add d = .ok b' ↔ InternalName.isValid d.name = true ∧ b.contains d.name = false ∧
    b' = { b with decls := b.decls ++ [d] } := by
  rw [add_eq]
  split_ifs with hvalid hknown
  · simp [hknown]
  · simp [hvalid, hknown, eq_comm]
  · simp [hvalid]

theorem exists_add_iff : (∃ b', b.add d = .ok b') ↔ InternalName.isValid d.name = true ∧ b.contains d.name = false := by
  simp only [add_eq_ok_iff, exists_and_left, exists_eq, and_true]

theorem step_declare (h : b.add d = .ok b') : b.step (.declare d) = b' := by
  unfold step
  simp only [h]

theorem step_refused {e : Error} (h : b.add d = .error e) : b.step (.declare d) = b := by
  unfold step
  simp only [h]

theorem step_openLayer (b : PoolBuilder) : b.step .openLayer = .above b.build := rfl

/-! ## Look-ups -/

theorem decls_build (b : PoolBuilder) : b.build.decls = b.decls ++ (b.parent.map Pool.decls).getD [] := by
  cases hp : b.parent with
  | none => simp [build, Pool.decls, hp]
  | some p => simp [build, Pool.decls, hp]

theorem decls_build_above (p : Pool) : (above p).build.decls = p.decls := decls_build (above p)

/-- an open layer reaches what the closed one does -/
theorem contains_build (b : PoolBuilder) (n : String) : b.build.contains n = b.contains n := by
  rw [Pool.contains, Pool.find?, decls_build, List.find?_append, Option.isSome_or, contains]
  congr 1
  · exact List.isSome_find?
  · cases b.parent with
    | none => rfl
    | some p => rfl

/-- **Taking a declaration changes the look-up of its name**, and of no other. -/
theorem find?_build_add (h : b.add d = .ok b') (n : String) :
    b'.build.find? n = if n = d.name then some d else b.build.find? n := by
  obtain ⟨-, hfresh, rfl⟩ := add_eq_ok_iff.1 h
  have hnone : b.build.find? d.name = none := by simpa [Pool.contains, hfresh] using contains_build b d.name
  simp only [Pool.find?, decls_build, List.find?_append, Option.or_eq_none_iff] at hnone ⊢
  split_ifs with hn
  · simp [hn, hnone.1]
  · simp [Ne.symm hn]

theorem find?_step_of_some (h : b.build.find? n = some d) (s : StackStep) : (b.step s).build.find? n = some d := by
  cases s with
  | openLayer => rw [step_openLayer, Pool.find?, decls_build_above]; exact h
  | declare e =>
    cases hadd : b.add e with
    | error fault => rw [step_refused hadd, h]
    | ok b' =>
      rw [step_declare hadd, find?_build_add hadd]
      split_ifs with hn
      · -- the open layer refuses a name that is found
        have hknown : b.contains e.name = true := by rw [← contains_build, ← hn, Pool.contains, h]; rfl
        exact absurd (hknown.symm.trans (add_eq_ok_iff.1 hadd).2.1) (by decide)
      · exact h

/-- **What is found is found after every run.** -/
theorem find?_run_of_some (h : b.build.find? n = some d) (steps : List StackStep) :
    (b.run steps).build.find? n = some d := by
  induction steps generalizing b with
  | nil => exact h
  | cons s steps ih => rw [run_cons]; exact ih (find?_step_of_some h s)

end PoolBuilder

/-! ## The invariant -/

/-- valid names, and each declared once in all layers -/
structure Pool.Sound (p : Pool) : Prop where
  namesValid : ∀ d ∈ p.decls, InternalName.isValid d.name = true
  namesDistinct : (p.decls.map (·.name)).Nodup

theorem Pool.Sound.of_perm {p q : Pool} (h : p.Sound) (hperm : q.decls.Perm p.decls) : q.Sound :=
  ⟨fun d hd => h.namesValid d (hperm.mem_iff.1 hd), (hperm.map _).nodup_iff.2 h.namesDistinct⟩

namespace PoolBuilder

variable {b b' : PoolBuilder} {d : TypeDecl}

theorem not_mem_names_of_contains (h : b.contains d.name = false) : d.name ∉ b.build.decls.map (·.name) := by
  rw [← contains_build, Pool.contains, Option.isSome_eq_false_iff, Option.isNone_iff_eq_none, Pool.find?,
    List.find?_eq_none] at h
  intro hmem
  obtain ⟨e, he, heq⟩ := List.mem_map.1 hmem
  exact h e he (by simpa using heq)

theorem sound_empty : empty.build.Sound := ⟨by simp [empty, build, Pool.decls], by simp [empty, build, Pool.decls]⟩

theorem sound_minimalPlatform : minimalPlatform.build.Sound := ⟨by decide +kernel, by decide⟩

theorem decls_add_perm (h : b.add d = .ok b') : b'.build.decls.Perm (d :: b.build.decls) := by
  obtain ⟨-, -, rfl⟩ := add_eq_ok_iff.1 h
  rw [decls_build, decls_build, List.append_assoc]
  exact List.perm_middle

theorem step_sound (h : b.build.Sound) (s : StackStep) : (b.step s).build.Sound := by
  cases s with
  | openLayer => exact h.of_perm (by rw [step_openLayer, decls_build_above])
  | declare d =>
    cases hadd : b.add d with
    | error fault => rwa [step_refused hadd]
    | ok b' =>
      obtain ⟨hvalid, hfresh, -⟩ := add_eq_ok_iff.1 hadd
      rw [step_declare hadd]
      have hperm := decls_add_perm hadd
      constructor
      · intro e he
        rcases List.mem_cons.1 (hperm.mem_iff.1 he) with rfl | he
        · exact hvalid
        · exact h.namesValid e he
      · rw [(hperm.map _).nodup_iff, List.map_cons, List.nodup_cons]
        exact ⟨not_mem_names_of_contains hfresh, h.namesDistinct⟩

theorem run_sound (h : b.build.Sound) (steps : List StackStep) : (b.run steps).build.Sound := by
  induction steps generalizing b with
  | nil => exact h
  | cons s steps ih => rw [run_cons]; exact ih (step_sound h s)

/-- **Every name of a stack is valid and declared once.** -/
theorem Stacked.sound (h : b.Stacked) : b.build.Sound := by
  obtain ⟨bottom, steps, rfl | rfl, rfl⟩ := h
  · exact run_sound sound_empty steps
  · exact run_sound sound_minimalPlatform steps

/-- **Nothing comes above the platform.** On the minimal platform the types that every array is below keep having no
parents. -/
theorem platformOnTop_run (steps : List StackStep) : (minimalPlatform.run steps).build.PlatformOnTop := by
  have htop : ∀ n d, minimalPlatform.build.find? n = some d → d.parents = [] →
      (minimalPlatform.run steps).build.parentsOf n = [] := by
    intro n d hfind hparents
    rw [Pool.parentsOf, find?_run_of_some hfind steps]
    exact hparents
  exact ⟨htop _ PlatformType.objectClass (by decide) rfl, htop _ (.ofInterface PlatformName.cloneable) (by decide) rfl,
    htop _ (.ofInterface PlatformName.serializable) (by decide) rfl⟩

/-- two layers on the minimal platform, the upper one of which refuses to declare a class of the lower one again -/
def pets : PoolBuilder := minimalPlatform.run [
  .declare (.ofClass "pets/Animal" PlatformName.object), .openLayer,
  .declare (.ofClass "pets/Cat" "pets/Animal"), .declare (.ofClass "pets/Animal" "pets/Cat")]

end PoolBuilder

end CallPlan
