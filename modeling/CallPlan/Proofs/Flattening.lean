/-
Layers do not show in what a pool answers.

Whatever is asked of a pool is read off its look-ups: the walk up the subtypes sees the parents of a name, and what a
type sees is found under the names above it. So pools that find the same under every name answer alike
(`sameAnswers_of_find?`). Where every name is declared once, a look-up depends neither on the order of the
declarations nor on the layers they stand in (`Sound.sameAnswers_of_perm`).

- `stacked_layer_laws`: what holds of every stack of layers, and that it answers like the flat pool of its declarations.
-/
import CallPlan.Proofs.Above
import CallPlan.Proofs.Layers

namespace CallPlan

/-! ## Answers of a pool -/

namespace Pool

variable {p q : Pool}

/-- two pools describe the same types, assign alike, and see the same methods from each type -/
structure SameAnswers (p q : Pool) : Prop where
  contained : ∀ n, p.contains n = q.contains n
  described : ∀ n, (p.type? n).map (·.decl) = (q.type? n).map (·.decl)
  assignable : ∀ a b, p.isAssignable a b = q.isAssignable a b
  reachable : ∀ n, (p.type? n).map (·.reachableMethods) = (q.type? n).map (·.reachableMethods)
  defaults : ∀ n, (p.type? n).map (·.defaultMethods.byName) = (q.type? n).map (·.defaultMethods.byName)

/-- **Pools with the same look-ups give the same answers.** -/
theorem sameAnswers_of_find? (h : ∀ n, p.find? n = q.find? n) : p.SameAnswers q where
  contained n := by rw [contains, contains, h n]
  described _ := KnownType.map_type?_congr (fun _ _ hst => hst.decl) fun m _ => h m
  assignable := isAssignable_congr fun n => by rw [parentsOf, parentsOf, h n]
  reachable _ := KnownType.map_type?_congr (fun _ _ hst => hst.reachableMethods_eq) fun m _ => h m
  defaults _ := KnownType.map_type?_congr (fun _ _ hst => hst.defaultMethods_eq) fun m _ => h m

/-! ## Order and layers -/

/-- where every name is declared once, what is declared is what is found -/
theorem find?_eq_some_iff_of_nodup {ds : List TypeDecl} (h : (ds.map (·.name)).Nodup) {n : String} {d : TypeDecl} :
    ds.find? (·.name == n) = some d ↔ d ∈ ds ∧ d.name = n := by
  constructor
  · intro hfind
    exact ⟨List.mem_of_find?_eq_some hfind, by simpa using List.find?_some hfind⟩
  · rintro ⟨hmem, rfl⟩
    have hsome : (ds.find? (·.name == d.name)).isSome := List.find?_isSome.2 ⟨d, hmem, BEq.rfl⟩
    obtain ⟨e, he⟩ := Option.isSome_iff_exists.1 hsome
    have hname : e.name = d.name := by simpa using List.find?_some he
    rw [he, List.inj_on_of_nodup_map h (List.mem_of_find?_eq_some he) hmem hname]

/-- **Order and layers do not matter** where every name is declared once. -/
theorem Sound.sameAnswers_of_perm (h : p.Sound) (hperm : q.decls.Perm p.decls) : p.SameAnswers q := by
  refine sameAnswers_of_find? fun n => Option.ext fun d => ?_
  have hp : p.find? n = some d ↔ d ∈ p.decls ∧ d.name = n := find?_eq_some_iff_of_nodup h.namesDistinct
  have hq : q.find? n = some d ↔ d ∈ q.decls ∧ d.name = n := find?_eq_some_iff_of_nodup (h.of_perm hperm).namesDistinct
  rw [hp, hq, hperm.mem_iff]

end Pool

namespace PoolBuilder

variable {b b' : PoolBuilder} {d : TypeDecl}

theorem contains_add (h : b.add d = .ok b') (n : String) : b'.contains n = (n == d.name || b.contains n) := by
  rw [← contains_build, ← contains_build, Pool.contains, find?_build_add h n]
  split_ifs with hn
  · simp [hn]
  · simp [hn, Pool.contains]

/-- declarations of valid new names, each declared once, are all taken -/
theorem addAll_eq_ok {ds : List TypeDecl} (hvalid : ∀ d ∈ ds, InternalName.isValid d.name = true)
    (hdistinct : (ds.map (·.name)).Nodup) (hfresh : ∀ d ∈ ds, b.contains d.name = false) :
    b.addAll ds = .ok { b with decls := b.decls ++ ds } := by
  induction ds generalizing b with
  | nil => rw [List.append_nil]; rfl
  | cons d ds ih =>
    rw [List.map_cons, List.nodup_cons] at hdistinct
    have hadd : b.add d = .ok { b with decls := b.decls ++ [d] } :=
      add_eq_ok_iff.2 ⟨hvalid d List.mem_cons_self, hfresh d List.mem_cons_self, rfl⟩
    have hrest : ∀ e ∈ ds, ({ b with decls := b.decls ++ [d] } : PoolBuilder).contains e.name = false := by
      intro e he
      have hne : e.name ≠ d.name := fun heq => hdistinct.1 (heq ▸ List.mem_map_of_mem he)
      rw [contains_add hadd, hfresh e (List.mem_cons_of_mem _ he), Bool.or_false]
      simpa using hne
    rw [addAll, List.foldlM_cons, bind_eq_ok]
    refine ⟨_, hadd, ?_⟩
    have hih := ih (fun e he => hvalid e (List.mem_cons_of_mem _ he)) hdistinct.2 hrest
    simpa [addAll] using hih

/-! ## Laws of stacks -/

/-- what holds of an open layer and of all layers below it -/
structure LayerLaws (b : PoolBuilder) : Prop where
  /-- what is found under a name is declared under it -/
  keyed : ∀ n d, b.build.find? n = some d → d.name = n
  namesValid : ∀ d ∈ b.build.decls, InternalName.check d.name = .ok ()
  /-- no layer declares a name twice -/
  layersDistinct : ∀ layer ∈ b.build.layers, (layer.map (·.name)).Nodup
  /-- no two layers declare one name -/
  layersDisjoint : b.build.layers.Pairwise fun near far => ∀ d ∈ near, ∀ e ∈ far, d.name ≠ e.name
  taken : ∀ d, (∃ b', b.add d = .ok b') ↔ InternalName.check d.name = .ok () ∧ b.contains d.name = false
  refused : ∀ d e, b.add d = .error e → b.step (.declare d) = b
  /-- what is taken changes the answers for its own name only -/
  changed : ∀ d b', b.add d = .ok b' → b.step (.declare d) = b' ∧
    (∀ n, b'.contains n = (n == d.name || b.contains n)) ∧
    ∀ n, b'.build.find? n = if n = d.name then some d else b.build.find? n
  /-- closing the layer changes no answer -/
  closed : ∀ n, b.build.contains n = b.contains n
  /-- one layer takes all the declarations, in whatever order -/
  flat : ∀ ds, ds.Perm b.build.decls → ∃ flat, empty.addAll ds = .ok flat ∧ flat.build.layers = [ds]
  /-- pools of these declarations answer alike, whatever their order and their layers -/
  relayered : ∀ q : Pool, q.decls.Perm b.build.decls → b.build.SameAnswers q

theorem check_eq_ok_iff {name : String} : InternalName.check name = .ok () ↔ InternalName.isValid name = true := by
  unfold InternalName.check
  split_ifs with h
  · simp [h]
  · simp [h]

theorem decls_single (ds : List TypeDecl) : (⟨[ds]⟩ : Pool).decls = ds := List.flatten_singleton

theorem names_of_layers {p : Pool} (h : p.Sound) : (∀ layer ∈ p.layers, (layer.map (·.name)).Nodup) ∧
    p.layers.Pairwise fun near far => ∀ d ∈ near, ∀ e ∈ far, d.name ≠ e.name := by
  have hnames := h.namesDistinct
  rw [List.Nodup, List.pairwise_map, Pool.decls, List.pairwise_flatten] at hnames
  exact ⟨fun layer hlayer => List.pairwise_map.2 (hnames.1 layer hlayer), hnames.2⟩

theorem exists_flat {ds : List TypeDecl} (h : Pool.Sound ⟨[ds]⟩) :
    ∃ flat, empty.addAll ds = .ok flat ∧ flat.build.layers = [ds] := by
  obtain ⟨hvalid, hdistinct⟩ := h
  rw [decls_single] at hvalid hdistinct
  exact ⟨_, addAll_eq_ok hvalid hdistinct fun _ _ => rfl, rfl⟩

/-- **Stacks of layers are sound and their layers do not show.** After every run from an empty bottom layer or from the
minimal platform all names are valid and declared once, a declaration is taken iff its name is valid and not declared
in reach and then changes the answers for its own name only, closing a layer changes no answer, and the stack answers
like one flat layer of all its declarations. -/
theorem stacked_layer_laws (h : b.Stacked) : b.LayerLaws where
  keyed _ _ := Pool.find?_name
  namesValid d hd := check_eq_ok_iff.2 (h.sound.namesValid d hd)
  layersDistinct := (names_of_layers h.sound).1
  layersDisjoint := (names_of_layers h.sound).2
  taken d := by rw [exists_add_iff, check_eq_ok_iff]
  refused _ _ := step_refused
  changed _ _ hadd := ⟨step_declare hadd, contains_add hadd, find?_build_add hadd⟩
  closed := contains_build b
  flat ds hperm := exists_flat (h.sound.of_perm (by rwa [decls_single]))
  relayered _ := h.sound.sameAnswers_of_perm

/-- the two layers of pets, the upper one of which took one declaration, answer like one layer in the opposite order -/
theorem pets_layer_laws : pets.Stacked ∧ pets.build.layers.map List.length = [1, 10] ∧
    pets.build.SameAnswers ⟨[pets.build.decls.reverse]⟩ := by
  have hstacked : pets.Stacked := ⟨.minimalPlatform, _, Or.inr rfl, rfl⟩
  have hperm : (⟨[pets.build.decls.reverse]⟩ : Pool).decls.Perm pets.build.decls := by
    rw [decls_single]
    exact List.reverse_perm _
  exact ⟨hstacked, by decide +kernel, (stacked_layer_laws hstacked).relayered _ hperm⟩

end PoolBuilder

end CallPlan
