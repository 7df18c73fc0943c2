/-
Drafts over whole runs of additions.

Whatever is asked of a draft, its members are the first ones asked for under each name or token, in the order in which
they were asked for (`Assembled`, `step_assembled`, `run_assembled`). An addition is refused exactly when it would add
a second field of one name or a second method of one token, and then the draft stays as it was.

In a layer above a pool the draft becomes a type with the members it was given, unless the pool declares its name
already; whatever else the pool declares is found as before (`exists_typeAbove`).

- `drafting_laws`: what holds of a draft after every run, and of the type it becomes above every pool.
-/
import CallPlan.Samples.Pools
import CallPlan.Proofs.Layers
import Mathlib.Data.List.Induction
import Mathlib.Data.List.Nodup

namespace CallPlan

/-! ## The first of each key -/

section First

variable {α κ : Type} [DecidableEq κ] {key : α → κ}

/-- the values whose key no earlier one has -/
def firstOf (key : α → κ) : List α → List α
  | [] => []
  | x :: xs => x :: (firstOf key xs).filter fun y => key y ≠ key x

/-- the values with one more at the end, unless its key is there -/
def withNew (key : α → κ) (kept : List α) (x : α) : List α := if key x ∈ kept.map key then kept else kept ++ [x]

theorem nodup_keys_firstOf (key : α → κ) (xs : List α) : ((firstOf key xs).map key).Nodup := by
  induction xs with
  | nil => exact List.nodup_nil
  | cons x xs ih =>
    rw [firstOf, List.map_cons, List.nodup_cons]
    constructor
    · intro hmem
      obtain ⟨y, hy, hkey⟩ := List.mem_map.1 hmem
      exact absurd hkey (by simpa using (List.mem_filter.1 hy).2)
    · exact ih.sublist (List.filter_sublist.map key)

theorem mem_of_mem_firstOf {x : α} {xs : List α} (h : x ∈ firstOf key xs) : x ∈ xs := by
  induction xs with
  | nil => exact h
  | cons y xs ih =>
    rcases List.mem_cons.1 h with rfl | h
    · exact List.mem_cons_self
    · exact List.mem_cons_of_mem _ (ih (List.mem_filter.1 h).1)

/-- a key other than the first one is kept behind it -/
theorem mem_keys_filter_iff {k k' : κ} (hk : k ≠ k') (xs : List α) :
    k ∈ (xs.filter fun y => key y ≠ k').map key ↔ k ∈ xs.map key := by
  simp only [List.mem_map, List.mem_filter, decide_eq_true_eq]
  constructor
  · rintro ⟨y, ⟨hy, -⟩, rfl⟩
    exact ⟨y, hy, rfl⟩
  · rintro ⟨y, hy, rfl⟩
    exact ⟨y, ⟨hy, hk⟩, rfl⟩

/-- **A value that comes last** is kept iff its key is new. -/
theorem firstOf_concat (key : α → κ) (xs : List α) (y : α) :
    firstOf key (xs ++ [y]) = withNew key (firstOf key xs) y := by
  induction xs with
  | nil => rfl
  | cons x xs ih =>
    have hkeys : key y ∈ (firstOf key (x :: xs)).map key ↔ key y = key x ∨ key y ∈ (firstOf key xs).map key := by
      by_cases hy : key y = key x
      · simp [firstOf, hy]
      · rw [firstOf, List.map_cons, List.mem_cons, mem_keys_filter_iff hy]
    rw [List.cons_append, firstOf, ih, withNew, withNew]
    by_cases hmem : key y ∈ (firstOf key xs).map key
    · rw [if_pos hmem, if_pos (hkeys.2 (Or.inr hmem)), firstOf]
    · rw [if_neg hmem, List.filter_append]
      by_cases hy : key y = key x
      · rw [if_pos (hkeys.2 (Or.inl hy)), firstOf]
        simp [hy]
      · rw [if_neg fun h => (hkeys.1 h).elim hy hmem, firstOf]
        simp [hy]

/-- what a last step adds to what the steps before it asked for -/
theorem firstOf_filterMap_concat {β : Type} (key : α → κ) (f : β → Option α) (xs : List β) (x : β) :
    firstOf key ((xs ++ [x]).filterMap f) =
      (f x).elim (firstOf key (xs.filterMap f)) (withNew key (firstOf key (xs.filterMap f))) := by
  rw [List.filterMap_append]
  cases hx : f x with
  | none => simp [hx]
  | some y => simpa [hx] using firstOf_concat key _ y

end First

/-! ## Steps and runs -/

/-- what may be asked of a draft -/
inductive DraftStep where
  | implement (interface : KnownType)
  | field (f : Field)
  | method (name : String) (descriptor : MethodDescriptor) (flags : AccessFlags)
  | initializer (label : String)

namespace DraftStep

def interface? : DraftStep → Option String
  | .implement i => some i.name
  | _ => none

def field? : DraftStep → Option Field
  | .field f => some f
  | _ => none

/-- the method that the step asks for, as a class member of `owner` -/
def method? (owner : String) : DraftStep → Option Method
  | .method name descriptor flags => some ⟨owner, false, name, descriptor, flags⟩
  | _ => none

def label? : DraftStep → Option String
  | .initializer label => some label
  | _ => none

end DraftStep

namespace TypeDraft

variable {d start : TypeDraft} {name superName : String} {steps : List DraftStep} {pool : Pool} {t : KnownType}

def ask (d : TypeDraft) : DraftStep → Except Error TypeDraft
  | .implement i => .ok (d.implementing i)
  | .field f => d.addField f
  | .method name descriptor flags => d.addMethod name descriptor flags
  | .initializer label => .ok (d.addInitializer label)

/-- one step; what is refused leaves the draft as it was -/
def step (d : TypeDraft) (s : DraftStep) : TypeDraft :=
  match d.ask s with
  | .ok d' => d'
  | .error _ => d

def run (d : TypeDraft) (steps : List DraftStep) : TypeDraft := steps.foldl step d

theorem run_concat (d : TypeDraft) (steps : List DraftStep) (s : DraftStep) :
    d.run (steps ++ [s]) = (d.run steps).step s := List.foldl_concat _ _ _ _

/-! ## One step -/

/-- a step that would add a second field of one name or a second method of one token, and how it is refused -/
inductive Repeats (d : TypeDraft) : DraftStep → Error → Prop where
  | field {f : Field} (taken : f.name ∈ d.fields.map Field.name) :
    Repeats d (.field f) (.duplicateField d.name f.name)
  | method {name : String} {descriptor : MethodDescriptor} {flags : AccessFlags}
    (taken : (⟨d.name, false, name, descriptor, flags⟩ : Method).token ∈ d.methods.map Method.token) :
    Repeats d (.method name descriptor flags)
      (.duplicateMethod d.name (⟨d.name, false, name, descriptor, flags⟩ : Method).render)

theorem addField_eq (d : TypeDraft) (f : Field) : d.addField f =
    if f.name ∈ d.fields.map Field.name then .error (.duplicateField d.name f.name)
    else .ok { d with fields := d.fields ++ [f] } := by
  simp [addField]

theorem addMethod_eq (d : TypeDraft) (name : String) (descriptor : MethodDescriptor) (flags : AccessFlags) :
    d.addMethod name descriptor flags =
      if (⟨d.name, false, name, descriptor, flags⟩ : Method).token ∈ d.methods.map Method.token then
        .error (.duplicateMethod d.name (⟨d.name, false, name, descriptor, flags⟩ : Method).render)
      else .ok { d with methods := d.methods ++ [⟨d.name, false, name, descriptor, flags⟩] } := by
  simp [addMethod]

/-- **A step is refused** iff it repeats a member. -/
theorem ask_eq_error_iff {s : DraftStep} {e : Error} : d.ask s = .error e ↔ d.Repeats s e := by
  constructor
  · intro h
    cases s with
    | implement i => exact absurd h (by simp [ask])
    | initializer label => exact absurd h (by simp [ask])
    | field f =>
      rw [ask, addField_eq] at h
      split_ifs at h with htaken
      obtain rfl := Except.error.inj h
      exact .field htaken
    | method name descriptor flags =>
      rw [ask, addMethod_eq] at h
      split_ifs at h with htaken
      obtain rfl := Except.error.inj h
      exact .method htaken
  · rintro (htaken | htaken)
    · rw [ask, addField_eq, if_pos htaken]
    · rw [ask, addMethod_eq, if_pos htaken]

theorem step_implement (d : TypeDraft) (i : KnownType) :
    d.step (.implement i) = { d with interfaces := withNew id d.interfaces i.name } := by
  simp only [step, ask, implementing, withNew, List.map_id, id, List.contains_iff_mem]
  split_ifs <;> rfl

theorem step_field (d : TypeDraft) (f : Field) :
    d.step (.field f) = { d with fields := withNew Field.name d.fields f } := by
  simp only [step, ask, addField_eq, withNew]
  split_ifs <;> rfl

theorem step_method (d : TypeDraft) (name : String) (descriptor : MethodDescriptor) (flags : AccessFlags) :
    d.step (.method name descriptor flags) =
      { d with methods := withNew Method.token d.methods ⟨d.name, false, name, descriptor, flags⟩ } := by
  simp only [step, ask, addMethod_eq, withNew]
  split
  · rename_i hok
    split_ifs at hok with htaken
    rw [if_neg htaken]
    exact (Except.ok.inj hok).symm
  · rename_i hrefused
    split_ifs at hrefused with htaken
    rw [if_pos htaken]

theorem step_initializer (d : TypeDraft) (label : String) :
    d.step (.initializer label) = { d with initializers := d.initializers ++ [label] } := rfl

theorem name_step (d : TypeDraft) (s : DraftStep) : (d.step s).name = d.name := by
  cases s <;> simp [step_implement, step_field, step_method, step_initializer]

theorem superName_step (d : TypeDraft) (s : DraftStep) : (d.step s).superName = d.superName := by
  cases s <;> simp [step_implement, step_field, step_method, step_initializer]

theorem interfaces_step (d : TypeDraft) (s : DraftStep) :
    (d.step s).interfaces = s.interface?.elim d.interfaces (withNew id d.interfaces) := by
  cases s <;> simp [step_implement, step_field, step_method, step_initializer, DraftStep.interface?]

theorem fields_step (d : TypeDraft) (s : DraftStep) :
    (d.step s).fields = s.field?.elim d.fields (withNew Field.name d.fields) := by
  cases s <;> simp [step_implement, step_field, step_method, step_initializer, DraftStep.field?]

theorem methods_step (d : TypeDraft) (s : DraftStep) :
    (d.step s).methods = (s.method? d.name).elim d.methods (withNew Method.token d.methods) := by
  cases s <;> simp [step_implement, step_field, step_method, step_initializer, DraftStep.method?]

theorem initializers_step (d : TypeDraft) (s : DraftStep) :
    (d.step s).initializers = d.initializers ++ s.label?.toList := by
  cases s <;> simp [step_implement, step_field, step_method, step_initializer, DraftStep.label?]

/-! ## Runs -/

/-- the draft has the first members that these steps ask for, in order -/
structure Assembled (d : TypeDraft) (name superName : String) (steps : List DraftStep) : Prop where
  named : d.name = name
  extended : d.superName = superName
  interfaces : d.interfaces = firstOf id (steps.filterMap DraftStep.interface?)
  fields : d.fields = firstOf Field.name (steps.filterMap DraftStep.field?)
  methods : d.methods = firstOf Method.token (steps.filterMap (DraftStep.method? name))
  initializers : d.initializers = steps.filterMap DraftStep.label?

theorem assembled_of_extending {superType : KnownType} (h : extending name superType = .ok start) :
    start.Assembled name superType.name [] ∧ InternalName.isValid name = true := by
  obtain ⟨_, hcheck, h⟩ := bind_eq_ok.1 h
  obtain rfl := Except.ok.inj h
  refine ⟨⟨rfl, rfl, rfl, rfl, rfl, rfl⟩, ?_⟩
  unfold InternalName.check at hcheck
  split at hcheck
  · assumption
  · exact absurd hcheck (by simp)

/-- **One step keeps a draft assembled.** -/
theorem step_assembled (h : d.Assembled name superName steps) (s : DraftStep) :
    (d.step s).Assembled name superName (steps ++ [s]) := by
  refine ⟨?_, ?_, ?_, ?_, ?_, ?_⟩
  · rw [name_step, h.named]
  · rw [superName_step, h.extended]
  · rw [interfaces_step, firstOf_filterMap_concat, h.interfaces]
  · rw [fields_step, firstOf_filterMap_concat, h.fields]
  · rw [methods_step, firstOf_filterMap_concat, h.named, h.methods]
  · rw [initializers_step, List.filterMap_append, h.initializers, List.filterMap_cons]
    cases s.label? <;> rfl

theorem run_assembled (h : d.Assembled name superName []) (steps : List DraftStep) :
    (d.run steps).Assembled name superName steps := by
  induction steps using List.reverseRecOn with
  | nil => exact h
  | append_singleton steps s ih => rw [run_concat]; exact step_assembled ih s

namespace Assembled

variable (h : d.Assembled name superName steps)

include h

theorem nodup_interfaces : d.interfaces.Nodup := by
  have hdistinct := nodup_keys_firstOf id (steps.filterMap DraftStep.interface?)
  rwa [List.map_id, ← h.interfaces] at hdistinct

theorem nodup_fields : (d.fields.map Field.name).Nodup := h.fields ▸ nodup_keys_firstOf _ _

theorem nodup_methods : (d.methods.map Method.token).Nodup := h.methods ▸ nodup_keys_firstOf _ _

/-- every method is a class member of the drafted type itself -/
theorem owned {m : Method} (hm : m ∈ d.methods) : m.owner = name ∧ m.ownerIsInterface = false := by
  rw [h.methods] at hm
  obtain ⟨s, -, hs⟩ := List.mem_filterMap.1 (mem_of_mem_firstOf hm)
  cases s with
  | method own descriptor flags =>
    obtain rfl := Option.some.inj hs
    exact ⟨rfl, rfl⟩
  | implement i => exact absurd hs (by simp [DraftStep.method?])
  | field f => exact absurd hs (by simp [DraftStep.method?])
  | initializer label => exact absurd hs (by simp [DraftStep.method?])

end Assembled

/-! ## The type above a pool -/

/-- `t` is the drafted type in a layer above `pool` -/
structure Describes (d : TypeDraft) (pool : Pool) (t : KnownType) : Prop where
  name : t.name = d.name
  superName : t.decl.superName = some d.superName
  declaredMethods : t.declaredMethods = d.methods
  /-- those of the interfaces that the pool with the new layer knows, in order -/
  interfaces : t.interfaces.map KnownType.name = d.interfaces.filter t.pool.contains
  /-- what has another name is described as before -/
  others : ∀ n, n ≠ d.name → (t.pool.type? n).map KnownType.decl = (pool.type? n).map KnownType.decl

theorem type?_of_unknown {n : String} (h : pool.find? n = none) : pool.type? n = none := Option.pmap_eq_none_iff.2 h

theorem type?_of_find? {n : String} {e : TypeDecl} (h : pool.find? n = some e) :
    pool.type? n = some ⟨pool, e, Pool.find?_self h⟩ := Pool.type?_eq_some_iff.2 ⟨rfl, h⟩

/-- a name is described by the declaration found under it -/
theorem map_decl_type? (pool : Pool) (n : String) : (pool.type? n).map KnownType.decl = pool.find? n := by
  cases hfind : pool.find? n with
  | none =>
    rw [type?_of_unknown hfind]
    rfl
  | some e =>
    rw [type?_of_find? hfind]
    rfl

/-- the interfaces that a type shows are those it lists that its pool knows -/
theorem names_interfaces (t : KnownType) :
    t.interfaces.map KnownType.name = t.decl.interfaces.filter t.pool.contains := by
  rw [KnownType.interfaces]
  induction t.decl.interfaces with
  | nil => rfl
  | cons n ns ih =>
    cases hfind : t.pool.find? n with
    | none =>
      have hunknown : ¬ t.pool.contains n = true := by simp [Pool.contains, hfind]
      rw [List.filterMap_cons_none (type?_of_unknown hfind), List.filter_cons_of_neg hunknown, ih]
    | some e =>
      have hknown : t.pool.contains n = true := by simp [Pool.contains, hfind]
      rw [List.filterMap_cons_some (type?_of_find? hfind), List.filter_cons_of_pos hknown, List.map_cons, ih,
        KnownType.name, Pool.find?_name hfind]

/-- what is declared are the methods of the draft, if they are its own -/
theorem declaredMethods_toDecl (howned : ∀ m ∈ d.methods, m.owner = d.name ∧ m.ownerIsInterface = false) :
    d.toDecl.declaredMethods = d.methods := by
  have hflags : TypeDraft.flags.has .interfaceBit = false := by decide
  have hclass : d.toDecl.isInterface = false := hflags
  rw [TypeDecl.declaredMethods, hclass]
  simp only [toDecl, List.map_map]
  refine (List.map_congr_left fun m hm => ?_).trans (List.map_id _)
  obtain ⟨howner, hkind⟩ := howned m hm
  simp only [Function.comp_apply, id, ← howner, ← hkind]

theorem contains_above (pool : Pool) (n : String) : (PoolBuilder.above pool).contains n = pool.contains n := by
  simp [PoolBuilder.contains, PoolBuilder.above]

/-- **The layer above a pool refuses a draft** whose name the pool declares. -/
theorem typeAbove_of_known (hvalid : InternalName.isValid d.name = true) (hknown : pool.contains d.name = true) :
    d.typeAbove pool = .error (.duplicateType d.name) := by
  have hname : d.toDecl.name = d.name := rfl
  have hadd : (PoolBuilder.above pool).add d.toDecl = .error (.duplicateType d.name) := by
    rw [PoolBuilder.add_eq, hname, if_pos hvalid, if_pos ((contains_above pool d.name).trans hknown)]
  rw [typeAbove, hadd]
  rfl

/-- **The layer above a pool takes a draft** of a valid name that the pool does not declare, and describes it. -/
theorem exists_typeAbove (hvalid : InternalName.isValid d.name = true)
    (howned : ∀ m ∈ d.methods, m.owner = d.name ∧ m.ownerIsInterface = false) (hnew : pool.contains d.name = false) :
    ∃ t, d.typeAbove pool = .ok t ∧ d.Describes pool t := by
  obtain ⟨builder, hadd⟩ := (PoolBuilder.exists_add_iff (d := d.toDecl)).2
    ⟨hvalid, (contains_above pool d.name).trans hnew⟩
  have hfind := PoolBuilder.find?_build_add hadd
  have hown : builder.build.find? d.name = some d.toDecl := (hfind d.name).trans (if_pos rfl)
  have htype : d.typeAbove pool = .ok ⟨builder.build, d.toDecl, Pool.find?_self hown⟩ := by
    rw [typeAbove, hadd]
    exact Pool.type_eq_ok_iff.2 (type?_of_find? hown)
  refine ⟨_, htype, rfl, rfl, declaredMethods_toDecl howned, names_interfaces _, fun n hn => ?_⟩
  rw [map_decl_type?, map_decl_type?]
  have hother : builder.build.find? n = (PoolBuilder.above pool).build.find? n := (hfind n).trans (if_neg hn)
  rw [hother, Pool.find?, PoolBuilder.decls_build_above]
  rfl

/-! ## All laws -/

/-- what holds of a draft after these steps, started as a subclass under this name -/
structure DraftLaws (d : TypeDraft) (name superName : String) (steps : List DraftStep) : Prop where
  interfacesDistinct : d.interfaces.Nodup
  fieldsDistinct : (d.fields.map Field.name).Nodup
  methodsDistinct : (d.methods.map Method.token).Nodup
  /-- all members are there in the order in which they were asked for first -/
  assembled : d.Assembled name superName steps
  /-- what is asked for next fails iff it repeats a member -/
  refused : ∀ s e, d.ask s = .error e ↔ d.Repeats s e
  owned : ∀ m ∈ d.methods, m.owner = name ∧ m.ownerIsInterface = false
  known : ∀ pool : Pool, pool.contains name = true → d.typeAbove pool = .error (.duplicateType name)
  described : ∀ pool : Pool, pool.contains name = false → ∃ t, d.typeAbove pool = .ok t ∧ d.Describes pool t

/-- **Laws of drafting.** After every run of steps, refused ones included, a draft keeps its members distinct and in
order, and above every pool it is described by exactly these members. -/
theorem drafting_laws {superType : KnownType} (h : extending name superType = .ok start) (steps : List DraftStep) :
    (start.run steps).DraftLaws name superType.name steps := by
  obtain ⟨hstart, hvalid⟩ := assembled_of_extending h
  have hrun := run_assembled hstart steps
  have howned : ∀ m ∈ (start.run steps).methods, m.owner = name ∧ m.ownerIsInterface = false :=
    fun m hm => hrun.owned hm
  have hnamed := hrun.named
  refine ⟨hrun.nodup_interfaces, hrun.nodup_fields, hrun.nodup_methods, hrun, fun s e => ask_eq_error_iff, howned,
    ?_, ?_⟩
  · intro pool hknown
    rw [← hnamed] at hvalid hknown ⊢
    exact typeAbove_of_known hvalid hknown
  · intro pool hnew
    rw [← hnamed] at hvalid hnew howned
    exact exists_typeAbove hvalid howned hnew

end TypeDraft

/-! ### Samples -/

namespace Samples

/-- types of the minimal platform as that describes them -/
def objectType : KnownType := ⟨PoolBuilder.minimalPlatform.build, PlatformType.objectClass, by decide⟩

def charSequenceType : KnownType :=
  ⟨PoolBuilder.minimalPlatform.build, .ofInterface PlatformName.charSequence, by decide⟩

/-- a field and a method are asked for again with other flags, and an interface and a label twice -/
def draftSteps : List DraftStep := [
  .implement charSequenceType, .field ⟨"text", .object PlatformName.string, .publicBit⟩,
  .method "length" ⟨[], .value (.base .int)⟩ .publicBit, .field ⟨"text", .object PlatformName.object, .privateBit⟩,
  .method "length" ⟨[], .value (.base .int)⟩ bridgeFlags, .method "length" ⟨[], .void⟩ .publicBit,
  .initializer "setup", .implement charSequenceType, .initializer "setup"]

theorem charSequence_drafting : ∃ start, TypeDraft.extending generatedName objectType = .ok start ∧
    (start.run draftSteps).DraftLaws generatedName PlatformName.object draftSteps ∧ start.run draftSteps =
      ⟨generatedName, PlatformName.object, [PlatformName.charSequence],
        [⟨"text", .object PlatformName.string, .publicBit⟩],
        [⟨generatedName, false, "length", ⟨[], .value (.base .int)⟩, .publicBit⟩,
          ⟨generatedName, false, "length", ⟨[], .void⟩, .publicBit⟩],
        ["setup", "setup"]⟩ := by
  obtain ⟨start, hstart, hrun⟩ := exists_ok_of_any (x := TypeDraft.extending generatedName objectType)
    (f := fun start => decide (start.run draftSteps =
      ⟨generatedName, PlatformName.object, [PlatformName.charSequence],
        [⟨"text", .object PlatformName.string, .publicBit⟩],
        [⟨generatedName, false, "length", ⟨[], .value (.base .int)⟩, .publicBit⟩,
          ⟨generatedName, false, "length", ⟨[], .void⟩, .publicBit⟩],
        ["setup", "setup"]⟩)) (by decide +kernel)
  exact ⟨start, hstart, TypeDraft.drafting_laws hstart draftSteps, of_decide_eq_true hrun⟩

end Samples

end CallPlan
