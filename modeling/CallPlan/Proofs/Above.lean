/-
What a type sees lies above it.

Both walks over super types start at the parents of a type and go on only to parents of what they have found, so they
ask for no name that is not above the type. Two pools that find the same under all these names show the type alike,
whatever else they declare and however cyclic they are.

- `KnownType.SameAbove`: types of one name whose pools find the same under every name above it;
- `SameAbove.reachableMethods_eq`, `SameAbove.defaultMethods_eq`, `SameAbove.isSubtype_eq`: such types have the same
  methods, the same default methods and the same supertypes.
-/
import CallPlan.Proofs.Reachable

namespace CallPlan

open Relation

/-! ## Walks among some of the names -/

/-- the same is found under each of these names -/
def SameLookUpsOn (names : String → Prop) (ds es : List TypeDecl) : Prop :=
  ∀ n, names n → ds.find? (·.name == n) = es.find? (·.name == n)

/-- the parents of what is found under one of these names are among them -/
def UpClosed (names : String → Prop) (ds : List TypeDecl) : Prop :=
  ∀ n d, names n → ds.find? (·.name == n) = some d → ∀ b ∈ d.parents, names b

section Walks

variable {names : String → Prop} {ds es : List TypeDecl}

theorem SameLookUpsOn.without (h : SameLookUpsOn names ds es) (a : String) :
    SameLookUpsOn names (CallPlan.without a ds) (CallPlan.without a es) := by
  intro n hn
  rw [find?_without, find?_without, h n hn]

theorem SameLookUpsOn.foldl_without (h : SameLookUpsOn names ds es) (taken : List TypeDecl) :
    SameLookUpsOn names (taken.foldl (fun ds d => CallPlan.without d.name ds) ds)
      (taken.foldl (fun ds d => CallPlan.without d.name ds) es) := by
  intro n hn
  rw [KnownType.find?_foldl_without, KnownType.find?_foldl_without, h n hn]

theorem UpClosed.without (h : UpClosed names ds) (a : String) : UpClosed names (CallPlan.without a ds) :=
  fun n d hn hd => h n d hn (find?_of_without hd).1

theorem UpClosed.foldl_without (h : UpClosed names ds) (taken : List TypeDecl) :
    UpClosed names (taken.foldl (fun ds d => CallPlan.without d.name ds) ds) := by
  intro n d hn hd
  rw [KnownType.find?_foldl_without] at hd
  split at hd
  · exact absurd hd (by simp)
  · exact h n d hn hd

theorem superChain_congr (hclosed : UpClosed names ds) (h : SameLookUpsOn names ds es) {next : Option String}
    (hnext : ∀ n ∈ next, names n) : superChain ds next = superChain es next := by
  fun_induction superChain ds next generalizing es with
  | case1 => exact (superChain_none es).symm
  | case2 ds name hnone => rw [superChain_of_unknown ((h name (hnext name rfl)).symm.trans hnone)]
  | case3 ds name d hd ih =>
    have hname : names name := hnext name rfl
    have hsuper : ∀ n ∈ d.superName, names n := by
      intro n hn
      exact hclosed name d hname hd n (List.mem_append_left _ (Option.mem_toList.2 hn))
    rw [superChain_of_find? ((h name hname).symm.trans hd), ih (hclosed.without name) (h.without name) hsuper]

theorem interfacePolls_congr (hclosed : UpClosed names ds) (h : SameLookUpsOn names ds es) {queue : List String}
    (hqueue : ∀ n ∈ queue, names n) : interfacePolls ds queue = interfacePolls es queue := by
  fun_induction interfacePolls ds queue generalizing es with
  | case1 => exact (interfacePolls_nil es).symm
  | case2 ds name rest hnone ih =>
    have hname : names name := hqueue name List.mem_cons_self
    rw [interfacePolls_of_unknown ((h name hname).symm.trans hnone),
      ih hclosed h fun n hn => hqueue n (List.mem_cons_of_mem _ hn)]
  | case3 ds name rest d hd ih =>
    have hname : names name := hqueue name List.mem_cons_self
    have hrest : ∀ n ∈ rest ++ d.interfaces, names n := by
      intro n hn
      rcases List.mem_append.1 hn with hn | hn
      · exact hqueue n (List.mem_cons_of_mem _ hn)
      · exact hclosed name d hname hd n (List.mem_append_right _ hn)
    rw [interfacePolls_of_find? ((h name hname).symm.trans hd), ih (hclosed.without name) (h.without name) hrest]

end Walks

/-! ## Tables by name -/

namespace Table

variable {α : Type}

/-- a table of known types, with their names for keys -/
def byName (t : Table KnownType α) : Table String α := ⟨t.entries.map fun e => (e.1.name, e.2), by
  rw [List.pairwise_map]
  exact t.distinct⟩

theorem byName_insert (t : Table KnownType α) (k : KnownType) (v : α) :
    (t.insert k v).byName = t.byName.insert k.name v := by
  -- known types are compared by their names, so both sides look for the key at the same places
  have hkey : ∀ e : KnownType × α, (e.1.name == k.name) = (e.1 == k) := fun _ => rfl
  have hany : t.byName.entries.any (·.1 == k.name) = t.entries.any (·.1 == k) := by
    simp only [byName, List.any_map, Function.comp_def, hkey]
  by_cases h : t.entries.any (·.1 == k) = true
  · have hnames := hany.trans h
    simp only [insert, dif_pos h, dif_pos hnames]
    simp only [byName, replaceAt, List.map_map, Table.mk.injEq]
    refine List.map_congr_left fun e _ => ?_
    simp only [Function.comp_apply, hkey]
    split <;> rfl
  · have hnames : ¬ t.byName.entries.any (·.1 == k.name) = true := hany ▸ h
    simp only [insert, dif_neg h, dif_neg hnames]
    simp only [byName, List.map_append, List.map_cons, List.map_nil]

theorem byName_ofList (pairs : List (KnownType × α)) :
    (ofList pairs).byName = ofList (pairs.map fun e => (e.1.name, e.2)) := by
  have hfold : ∀ start : Table KnownType α, (pairs.foldl (fun t p => t.insert p.1 p.2) start).byName =
      (pairs.map fun e => (e.1.name, e.2)).foldl (fun t p => t.insert p.1 p.2) start.byName := by
    induction pairs with
    | nil => intro start; rfl
    | cons p pairs ih =>
      intro start
      rw [List.foldl_cons, ih, byName_insert]
      rfl
  exact hfold .empty

end Table

/-! ## Names above a type -/

namespace KnownType

variable {s t : KnownType} {n : String}

/-- the name of the type, or a name that is reached from it over parents -/
def Above (t : KnownType) (n : String) : Prop := ReflTransGen t.pool.Parent t.name n

theorem above_self (t : KnownType) : t.Above t.name := .refl

theorem upClosed_above (t : KnownType) : UpClosed t.Above t.pool.decls :=
  fun _ d hn hd _ hb => hn.tail (Pool.parent_iff.2 ⟨d, hd, hb⟩)

theorem above_of_mem_parents {b : String} (h : b ∈ t.decl.parents) : t.Above b :=
  upClosed_above t t.name t.decl (above_self t) t.known b h

theorem above_of_mem_superClasses {d : TypeDecl} (h : d ∈ t.superClasses) : t.Above d.name := by
  unfold superClasses at h
  cases hsup : t.decl.superName with
  | none => rw [hsup, superChain_none] at h; exact absurd h List.not_mem_nil
  | some name =>
    rw [hsup] at h
    have hstep : t.Above name := above_of_mem_parents (List.mem_append_left _ (Option.mem_toList.2 hsup))
    exact hstep.trans (path_of_mem_superChain (fun _ _ hfind => (find?_of_without hfind).1) h)

/-- one name, under which and above which both pools find the same -/
structure SameAbove (s t : KnownType) : Prop where
  name : s.name = t.name
  found : ∀ n, s.Above n → s.pool.find? n = t.pool.find? n

namespace SameAbove

theorem decl (h : s.SameAbove t) : s.decl = t.decl := by
  have hfound := h.found s.name (above_self s)
  have hs : s.pool.find? s.name = some s.decl := s.known
  have ht : t.pool.find? s.name = some t.decl := h.name ▸ t.known
  exact Option.some.inj (hs.symm.trans (hfound.trans ht))

/-! ### Super types -/

theorem superClasses_eq (h : s.SameAbove t) : s.superClasses = t.superClasses := by
  rw [superClasses, superClasses, ← h.name, ← h.decl]
  refine superChain_congr ((upClosed_above s).without _) (SameLookUpsOn.without h.found _) fun n hn => ?_
  exact above_of_mem_parents (List.mem_append_left _ (Option.mem_toList.2 hn))

theorem superInterfaces_eq (h : s.SameAbove t) : s.superInterfaces = t.superInterfaces := by
  rw [superInterfaces, superInterfaces, polls, polls, ← h.superClasses_eq, ← h.name, ← h.decl]
  congr 1
  refine interfacePolls_congr (((upClosed_above s).without _).foldl_without _)
    ((SameLookUpsOn.without h.found _).foldl_without _) fun n hn => ?_
  rcases List.mem_append.1 hn with hown | hinherited
  · exact above_of_mem_parents (List.mem_append_right _ hown)
  · obtain ⟨d, hd, hmem⟩ := List.mem_flatMap.1 hinherited
    exact upClosed_above s d.name d (above_of_mem_superClasses hd) (find?_of_mem_superClasses hd).1 n
      (List.mem_append_right _ hmem)

/-! ### Methods -/

/-- **Types that are the same above reach the same methods.** -/
theorem reachableMethods_eq (h : s.SameAbove t) : s.reachableMethods = t.reachableMethods := by
  have hinheritable : s.inheritable = t.inheritable := by
    rw [inheritable, inheritable, h.superClasses_eq, h.superInterfaces_eq]
  rw [reachableMethods, reachableMethods, declaredMethods, declaredMethods, h.decl, hinheritable]

end SameAbove

/-- what is read off a type of one name is the same in pools that find the same above that name -/
theorem map_type?_congr {β : Type} {f : KnownType → β} {p q : Pool} (hf : ∀ s t : KnownType, s.SameAbove t → f s = f t)
    (h : ∀ m, ReflTransGen p.Parent n m → p.find? m = q.find? m) : (p.type? n).map f = (q.type? n).map f := by
  cases hs : p.type? n with
  | none =>
    have hnone : p.find? n = none := Option.pmap_eq_none_iff.1 hs
    have hq : q.type? n = none := Option.pmap_eq_none_iff.2 ((h n .refl).symm.trans hnone)
    rw [hq]
  | some s =>
    obtain ⟨rfl, hsd⟩ := Pool.type?_eq_some_iff.1 hs
    have hsn : s.name = n := Pool.find?_name hsd
    have hqd : q.find? n = some s.decl := (h n .refl).symm.trans hsd
    have ht : q.type? n = some ⟨q, s.decl, Pool.find?_self hqd⟩ := Pool.type?_eq_some_iff.2 ⟨rfl, hqd⟩
    rw [ht]
    exact congrArg some (hf _ _ ⟨rfl, fun m hm => h m (hsn ▸ hm)⟩)

namespace SameAbove

/-- what is read off the known interfaces -/
theorem map_interfaces_eq {β : Type} {f : KnownType → β} (hf : ∀ i j : KnownType, i.SameAbove j → f i = f j)
    (h : s.SameAbove t) : s.interfaces.map f = t.interfaces.map f := by
  rw [interfaces, interfaces, ← h.decl, List.map_filterMap, List.map_filterMap]
  refine List.filterMap_congr fun n hn => map_type?_congr hf fun m hm => ?_
  exact h.found m ((above_of_mem_parents (List.mem_append_right _ hn)).trans hm)

/-- **Types that are the same above have the same default methods.** -/
theorem defaultMethods_eq (h : s.SameAbove t) : s.defaultMethods.byName = t.defaultMethods.byName := by
  rw [defaultMethods, defaultMethods, Table.byName_ofList, Table.byName_ofList, List.map_map, List.map_map]
  congr 1
  refine map_interfaces_eq (fun i j hij => ?_) h
  simp only [Function.comp_apply, hij.name, hij.reachableMethods_eq]

/-! ### Subtyping -/

theorem parent_iff (h : s.SameAbove t) {a b : String} (ha : s.Above a) : s.pool.Parent a b ↔ t.pool.Parent a b := by
  rw [Pool.parent_iff, Pool.parent_iff, h.found a ha]

theorem path_iff (h : s.SameAbove t) {a b : String} (ha : s.Above a) :
    ReflTransGen s.pool.Parent a b ↔ ReflTransGen t.pool.Parent a b := by
  constructor
  · intro hpath
    induction hpath with
    | refl => exact .refl
    | tail hac hcd ih => exact ih.tail ((h.parent_iff (ha.trans hac)).1 hcd)
  · intro hpath
    induction hpath with
    | refl => exact .refl
    | tail _ hcd ih => exact ih.tail ((h.parent_iff (ha.trans ih)).2 hcd)

/-- **Types that are the same above have the same supertypes**, and so has every name above them. -/
theorem isSubtype_eq (h : s.SameAbove t) {a : String} (ha : s.Above a) (b : String) :
    s.pool.isSubtype a b = t.pool.isSubtype a b := by
  rw [Bool.eq_iff_iff, Pool.isSubtype_iff, Pool.isSubtype_iff, h.path_iff ha]

theorem symm (h : s.SameAbove t) : t.SameAbove s := by
  refine ⟨h.name.symm, fun n hn => (h.found n ?_).symm⟩
  rw [Above, ← h.name] at hn
  exact (h.path_iff (above_self s)).2 hn

/-- the super classes are the same above as well -/
theorem exists_superClass? (h : s.SameAbove t) {a : KnownType} (ha : s.superClass? = some a) :
    ∃ b, t.superClass? = some b ∧ a.SameAbove b := by
  obtain ⟨hname, hpool⟩ := superClass?_eq_some ha
  have habove : s.Above a.name := .single (parent_of_superClass? ha)
  have hfind : t.pool.find? a.name = some a.decl := by
    rw [← h.found a.name habove, ← hpool]
    exact a.known
  refine ⟨⟨t.pool, a.decl, hfind⟩, ?_, rfl, fun n hn => ?_⟩
  · rw [superClass?, ← h.decl, hname]
    exact Pool.type?_eq_some_iff.2 ⟨rfl, hfind⟩
  · rw [Above, hpool] at hn
    rw [hpool]
    exact h.found n (habove.trans hn)

end SameAbove

end KnownType

end CallPlan
