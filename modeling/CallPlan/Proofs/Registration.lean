/-
The registry of auxiliary types over whole runs of requests.

A request either finds an equal value and answers with its recorded type, or asks for a new type under the next name.
What cannot be made leaves the registry as it was, so the numbers of the registered types have no gaps: the next name
is counted by the size of the registry, and only what is made grows it, at its end.

- `Registry.Inv`, `step_inv`, `run_inv`: the registered types are named by their places, and no name is known to the
  pool of the instrumented type;
- `entries_prefix_after`: entries stay where they are;
- `registration_laws`: what holds at every moment of a run.
-/
import CallPlan.Samples.Auxiliaries
import CallPlan.Samples.Pools
import CallPlan.Proofs.Layers
import CallPlan.Proofs.Names
import CallPlan.Proofs.OwnMethods
import Mathlib.Data.List.Induction

namespace CallPlan

/-! ## Values without repetition -/

/-- a value that comes last is left out iff it equals a kept one -/
theorem eraseDups_concat {α : Type} [BEq α] (xs : List α) (a : α) :
    (xs ++ [a]).eraseDups = if xs.eraseDups.any (a == ·) then xs.eraseDups else xs.eraseDups ++ [a] := by
  match xs with
  | [] => rfl
  | x :: xs =>
    rw [List.cons_append, List.eraseDups_cons, List.eraseDups_cons, List.filter_append, List.any_cons]
    cases hax : a == x with
    | true => simp [hax]
    | false =>
      -- the last value is kept next to the first, and the values that equal the first are gone from the rest
      have hlast : [a].filter (fun b => !(b == x)) = [a] := by simp [hax]
      rw [hlast, eraseDups_concat, Bool.false_or]
      split
      · rfl
      · rfl
termination_by xs.length
decreasing_by exact Nat.lt_succ_of_le (List.length_filter_le _ _)

/-! ## Types made from drafts -/

variable {draft : TypeDraft} {pool : Pool} {made : AuxiliaryType}

/-- a draft becomes a type of its own name, which the pool below does not know -/
theorem AuxiliaryType.ofDraft_eq_ok (h : AuxiliaryType.ofDraft draft pool = .ok made) :
    made.type.name = draft.name ∧ pool.contains draft.name = false := by
  obtain ⟨t, ht, hmade⟩ := bind_eq_ok.1 h
  obtain rfl : ⟨draft, t⟩ = made := Except.ok.inj hmade
  have hname : t.name = draft.name := congrArg TypeDecl.name (TypeDraft.typeAbove_eq_ok ht).1
  obtain ⟨builder, hadd, -⟩ := bind_eq_ok.1 ht
  have hnew : (PoolBuilder.above pool).contains draft.name = false := (PoolBuilder.add_eq_ok_iff.1 hadd).2.1
  exact ⟨hname, by simpa [PoolBuilder.contains, PoolBuilder.above] using hnew⟩

/-- whatever is made for the instrumented type is made from a draft of the given name, above the pool of that type -/
def MakesDrafts (α : Type) [Auxiliary α] (instrumented : KnownType) : Prop :=
  ∀ (aux : α) name made, Auxiliary.make aux name instrumented = .ok made →
    ∃ draft : TypeDraft, draft.name = name ∧ AuxiliaryType.ofDraft draft instrumented.pool = .ok made

namespace Registry

variable {α : Type} [Auxiliary α] {instrumented : KnownType} {suffix : String} {r : Registry α} {aux : α}

/-! ## Names -/

theorem auxiliaryName_inj {name : String} {m n : Nat} (h : auxiliaryName name suffix m = auxiliaryName name suffix n) :
    m = n := InternalName.numbered_inj h

/-- the names of the first `n` auxiliary types -/
def firstNames (name suffix : String) (n : Nat) : List String :=
  (List.range n).map fun i => auxiliaryName name suffix (i + 1)

theorem firstNames_succ (name suffix : String) (n : Nat) :
    firstNames name suffix (n + 1) = firstNames name suffix n ++ [auxiliaryName name suffix (n + 1)] := by
  rw [firstNames, List.range_succ, List.map_append]
  rfl

theorem nodup_firstNames (name suffix : String) (n : Nat) : (firstNames name suffix n).Nodup :=
  List.nodup_range.map fun _ _ h => Nat.succ.inj (auxiliaryName_inj h)

/-! ## Requests -/

/-- one request: what it answers, and the registry afterwards, as it was before if there is no type -/
def request (r : Registry α) (aux : α) : Except Error KnownType × Registry α :=
  match r.register aux with
  | .ok (type, next) => (.ok type, next)
  | .error fault => (.error fault, r)

/-- the registry after these requests -/
def after (r : Registry α) (requests : List α) : Registry α := requests.foldl (fun r aux => (r.request aux).2) r

/-- the requested values that were answered with a type, in order -/
def granted (r : Registry α) : List α → List α
  | [] => []
  | aux :: rest => (if (r.request aux).1.isOk then [aux] else []) ++ granted (r.request aux).2 rest

theorem request_registered (h : r.registered.find? aux = some made) : r.request aux = (.ok made.type, r) := by
  unfold request register
  simp only [h]

theorem request_failed {fault : Error} (hnew : r.registered.find? aux = none)
    (h : Auxiliary.make aux r.nextName r.instrumented = .error fault) : r.request aux = (.error fault, r) := by
  unfold request register
  simp only [hnew, h]
  rfl

theorem request_made (hnew : r.registered.find? aux = none)
    (h : Auxiliary.make aux r.nextName r.instrumented = .ok made) :
    r.request aux = (.ok made.type, { r with registered := r.registered.insert aux made }) := by
  unfold request register
  simp only [hnew, h]
  rfl

/-- **What one request can do**: answer with a recorded type, fail, or make a type and put it at the end. -/
theorem request_cases (r : Registry α) (aux : α) :
    (∃ made, r.registered.find? aux = some made ∧ r.request aux = (.ok made.type, r)) ∨
    (∃ fault, r.registered.find? aux = none ∧ r.request aux = (.error fault, r)) ∨
    (∃ made next, r.registered.find? aux = none ∧ Auxiliary.make aux r.nextName r.instrumented = .ok made ∧
      r.request aux = (.ok made.type, next) ∧ next.instrumented = r.instrumented ∧ next.suffix = r.suffix ∧
      next.registered.entries = r.registered.entries ++ [(aux, made)]) := by
  cases hfind : r.registered.find? aux with
  | some made => exact Or.inl ⟨made, rfl, request_registered hfind⟩
  | none =>
    cases hmake : Auxiliary.make aux r.nextName r.instrumented with
    | error fault => exact Or.inr (Or.inl ⟨fault, rfl, request_failed hfind hmake⟩)
    | ok made =>
      have hentries := Table.entries_insert_of_new hfind made
      exact Or.inr (Or.inr ⟨made, _, rfl, rfl, request_made hfind hmake, rfl, rfl, hentries⟩)

theorem after_concat (r : Registry α) (requests : List α) (aux : α) :
    r.after (requests ++ [aux]) = ((r.after requests).request aux).2 := List.foldl_concat _ _ _ _

theorem granted_concat (r : Registry α) (requests : List α) (aux : α) : r.granted (requests ++ [aux]) =
    r.granted requests ++ if ((r.after requests).request aux).1.isOk then [aux] else [] := by
  induction requests generalizing r with
  | nil => exact List.append_nil _
  | cons first rest ih =>
    rw [List.cons_append, granted, granted, ih, List.append_assoc]
    rfl

/-! ## Entries stay -/

theorem entries_prefix_request (r : Registry α) (aux : α) :
    r.registered.entries <+: (r.request aux).2.registered.entries := by
  rcases r.request_cases aux with ⟨made, -, heq⟩ | ⟨fault, -, heq⟩ | ⟨made, next, -, -, heq, -, -, hentries⟩
  · exact ⟨[], by rw [heq, List.append_nil]⟩
  · exact ⟨[], by rw [heq, List.append_nil]⟩
  · rw [heq]
    show r.registered.entries <+: next.registered.entries
    rw [hentries]
    exact List.prefix_append _ _

theorem entries_prefix_after (r : Registry α) (later : List α) :
    r.registered.entries <+: (r.after later).registered.entries := by
  induction later generalizing r with
  | nil => exact List.prefix_refl _
  | cons aux later ih => exact (entries_prefix_request r aux).trans (ih _)

/-! ## The invariant -/

/-- a registry for the instrumented type whose types are named by their places, under names that are new to its pool -/
structure Inv (r : Registry α) (instrumented : KnownType) (suffix : String) : Prop where
  subject : r.instrumented = instrumented
  nameSuffix : r.suffix = suffix
  names : r.types.map (·.type.name) = firstNames instrumented.name suffix r.size
  unknown : ∀ made ∈ r.types, instrumented.pool.contains made.type.name = false

theorem step_inv (hmake : MakesDrafts α instrumented) (h : r.Inv instrumented suffix) (aux : α) :
    (r.request aux).2.Inv instrumented suffix := by
  rcases r.request_cases aux with
    ⟨made, -, heq⟩ | ⟨fault, -, heq⟩ | ⟨made, next, -, hmade, heq, hinst, hsuffix, hentries⟩
  · rwa [heq]
  · rwa [heq]
  · rw [heq]
    have htypes : next.types = r.types ++ [made] := by simp [types, Table.values, hentries]
    have hsize : next.size = r.size + 1 := by simp [size, Table.size, hentries]
    rw [h.subject] at hmade
    obtain ⟨draft, hdraft, hof⟩ := hmake aux _ made hmade
    obtain ⟨hname, hnew⟩ := AuxiliaryType.ofDraft_eq_ok hof
    have hnext : r.nextName = auxiliaryName instrumented.name suffix (r.size + 1) := by
      rw [nextName, h.subject, h.nameSuffix]
    refine ⟨hinst.trans h.subject, hsuffix.trans h.nameSuffix, ?_, ?_⟩
    · rw [htypes, hsize, List.map_append, h.names, firstNames_succ, List.map_singleton, hname, hdraft, hnext]
    · intro other hother
      rw [htypes, List.mem_append, List.mem_singleton] at hother
      rcases hother with hother | rfl
      · exact h.unknown other hother
      · rwa [hname]

theorem empty_inv (instrumented : KnownType) (suffix : String) :
    (empty instrumented suffix : Registry α).Inv instrumented suffix :=
  ⟨rfl, rfl, rfl, fun _ h => absurd h List.not_mem_nil⟩

theorem run_inv (hmake : MakesDrafts α instrumented) (h : r.Inv instrumented suffix) (requests : List α) :
    (r.after requests).Inv instrumented suffix := by
  induction requests generalizing r with
  | nil => exact h
  | cons aux requests ih => exact ih (step_inv hmake h aux)

/-! ## The order of the values -/

/-- a granted value comes last, unless an equal one is registered -/
theorem keys_request (r : Registry α) (aux : α) [PartialEquivBEq α] : (r.request aux).2.registered.keys =
    if (r.request aux).1.isOk = true ∧ r.registered.keys.any (aux == ·) = false then r.registered.keys ++ [aux]
    else r.registered.keys := by
  rcases r.request_cases aux with ⟨made, hfind, heq⟩ | ⟨fault, hnew, heq⟩ | ⟨made, next, hnew, -, heq, -, -, hentries⟩
  · have hany : r.registered.keys.any (aux == ·) = true := by
      by_contra hnone
      have hnone : ∀ a ∈ r.registered.keys, (a == aux) = false := by
        intro a ha
        simpa [BEq.comm] using List.any_eq_false.1 (Bool.eq_false_iff.2 hnone) a ha
      exact absurd (((Table.find?_eq_none_iff _ _).2 hnone).symm.trans hfind) (by simp)
    simp [heq, hany]
  · simp [heq, Except.isOk, Except.toBool]
  · have hany : r.registered.keys.any (aux == ·) = false := by
      rw [List.any_eq_false]
      intro a ha
      simpa [BEq.comm] using (Table.find?_eq_none_iff _ _).1 hnew a ha
    rw [heq, if_pos ⟨rfl, hany⟩]
    simp [Table.keys, hentries]

/-- **The registered values are the granted ones, each where it was granted first.** -/
theorem keys_after [PartialEquivBEq α] (instrumented : KnownType) (suffix : String) (requests : List α) :
    ((empty instrumented suffix).after requests).registered.keys =
      ((empty instrumented suffix).granted requests).eraseDups := by
  induction requests using List.reverseRecOn with
  | nil => rfl
  | append_singleton requests aux ih =>
    rw [after_concat, granted_concat, keys_request, ih]
    cases (((empty instrumented suffix).after requests).request aux).1.isOk with
    | false => simp
    | true =>
      rw [if_pos rfl, eraseDups_concat]
      cases ((empty instrumented suffix).granted requests).eraseDups.any (aux == ·) with
      | false => simp
      | true => simp

/-! ## Laws of registration -/

/-- what holds of a registry for the instrumented type, given the values that were granted so far -/
structure Laws (r : Registry α) (instrumented : KnownType) (suffix : String) (granted : List α) : Prop where
  unequal : r.registered.keys.Pairwise fun a b => (a == b) = false
  inOrder : r.registered.keys = granted.eraseDups
  /-- the `i`-th type has the `i`-th name -/
  named : r.types.map (·.type.name) = firstNames instrumented.name suffix r.types.length
  namesDistinct : (r.types.map (·.type.name)).Nodup
  namesUnknown : ∀ made ∈ r.types, instrumented.pool.contains made.type.name = false
  /-- a value that equals a registered one gets its type, and nothing changes -/
  again : ∀ e ∈ r.registered.entries, ∀ aux, (e.1 == aux) = true → r.request aux = (.ok e.2.type, r)
  /-- a new value that cannot be made gets the reason, and nothing changes -/
  failed : ∀ aux fault, (∀ a ∈ r.registered.keys, (a == aux) = false) →
    Auxiliary.make aux (auxiliaryName instrumented.name suffix (r.types.length + 1)) instrumented = .error fault →
    r.request aux = (.error fault, r)
  /-- a new value that can be made gets its type, which goes to the end -/
  new : ∀ aux made, (∀ a ∈ r.registered.keys, (a == aux) = false) →
    Auxiliary.make aux (auxiliaryName instrumented.name suffix (r.types.length + 1)) instrumented = .ok made →
    ∃ next, r.request aux = (.ok made.type, next) ∧ next.registered.entries = r.registered.entries ++ [(aux, made)]
  /-- later requests change no entry -/
  kept : ∀ later, r.registered.entries <+: (r.after later).registered.entries

/-- **Laws of registration.** Where equality of values is symmetric and transitive and types are made from drafts of
the given name, these laws hold after every run of requests from an empty registry. -/
theorem registration_laws [PartialEquivBEq α] (hmake : MakesDrafts α instrumented) (suffix : String)
    (requests : List α) : ((empty instrumented suffix).after requests).Laws instrumented suffix
      ((empty instrumented suffix).granted requests) := by
  have hinv := run_inv hmake (empty_inv instrumented suffix) requests
  have hkeys := keys_after instrumented suffix requests
  generalize (empty instrumented suffix).after requests = r at hinv hkeys
  have hlength : r.types.length = r.size := by simp [types, Table.values, size, Table.size]
  have hnext : auxiliaryName instrumented.name suffix (r.types.length + 1) = r.nextName := by
    rw [nextName, hinv.subject, hinv.nameSuffix, hlength]
  refine ⟨List.pairwise_map.2 r.registered.distinct, hkeys, ?_, ?_, hinv.unknown, ?_, ?_, ?_, r.entries_prefix_after⟩
  · rw [hinv.names, hlength]
  · rw [hinv.names]
    exact nodup_firstNames _ _ _
  · intro e he aux haux
    exact request_registered (Table.find?_of_mem_of_beq _ he haux)
  · intro aux fault hnew hfault
    rw [hnext, ← hinv.subject] at hfault
    exact request_failed ((Table.find?_eq_none_iff _ _).2 hnew) hfault
  · intro aux made hnew hmade
    have hnew := (Table.find?_eq_none_iff _ _).2 hnew
    rw [hnext, ← hinv.subject] at hmade
    exact ⟨_, request_made hnew hmade, Table.entries_insert_of_new hnew made⟩

end Registry

/-! ### Samples -/

namespace Samples

open Registry

theorem name_of_extending {name : String} {superType : KnownType} {d : TypeDraft}
    (h : TypeDraft.extending name superType = .ok d) : d.name = name := by
  obtain ⟨_, _, h⟩ := bind_eq_ok.1 h
  obtain rfl := Except.ok.inj h
  rfl

theorem SampleAuxiliary.name_of_draft {aux : SampleAuxiliary} {name : String} {pool : Pool} {d : TypeDraft}
    (h : aux.draft name pool = .ok d) : d.name = name := by
  cases aux with
  | tagged tag =>
    obtain ⟨object, -, h⟩ := bind_eq_ok.1 h
    obtain ⟨start, hstart, h⟩ := bind_eq_ok.1 h
    obtain rfl := Except.ok.inj h
    show start.name = name
    exact name_of_extending hstart
  | missingSuper =>
    obtain ⟨superType, -, h⟩ := bind_eq_ok.1 h
    exact name_of_extending h
  | declaring superName methods =>
    obtain ⟨superType, -, h⟩ := bind_eq_ok.1 h
    obtain ⟨start, hstart, h⟩ := bind_eq_ok.1 h
    refine (TypeDraft.extends_of_foldlM (fun {d m d'} hm => ?_) h).name.trans (name_of_extending hstart)
    obtain ⟨descriptor, -, hm⟩ := bind_eq_ok.1 hm
    exact TypeDraft.extends_of_addMethod hm

theorem SampleAuxiliary.makesDrafts (t : KnownType) : MakesDrafts SampleAuxiliary t := by
  intro aux name made h
  obtain ⟨draft, hdraft, hmade⟩ := bind_eq_ok.1 h
  exact ⟨draft, name_of_draft hdraft, hmade⟩

/-- two values, a value that cannot be made between them, the first one again, and a third -/
def auxiliaryRequests : List SampleAuxiliary :=
  [.tagged "b", .missingSuper, .tagged "a", .tagged "b", .declaring PlatformName.number []]

/-- the registry of a generated subclass after these requests has three types, numbered without a gap -/
theorem sample_registration : ∃ t, (covariant >>= fun p => generatedSubclass p childName) = .ok t ∧
    MakesDrafts SampleAuxiliary t ∧
    ((empty t defaultSuffix).after auxiliaryRequests).Laws t defaultSuffix
      ((empty t defaultSuffix).granted auxiliaryRequests) ∧
    (empty t defaultSuffix).granted auxiliaryRequests =
      [.tagged "b", .tagged "a", .tagged "b", .declaring PlatformName.number []] ∧
    ((empty t defaultSuffix).after auxiliaryRequests).types.map (·.type.name) =
      ["fixture/Gen$auxiliary$1", "fixture/Gen$auxiliary$2", "fixture/Gen$auxiliary$3"] := by
  obtain ⟨t, ht, hrun⟩ := exists_ok_of_any (x := covariant >>= fun p => generatedSubclass p childName)
    (f := fun t => decide ((empty t defaultSuffix).granted auxiliaryRequests =
        [.tagged "b", .tagged "a", .tagged "b", .declaring PlatformName.number []]) &&
      decide (((empty t defaultSuffix).after auxiliaryRequests).types.map (·.type.name) =
        ["fixture/Gen$auxiliary$1", "fixture/Gen$auxiliary$2", "fixture/Gen$auxiliary$3"])) (by decide +kernel)
  rw [Bool.and_eq_true, decide_eq_true_eq, decide_eq_true_eq] at hrun
  have hmakes := SampleAuxiliary.makesDrafts t
  exact ⟨t, ht, hmakes, registration_laws hmakes defaultSuffix auxiliaryRequests, hrun⟩

end Samples

end CallPlan
