/-
The keys of the settings, with their values.

Six keys in three sections hold booleans, texts and a policy. Each section of the settings has these keys as its
fields, and the document has the sections as its own: what is known of the decoding of sections holds on both levels.

- `Settings.policy?_eq_some_iff`: the ways to write a policy;
- `Settings.Key`: the keys, each with its section, its type and its place in the settings;
- `Settings.bridgeFormat_hasFields` and the like: the formats of the three sections and of the document.
-/
import CallPlan.Proofs.SectionDecoding

namespace CallPlan

namespace Settings

open Toml (Value)

/-! ## Contents of keys -/

def boolean? : Value → Option Bool
  | .boolean b => some b
  | _ => none

def text? : Value → Option String
  | .string s => some s
  | _ => none

/-- a policy by its name, or by its name as the only key of a table, with nothing under it -/
def policy? : Value → Option ConflictPolicy
  | .string name => ConflictPolicy.ofLabel? name
  | .table [(name, .table [])] => ConflictPolicy.ofLabel? name
  | .table [(name, .array [])] => ConflictPolicy.ofLabel? name
  | _ => none

theorem ofLabel?_eq_some_iff {name : String} {policy : ConflictPolicy} :
    ConflictPolicy.ofLabel? name = some policy ↔ name = policy.label := by
  constructor
  · intro h
    have hlabel := List.find?_some h
    exact (eq_of_beq hlabel).symm
  · rintro rfl
    cases policy <;> rfl

/-- the three ways to write a policy -/
theorem policy?_eq_some_iff {v : Value} {policy : ConflictPolicy} : policy? v = some policy ↔
    v = .string policy.label ∨ v = .table [(policy.label, .table [])] ∨ v = .table [(policy.label, .array [])] := by
  constructor
  · intro h
    unfold policy? at h
    split at h
    · exact Or.inl (by rw [ofLabel?_eq_some_iff.1 h])
    · exact Or.inr (Or.inl (by rw [ofLabel?_eq_some_iff.1 h]))
    · exact Or.inr (Or.inr (by rw [ofLabel?_eq_some_iff.1 h]))
    · exact absurd h (by simp)
  · rintro (rfl | rfl | rfl) <;> exact ofLabel?_eq_some_iff.2 rfl

theorem decodeBool_eq_ok_iff {v : Value} {b : Bool} : decodeBool v = .ok b ↔ boolean? v = some b := by
  cases v <;> simp [decodeBool, boolean?]

theorem decodeString_eq_ok_iff {v : Value} {s : String} : decodeString v = .ok s ↔ text? v = some s := by
  cases v <;> simp [decodeString, text?]

theorem decodePolicyName_eq_ok_iff {name : String} {policy : ConflictPolicy} :
    decodePolicyName name = .ok policy ↔ ConflictPolicy.ofLabel? name = some policy := by
  unfold decodePolicyName
  cases ConflictPolicy.ofLabel? name <;> simp

theorem decodePolicy_eq_ok_iff {v : Value} {policy : ConflictPolicy} :
    decodePolicy v = .ok policy ↔ policy? v = some policy := by
  unfold policy?
  split
  · exact decodePolicyName_eq_ok_iff
  · simp [decodePolicy, bind_eq_ok, decodePolicyName_eq_ok_iff, pure, Except.pure]
  · simp [decodePolicy, bind_eq_ok, decodePolicyName_eq_ok_iff, pure, Except.pure]
  · rename_i hname htable harray
    unfold decodePolicy
    split
    · exact absurd rfl (hname _)
    · rename_i name payload
      simp only [bind_eq_ok]
      split
      · exact absurd rfl (htable _)
      · exact absurd rfl (harray _)
      · simp
    · simp

/-! ## The keys of the settings -/

/-- the keys of all sections, in the order of their declaration -/
inductive Key where
  | resolve
  | conflictPolicy
  | suffix
  | level
  | json
  | stderr
deriving DecidableEq, Repr

namespace Key

def all : List Key := [resolve, conflictPolicy, suffix, level, json, stderr]

/-- the section that the key belongs to -/
def title : Key → String
  | resolve | conflictPolicy => "bridges"
  | suffix => "auxiliary"
  | level | json | stderr => "logging"

def field : Key → Field Settings
  | resolve => ⟨"resolve", Bool, boolean?, (·.bridges.resolve)⟩
  | conflictPolicy => ⟨"conflict_policy", ConflictPolicy, policy?, (·.bridges.conflictPolicy)⟩
  | suffix => ⟨"suffix", String, text?, (·.auxiliary.suffix)⟩
  | level => ⟨"level", String, text?, (·.logging.level)⟩
  | json => ⟨"json", Bool, boolean?, (·.logging.json)⟩
  | stderr => ⟨"stderr", Bool, boolean?, (·.logging.stderr)⟩

theorem mem_all (key : Key) : key ∈ all := by
  cases key <;> decide

/-- the keys of a section -/
def under (title : String) : List Key := all.filter (·.title == title)

theorem mem_under {key : Key} {title : String} : key ∈ under title ↔ key.title = title := by
  simp [under, mem_all]

end Key

/-- settings are told apart by their keys -/
theorem ext_keys {s s' : Settings} (h : ∀ key : Key, key.field.get s = key.field.get s') : s = s' := by
  obtain ⟨⟨resolve, policy⟩, ⟨suffix⟩, ⟨level, json, stderr⟩⟩ := s
  obtain ⟨⟨resolve', policy'⟩, ⟨suffix'⟩, ⟨level', json', stderr'⟩⟩ := s'
  obtain rfl : resolve = resolve' := h .resolve
  obtain rfl : policy = policy' := h .conflictPolicy
  obtain rfl : suffix = suffix' := h .suffix
  obtain rfl : level = level' := h .level
  obtain rfl : json = json' := h .json
  obtain rfl : stderr = stderr' := h .stderr
  rfl

/-! ## Sections and documents -/

/-- the names of the keys of a section, in order -/
def names (title : String) : List String := (Key.under title).map (·.field.name)

def titles : List String := ["bridges", "auxiliary", "logging"]

/-- the keys of a section as fields of its own type; `wrap` makes settings of a section -/
def sectionFields {α : Type} (title : String) (wrap : α → Settings) : List (Field α) :=
  (Key.under title).map fun key => key.field.comap wrap

theorem bridgeFormat_hasFields :
    bridgeFormat.HasFields (sectionFields "bridges" fun b => { bridges := b }) where
  names := by decide
  distinct := by decide
  noDateTime := by decide
  writes := by
    refine List.forall_mem_cons.2 ⟨?resolve, List.forall_mem_singleton.2 ?policy⟩
    all_goals
      intro set hset
      obtain rfl := Option.some.inj hset
    case resolve =>
      refine ⟨decodeBool, fun x b => { b with resolve := x }, fun _ _ => rfl, decodeBool_eq_ok_iff, fun _ _ => rfl, ?_⟩
      exact List.forall_mem_cons.2 ⟨fun h => absurd rfl h, List.forall_mem_singleton.2 fun _ _ _ => rfl⟩
    case policy =>
      refine ⟨decodePolicy, fun x b => { b with conflictPolicy := x }, fun _ _ => rfl, decodePolicy_eq_ok_iff,
        fun _ _ => rfl, ?_⟩
      exact List.forall_mem_cons.2 ⟨fun _ _ _ => rfl, List.forall_mem_singleton.2 fun h => absurd rfl h⟩
  ext := by
    rintro ⟨resolve, policy⟩ ⟨resolve', policy'⟩ h
    obtain rfl : resolve = resolve' := h (Key.resolve.field.comap _) (List.mem_map_of_mem (by decide))
    obtain rfl : policy = policy' := h (Key.conflictPolicy.field.comap _) (List.mem_map_of_mem (by decide))
    rfl

theorem auxiliaryFormat_hasFields :
    auxiliaryFormat.HasFields (sectionFields "auxiliary" fun a => { auxiliary := a }) where
  names := by decide
  distinct := by decide
  noDateTime := by decide
  writes := by
    refine List.forall_mem_singleton.2 fun set hset => ?_
    obtain rfl := Option.some.inj hset
    refine ⟨decodeString, fun x a => { a with suffix := x }, fun _ _ => rfl, decodeString_eq_ok_iff, fun _ _ => rfl, ?_⟩
    exact List.forall_mem_singleton.2 fun h => absurd rfl h
  ext := by
    rintro ⟨suffix⟩ ⟨suffix'⟩ h
    obtain rfl : suffix = suffix' := h (Key.suffix.field.comap _) (List.mem_map_of_mem (by decide))
    rfl

theorem logFormat_hasFields : logFormat.HasFields (sectionFields "logging" fun l => { logging := l }) where
  names := by decide
  distinct := by decide
  noDateTime := by decide
  writes := by
    refine List.forall_mem_cons.2 ⟨?level, List.forall_mem_cons.2 ⟨?json, List.forall_mem_singleton.2 ?stderr⟩⟩
    all_goals
      intro set hset
      obtain rfl := Option.some.inj hset
    case level =>
      refine ⟨decodeString, fun x l => { l with level := x }, fun _ _ => rfl, decodeString_eq_ok_iff,
        fun _ _ => rfl, ?_⟩
      exact List.forall_mem_cons.2 ⟨fun h => absurd rfl h,
        List.forall_mem_cons.2 ⟨fun _ _ _ => rfl, List.forall_mem_singleton.2 fun _ _ _ => rfl⟩⟩
    case json =>
      refine ⟨decodeBool, fun x l => { l with json := x }, fun _ _ => rfl, decodeBool_eq_ok_iff, fun _ _ => rfl, ?_⟩
      exact List.forall_mem_cons.2 ⟨fun _ _ _ => rfl,
        List.forall_mem_cons.2 ⟨fun h => absurd rfl h, List.forall_mem_singleton.2 fun _ _ _ => rfl⟩⟩
    case stderr =>
      refine ⟨decodeBool, fun x l => { l with stderr := x }, fun _ _ => rfl, decodeBool_eq_ok_iff, fun _ _ => rfl, ?_⟩
      exact List.forall_mem_cons.2 ⟨fun _ _ _ => rfl,
        List.forall_mem_cons.2 ⟨fun _ _ _ => rfl, List.forall_mem_singleton.2 fun h => absurd rfl h⟩⟩
  ext := by
    rintro ⟨level, json, stderr⟩ ⟨level', json', stderr'⟩ h
    obtain rfl : level = level' := h (Key.level.field.comap _) (List.mem_map_of_mem (by decide))
    obtain rfl : json = json' := h (Key.json.field.comap _) (List.mem_map_of_mem (by decide))
    obtain rfl : stderr = stderr' := h (Key.stderr.field.comap _) (List.mem_map_of_mem (by decide))
    rfl

/-- a section as a field of the document -/
def sectionField {α : Type} (title : String) (format : SectionFormat α) (start : α) (get : Settings → α) :
    Field Settings where
  name := title
  Content := α
  read? v := (decodeSection format start v).toOption
  get := get

theorem toOption_decodeSection {α : Type} {format : SectionFormat α} {start s : α} {v : Value} :
    decodeSection format start v = .ok s ↔ (decodeSection format start v).toOption = some s := by
  cases decodeSection format start v <;> simp [Except.toOption]

def documentFields : List (Field Settings) := [
  sectionField "bridges" bridgeFormat {} (·.bridges),
  sectionField "auxiliary" auxiliaryFormat {} (·.auxiliary),
  sectionField "logging" logFormat {} (·.logging)]

theorem documentFormat_hasFields : documentFormat.HasFields documentFields where
  names := by decide
  distinct := by decide
  noDateTime := by decide
  writes := by
    refine List.forall_mem_cons.2 ⟨?bridges, List.forall_mem_cons.2 ⟨?auxiliary, List.forall_mem_singleton.2 ?logging⟩⟩
    all_goals
      intro set hset
      obtain rfl := Option.some.inj hset
    case bridges =>
      refine ⟨decodeSection bridgeFormat {}, fun x s => { s with bridges := x }, fun _ _ => rfl,
        toOption_decodeSection, fun _ _ => rfl, ?_⟩
      exact List.forall_mem_cons.2 ⟨fun h => absurd rfl h,
        List.forall_mem_cons.2 ⟨fun _ _ _ => rfl, List.forall_mem_singleton.2 fun _ _ _ => rfl⟩⟩
    case auxiliary =>
      refine ⟨decodeSection auxiliaryFormat {}, fun x s => { s with auxiliary := x }, fun _ _ => rfl,
        toOption_decodeSection, fun _ _ => rfl, ?_⟩
      exact List.forall_mem_cons.2 ⟨fun _ _ _ => rfl,
        List.forall_mem_cons.2 ⟨fun h => absurd rfl h, List.forall_mem_singleton.2 fun _ _ _ => rfl⟩⟩
    case logging =>
      refine ⟨decodeSection logFormat {}, fun x s => { s with logging := x }, fun _ _ => rfl,
        toOption_decodeSection, fun _ _ => rfl, ?_⟩
      exact List.forall_mem_cons.2 ⟨fun _ _ _ => rfl,
        List.forall_mem_cons.2 ⟨fun _ _ _ => rfl, List.forall_mem_singleton.2 fun h => absurd rfl h⟩⟩
  ext := by
    rintro ⟨bridges, auxiliary, logging⟩ ⟨bridges', auxiliary', logging'⟩ h
    obtain ⟨hbridges, h⟩ := List.forall_mem_cons.1 h
    obtain ⟨hauxiliary, h⟩ := List.forall_mem_cons.1 h
    have hlogging := List.forall_mem_singleton.1 h
    obtain rfl : bridges = bridges' := hbridges
    obtain rfl : auxiliary = auxiliary' := hauxiliary
    obtain rfl : logging = logging' := hlogging
    rfl

end Settings

end CallPlan
