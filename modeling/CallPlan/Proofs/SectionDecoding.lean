/-
Decoding of a section with distinct keys.

Decoding walks the entries of a section in the order they were written and lets each change one key. Where every key
reads a value and writes it under a field of its own, a change leaves all other fields as they are; so under distinct
keys the order leaves no trace, and each field ends with what was given for it, or with what it held before. An array
is decoded as the table that pairs the keys of the section, in order, with its items.

- `Settings.Field`, `Settings.SectionFormat.HasFields`: what a section consists of, apart from how it is decoded;
- `Settings.decodeEntries_eq_ok_iff`: the decoding of distinct keys, by induction on the entries;
- `Settings.decodeItems_eq`: arrays as tables;
- `Settings.decodeSection_eq_ok_iff`: a section in either form.
-/
import CallPlan.Settings
import CallPlan.Proofs.BridgeIndex
import CallPlan.Proofs.DocumentKeys

namespace CallPlan

namespace Settings

open Toml (Value DistinctKeys)

/-! ## Fields of a section -/

/-- a key of a section of type `α`: how its values are read, and what the section holds under it -/
structure Field (α : Type) where
  name : String
  Content : Type
  read? : Value → Option Content
  get : α → Content

namespace Field

variable {α β : Type}

/-- the field of what `part` makes of a section, as a field of the section itself -/
def comap (f : Field β) (part : α → β) : Field α where
  name := f.name
  Content := f.Content
  read? := f.read?
  get s := f.get (part s)

/-- `s` holds under the field what is given for it, or what `start` holds where nothing is given -/
def Overlays (f : Field α) (given : Option Value) (start s : α) : Prop :=
  match given with
  | none => f.get s = f.get start
  | some v => f.read? v = some (f.get s)

end Field

/-- a key that reads a value and then writes it under its own field, so that the other fields keep what they hold -/
structure Writes {α : Type} (fields : List (Field α)) (f : Field α) (set : Value → α → Decoded α) where
  decode : Value → Decoded f.Content
  write : f.Content → α → α
  set_eq : ∀ v start, set v start = return write (← decode v) start
  decode_eq_ok_iff : ∀ {v x}, decode v = .ok x ↔ f.read? v = some x
  get_write : ∀ x start, f.get (write x start) = x
  keeps : ∀ g ∈ fields, g.name ≠ f.name → ∀ x start, g.get (write x start) = g.get start

theorem Writes.set_eq_ok_iff {α : Type} {fields : List (Field α)} {f : Field α} {set : Value → α → Decoded α}
    (h : Writes fields f set) {v : Value} {start s : α} :
    set v start = .ok s ↔ ∃ x, f.read? v = some x ∧ h.write x start = s := by
  rw [h.set_eq, bind_eq_ok]
  simp only [h.decode_eq_ok_iff, pure, Except.pure, Except.ok.injEq]

/-- the fields say all there is to say about a section: which keys it has, what each of them writes, and that nothing
else is held in it -/
structure SectionFormat.HasFields {α : Type} (format : SectionFormat α) (fields : List (Field α)) : Prop where
  names : format.keys.map (·.1) = fields.map (·.name)
  distinct : (fields.map (·.name)).Nodup
  noDateTime : dateTimeKey ∉ fields.map (·.name)
  writes : ∀ f ∈ fields, ∀ set, format.keys.lookup f.name = some set → Nonempty (Writes fields f set)
  ext : ∀ s s' : α, (∀ f ∈ fields, f.get s = f.get s') → s = s'

section Sections

variable {α : Type} {format : SectionFormat α} {fields : List (Field α)} {start s : α} {es : List (String × Value)}

theorem SectionFormat.HasFields.exists_field (h : format.HasFields fields) {key : String}
    {set : Value → α → Decoded α} (hlookup : format.keys.lookup key = some set) : ∃ f ∈ fields, f.name = key := by
  have hmem : key ∈ format.keys.map (·.1) := List.mem_map_of_mem (Toml.lookup_mem hlookup)
  rw [h.names] at hmem
  exact List.mem_map.1 hmem

theorem SectionFormat.HasFields.exists_set (h : format.HasFields fields) {key : String}
    (hkey : key ∈ fields.map (·.name)) : ∃ set, format.keys.lookup key = some set := by
  rw [← h.names] at hkey
  exact Option.ne_none_iff_exists'.1 fun hnone => Toml.lookup_eq_none.1 hnone hkey

theorem decodeEntries_cons {key : String} {v : Value} {set : Value → α → Decoded α}
    (hset : format.keys.lookup key = some set) : decodeEntries format start ((key, v) :: es) =
      set v start >>= fun next => decodeEntries format next es := by
  rw [decodeEntries, List.foldlM_cons]
  dsimp only
  rw [hset]
  rfl

theorem decodeEntries_cons_eq_ok_iff {key : String} {v : Value} :
    decodeEntries format start ((key, v) :: es) = .ok s ↔
      ∃ set next, format.keys.lookup key = some set ∧ set v start = .ok next ∧
        decodeEntries format next es = .ok s := by
  cases hset : format.keys.lookup key with
  | none =>
    rw [decodeEntries, List.foldlM_cons]
    dsimp only
    rw [hset]
    simp [bind, Except.bind]
  | some set => simp [decodeEntries_cons hset, bind_eq_ok]

/-- **Decoding distinct keys** succeeds iff all of them are keys of the section with values of their types; then each
key of the section holds what is given for it, or what it held before. -/
theorem decodeEntries_eq_ok_iff (h : format.HasFields fields) (hkeys : DistinctKeys es) :
    decodeEntries format start es = .ok s ↔
      (∀ e ∈ es, e.1 ∈ fields.map (·.name)) ∧ ∀ f ∈ fields, f.Overlays (es.lookup f.name) start s := by
  induction es generalizing start with
  | nil =>
    constructor
    · intro hok
      obtain rfl := Except.ok.inj hok
      exact ⟨by simp, fun f _ => rfl⟩
    · rintro ⟨-, hsame⟩
      exact congrArg Except.ok (h.ext _ _ hsame).symm
  | cons e es ih =>
    obtain ⟨key, v⟩ := e
    obtain ⟨hnew, hback⟩ := List.nodup_cons.1 hkeys
    have hbehind : es.lookup key = none := Toml.lookup_eq_none.2 hnew
    -- under the key in front the rest gives nothing; under the others it gives what the whole gives
    have hothers {k : String} (hne : k ≠ key) : ((key, v) :: es).lookup k = es.lookup k := by
      rw [List.lookup_cons, beq_false_of_ne hne]
    rw [decodeEntries_cons_eq_ok_iff]
    constructor
    · rintro ⟨set, next, hset, hnext, hrest⟩
      obtain ⟨f, hf, rfl⟩ := h.exists_field hset
      obtain ⟨hwrites⟩ := h.writes f hf set hset
      obtain ⟨x, hread, rfl⟩ := hwrites.set_eq_ok_iff.1 hnext
      obtain ⟨hknown, hrest⟩ := (ih hback).1 hrest
      refine ⟨List.forall_mem_cons.2 ⟨List.mem_map_of_mem hf, hknown⟩, fun g hg => ?_⟩
      by_cases hname : g.name = f.name
      · obtain rfl := List.inj_on_of_nodup_map h.distinct hg hf hname
        have hheld := hrest g hg
        rw [hbehind] at hheld
        rw [List.lookup_cons_self]
        exact hread.trans (congrArg some (hheld.trans (hwrites.get_write x start)).symm)
      · rw [hothers hname]
        have hheld := hrest g hg
        unfold Field.Overlays at hheld ⊢
        rwa [hwrites.keeps g hg hname] at hheld
    · rintro ⟨hknown, hover⟩
      obtain ⟨hkey, hbehindKnown⟩ := List.forall_mem_cons.1 hknown
      obtain ⟨set, hset⟩ := h.exists_set hkey
      obtain ⟨f, hf, rfl⟩ := h.exists_field hset
      have hread := hover f hf
      rw [List.lookup_cons_self] at hread
      obtain ⟨hwrites⟩ := h.writes f hf set hset
      refine ⟨set, _, hset, hwrites.set_eq_ok_iff.2 ⟨_, hread, rfl⟩, (ih hback).2 ⟨hbehindKnown, fun g hg => ?_⟩⟩
      by_cases hname : g.name = f.name
      · obtain rfl := List.inj_on_of_nodup_map h.distinct hg hf hname
        rw [hbehind]
        exact (hwrites.get_write _ start).symm
      · have hheld := hover g hg
        rw [hothers hname] at hheld
        unfold Field.Overlays at hheld ⊢
        rwa [hwrites.keeps g hg hname]

/-- the entries of a section: those of a table, or the items of an array under the keys in order -/
def sectionEntries? (names : List String) : Value → Option (List (String × Value))
  | .table entries => some entries
  | .array items => some (names.zip items)
  | _ => none

theorem keys_zip_initial (names : List String) (items : List Value) :
    (names.zip items).map (·.1) <+: names := by
  induction names generalizing items with
  | nil => exact List.nil_prefix
  | cons name names ih =>
    cases items with
    | nil => exact List.nil_prefix
    | cons v items => exact List.cons_prefix_cons.2 ⟨rfl, ih items⟩

theorem distinctKeys_zip {names : List String} (h : names.Nodup) (items : List Value) :
    DistinctKeys (names.zip items) :=
  h.sublist (keys_zip_initial names items).sublist

/-- **An array is decoded as the table of its items.** -/
theorem decodeItems_eq (h : format.HasFields fields) (start : α) (items : List Value) :
    decodeItems format start items = decodeEntries format start ((fields.map (·.name)).zip items) := by
  have hdistinct : DistinctKeys format.keys := by
    rw [DistinctKeys, h.names]
    exact h.distinct
  have hself : ∀ entry ∈ format.keys, format.keys.lookup entry.1 = some entry.2 := fun entry hentry =>
    (Toml.lookup_eq_some_iff hdistinct).2 hentry
  rw [← h.names, decodeItems]
  -- the keys that are left are looked up among all keys
  generalize hkeys : format.keys = keys at hself ⊢
  replace hself : ∀ entry ∈ keys, format.keys.lookup entry.1 = some entry.2 := hkeys ▸ hself
  clear hkeys
  induction keys generalizing start items with
  | nil => rfl
  | cons entry keys ih =>
    obtain ⟨key, set⟩ := entry
    cases items with
    | nil => rfl
    | cons v items =>
      obtain ⟨hset, hself⟩ := List.forall_mem_cons.1 hself
      rw [List.map_cons, List.zip_cons_cons, List.zip_cons_cons, decodeEntries_cons hset, List.foldlM_cons]
      exact congrArg (set v start >>= ·) (funext fun next => ih next items hself)

theorem decodeSection_eq_ok_iff (h : format.HasFields fields) {v : Value}
    (hkeys : ∀ entries, v = .table entries → DistinctKeys entries) : decodeSection format start v = .ok s ↔
      ∃ entries, sectionEntries? (fields.map (·.name)) v = some entries ∧
        (∀ e ∈ entries, e.1 ∈ fields.map (·.name)) ∧ ∀ f ∈ fields, f.Overlays (entries.lookup f.name) start s := by
  cases v with
  | table entries =>
    rw [decodeSection, decodeEntries_eq_ok_iff h (hkeys entries rfl)]
    simp [sectionEntries?]
  | array items =>
    rw [decodeSection, decodeItems_eq h, decodeEntries_eq_ok_iff h (distinctKeys_zip h.distinct items)]
    simp [sectionEntries?]
  | dateTime text =>
    rw [decodeSection, decodeEntries_eq_ok_iff h (show DistinctKeys [_] from List.nodup_singleton _)]
    constructor
    · rintro ⟨hknown, -⟩
      exact absurd (hknown _ List.mem_cons_self) h.noDateTime
    · rintro ⟨entries, hentries, -⟩
      exact absurd hentries (by simp [sectionEntries?])
  | _ => simp [decodeSection, sectionEntries?]

end Sections

end Settings

end CallPlan
