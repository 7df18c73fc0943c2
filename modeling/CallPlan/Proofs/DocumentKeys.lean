/-
Keys of the tables of a parsed document.

While a document is read its tables are edited in place: entries are appended under keys that are not there yet,
replaced under keys that are, and taken out when the header of a table follows the tables it implied. None of these
makes a key occur twice, in the table at hand or in any other. So the document that a text writes is a tree in which
every table has distinct keys, and a decoder may look values up by their keys.

- `Value.WellKeyed`: every table in a value has distinct keys;
- `Entries.WellKeyed.edit`: an edit keeps the tables well keyed if the change at the end of the path does;
- `Draft.WellKeyed`: the invariant of a draft, kept by each line;
- `wellKeyed_of_parse`: the tree that a text writes is well keyed.
-/
import CallPlan.Toml.Document
import Mathlib.Data.List.Nodup

namespace CallPlan.Toml

/-! ## Trees with distinct keys -/

/-- no key stands at two entries -/
def DistinctKeys {β : Type} (es : List (String × β)) : Prop := (es.map (·.1)).Nodup

theorem lookup_mem {β : Type} {es : List (String × β)} {key : String} {v : β} (h : es.lookup key = some v) :
    (key, v) ∈ es := by
  obtain ⟨front, back, rfl, -⟩ := List.lookup_eq_some_iff.1 h
  exact List.mem_append_right _ List.mem_cons_self

theorem lookup_eq_none {β : Type} {es : List (String × β)} {key : String} :
    es.lookup key = none ↔ key ∉ es.map (·.1) := by
  constructor
  · intro h hmem
    obtain ⟨e, he, rfl⟩ := List.mem_map.1 hmem
    exact absurd (List.lookup_eq_none_iff.1 h e he) (by simp)
  · intro h
    refine List.lookup_eq_none_iff.2 fun e he => bne_iff_ne.2 fun hkey => h ?_
    exact hkey ▸ List.mem_map_of_mem he

/-- where keys are distinct, a look-up finds the entries there are -/
theorem lookup_eq_some_iff {β : Type} {es : List (String × β)} (h : DistinctKeys es) {key : String} {v : β} :
    es.lookup key = some v ↔ (key, v) ∈ es := by
  refine ⟨lookup_mem, fun hmem => ?_⟩
  cases hlookup : es.lookup key with
  | none => exact absurd (List.mem_map_of_mem hmem) (lookup_eq_none.1 hlookup)
  | some w =>
    have heq := List.inj_on_of_nodup_map h hmem (lookup_mem hlookup) rfl
    rw [(Prod.mk.inj heq).2]

theorem DistinctKeys.perm {β : Type} {es es' : List (String × β)} (h : DistinctKeys es) (hperm : es.Perm es') :
    DistinctKeys es' :=
  (hperm.map _).nodup_iff.1 h

/-- the order of the entries does not matter to a look-up -/
theorem lookup_perm {β : Type} {es es' : List (String × β)} (h : DistinctKeys es) (hperm : es.Perm es')
    (key : String) : es.lookup key = es'.lookup key := by
  refine Option.ext fun v => ?_
  rw [lookup_eq_some_iff h, lookup_eq_some_iff (h.perm hperm), hperm.mem_iff]

/-- every table in the value has distinct keys -/
inductive Value.WellKeyed : Value → Prop where
  | string (text : String) : WellKeyed (.string text)
  | integer (n : Int) : WellKeyed (.integer n)
  | float (x : Binary64) : WellKeyed (.float x)
  | boolean (b : Bool) : WellKeyed (.boolean b)
  | dateTime (text : String) : WellKeyed (.dateTime text)
  | array {items : List Value} (h : ∀ v ∈ items, WellKeyed v) : WellKeyed (.array items)
  | table {entries : List (String × Value)} (hkeys : DistinctKeys entries) (h : ∀ e ∈ entries, WellKeyed e.2) :
    WellKeyed (.table entries)

/-- every table in the item has distinct keys -/
inductive Item.WellKeyed : Item → Prop where
  | value {v : Value} (h : v.WellKeyed) : WellKeyed (.value v)
  | table {origin : Origin} {es : Entries} (hkeys : DistinctKeys es) (h : ∀ e ∈ es, WellKeyed e.2) :
    WellKeyed (.table origin es)
  | tables {elements : List Entries} (hkeys : ∀ es ∈ elements, DistinctKeys es)
    (h : ∀ es ∈ elements, ∀ e ∈ es, WellKeyed e.2) : WellKeyed (.tables elements)

/-- the entries of a table in which, as in the tables below it, keys are distinct -/
structure Entries.WellKeyed (es : Entries) : Prop where
  keys : DistinctKeys es
  items : ∀ e ∈ es, e.2.WellKeyed

theorem Item.wellKeyed_table_iff {origin : Origin} {es : Entries} :
    (Item.table origin es).WellKeyed ↔ es.WellKeyed := by
  constructor
  · rintro (_ | ⟨hkeys, h⟩ | _)
    exact ⟨hkeys, h⟩
  · rintro ⟨hkeys, h⟩
    exact .table hkeys h

theorem Item.wellKeyed_tables_iff {elements : List Entries} :
    (Item.tables elements).WellKeyed ↔ ∀ es ∈ elements, es.WellKeyed := by
  constructor
  · rintro (_ | _ | ⟨hkeys, h⟩) es hes
    exact ⟨hkeys es hes, h es hes⟩
  · intro h
    exact .tables (fun es hes => (h es hes).keys) (fun es hes => (h es hes).items)

theorem Item.entriesToValues_eq (es : Entries) : Item.entriesToValues es = es.map fun e => (e.1, e.2.toValue) := by
  induction es with
  | nil => rfl
  | cons e es ih =>
    obtain ⟨key, item⟩ := e
    rw [Item.entriesToValues, ih, List.map_cons]

theorem Item.elementsToValues_eq (elements : List Entries) :
    Item.elementsToValues elements = elements.map fun es => .table (Item.entriesToValues es) := by
  induction elements with
  | nil => rfl
  | cons es elements ih => rw [Item.elementsToValues, ih, List.map_cons]

theorem wellKeyed_toValues {es : Entries} (hkeys : DistinctKeys es) (h : ∀ e ∈ es, e.2.toValue.WellKeyed) :
    (Value.table (Item.entriesToValues es)).WellKeyed := by
  rw [Item.entriesToValues_eq]
  constructor
  · rwa [DistinctKeys, List.map_map]
  · intro e he
    obtain ⟨e', he', rfl⟩ := List.mem_map.1 he
    exact h e' he'

theorem Item.WellKeyed.toValue {item : Item} (h : item.WellKeyed) : item.toValue.WellKeyed := by
  induction h with
  | value h => exact h
  | table hkeys _ ih => exact wellKeyed_toValues hkeys ih
  | tables hkeys _ ih =>
    rw [Item.toValue, Item.elementsToValues_eq]
    constructor
    intro v hv
    obtain ⟨es, hes, rfl⟩ := List.mem_map.1 hv
    exact wellKeyed_toValues (hkeys es hes) (ih es hes)

theorem Entries.WellKeyed.toValues {es : Entries} (h : es.WellKeyed) :
    (Value.table (Item.entriesToValues es)).WellKeyed :=
  wellKeyed_toValues h.keys fun e he => (h.items e he).toValue

/-! ## Edits -/

namespace Entries

variable {es es' : Entries} {key : String} {item : Item}

namespace WellKeyed

theorem nil : WellKeyed [] := ⟨List.nodup_nil, by simp⟩

theorem of_lookup (h : es.WellKeyed) (hlookup : es.lookup key = some item) : item.WellKeyed :=
  h.items _ (lookup_mem hlookup)

theorem concat (h : es.WellKeyed) (hkey : es.lookup key = none) (hitem : item.WellKeyed) :
    WellKeyed (es ++ [(key, item)]) := by
  constructor
  · have hnew := lookup_eq_none.1 hkey
    rw [DistinctKeys, List.map_append, List.nodup_append]
    refine ⟨h.keys, List.nodup_singleton _, fun a ha b hb hab => ?_⟩
    obtain rfl := List.mem_singleton.1 hb
    exact hnew (hab ▸ ha)
  · intro e he
    rcases List.mem_append.1 he with he | he
    · exact h.items e he
    · obtain rfl := List.mem_singleton.1 he
      exact hitem

/-- a replacement leaves the keys as they are -/
theorem replace (h : es.WellKeyed) (hitem : item.WellKeyed) : (es.replace key item).WellKeyed := by
  constructor
  · have hkeys : (es.replace key item).map (·.1) = es.map (·.1) := by
      rw [Entries.replace, List.map_map]
      refine List.map_congr_left fun e _ => ?_
      dsimp only [Function.comp_apply]
      split
      · rename_i hkey
        exact (eq_of_beq hkey).symm
      · rfl
    rw [DistinctKeys, hkeys]
    exact h.keys
  · intro e he
    obtain ⟨e', he', rfl⟩ := List.mem_map.1 he
    split
    · exact hitem
    · exact h.items e' he'

theorem remove (h : es.WellKeyed) : (es.remove key).WellKeyed :=
  ⟨h.keys.sublist (List.filter_sublist.map _), fun e he => h.items e (List.mem_filter.1 he).1⟩

/-- **An edit keeps tables well keyed** if the change at the end of the path does; what the change hands out has the
property that it has there. -/
theorem edit {β : Type} {made : Origin} {change : Origin → Entries → Option (β × Entries)} {P : β → Prop}
    (hchange : ∀ {origin es b es'}, WellKeyed es → change origin es = some (b, es') → P b ∧ WellKeyed es')
    {path : List String} {origin : Origin} {b : β} (h : es.WellKeyed)
    (hedit : Entries.edit made change path origin es = some (b, es')) : P b ∧ es'.WellKeyed := by
  induction path generalizing origin es es' with
  | nil => exact hchange h hedit
  | cons key path ih =>
    rw [Entries.edit] at hedit
    split at hedit
    · rename_i hnone
      obtain ⟨⟨b', inner⟩, hinner, hsome⟩ := Option.bind_eq_some_iff.1 hedit
      obtain ⟨rfl, rfl⟩ := Prod.mk.inj (Option.some.inj hsome)
      obtain ⟨hb, hinner⟩ := ih nil hinner
      exact ⟨hb, h.concat hnone (Item.wellKeyed_table_iff.2 hinner)⟩
    · exact absurd hedit (by simp)
    · rename_i inner hlookup
      split_ifs at hedit
      obtain ⟨⟨b', inner'⟩, hinner, hsome⟩ := Option.bind_eq_some_iff.1 hedit
      obtain ⟨rfl, rfl⟩ := Prod.mk.inj (Option.some.inj hsome)
      obtain ⟨hb, hinner⟩ := ih (Item.wellKeyed_table_iff.1 (h.of_lookup hlookup)) hinner
      exact ⟨hb, h.replace (Item.wellKeyed_table_iff.2 hinner)⟩
    · rename_i elements hlookup
      have helements := Item.wellKeyed_tables_iff.1 (h.of_lookup hlookup)
      obtain ⟨last, hlast, hedit⟩ := Option.bind_eq_some_iff.1 hedit
      obtain ⟨⟨b', last'⟩, hinner, hsome⟩ := Option.bind_eq_some_iff.1 hedit
      obtain ⟨rfl, rfl⟩ := Prod.mk.inj (Option.some.inj hsome)
      obtain ⟨hb, hinner⟩ := ih (helements last (List.mem_of_getLast? hlast)) hinner
      refine ⟨hb, h.replace (Item.wellKeyed_tables_iff.2 fun es hes => ?_)⟩
      rcases List.mem_append.1 hes with hes | hes
      · exact helements es ((List.dropLast_sublist _).subset hes)
      · obtain rfl := List.mem_singleton.1 hes
        exact hinner

theorem insertValue {path : List String} {v : Value} (h : es.WellKeyed) (hv : v.WellKeyed)
    (hinsert : es.insertValue path key v = some es') : es'.WellKeyed := by
  obtain ⟨⟨⟨⟩, es''⟩, hedit, rfl⟩ := Option.map_eq_some_iff.1 hinsert
  refine (edit (P := fun _ => True) (fun {origin es b es'} hes hadd => ?_) h hedit).2
  split_ifs at hadd with hrefused
  obtain ⟨-, rfl⟩ := Prod.mk.inj (Option.some.inj hadd)
  have hnew : es.lookup key = none := by
    rw [lookup_eq_none]
    intro hmem
    obtain ⟨e, he, rfl⟩ := List.mem_map.1 hmem
    exact hrefused (by simp only [hasKey, Bool.or_eq_true, List.any_eq_true]; exact Or.inr ⟨e, he, by simp⟩)
  exact ⟨trivial, hes.concat hnew (.value hv)⟩

end WellKeyed

end Entries

/-! ## Drafts -/

/-- the tables of the draft, the open one too, are well keyed -/
structure Draft.WellKeyed (d : Draft) : Prop where
  root : d.root.WellKeyed
  current : d.current.WellKeyed

namespace Draft.WellKeyed

variable {d d' : Draft}

theorem empty : WellKeyed .empty := ⟨.nil, .nil⟩

theorem insertValue {path : List String} {key : String} {v : Value} (h : d.WellKeyed) (hv : v.WellKeyed)
    (hinsert : d.insertValue path key v = some d') : d'.WellKeyed := by
  obtain ⟨current, hcurrent, hsome⟩ := Option.bind_eq_some_iff.1 hinsert
  obtain rfl := Option.some.inj hsome
  exact ⟨h.root, h.current.insertValue hv hcurrent⟩

theorem close {es : Entries} (h : d.WellKeyed) (hclose : d.close = some es) : es.WellKeyed := by
  rw [Draft.close] at hclose
  split at hclose
  · exact Option.some.inj hclose ▸ h.current
  · obtain ⟨⟨⟨⟩, es'⟩, hedit, rfl⟩ := Option.map_eq_some_iff.1 hclose
    refine (Entries.WellKeyed.edit (P := fun _ => True) (fun {origin es b es'} hes hput => ?_) h.root hedit).2
    split at hput
    · rename_i hnone
      obtain ⟨-, rfl⟩ := Prod.mk.inj (Option.some.inj hput)
      refine ⟨trivial, hes.concat hnone ?_⟩
      split
      · exact Item.wellKeyed_tables_iff.2 (by simpa using h.current)
      · exact Item.wellKeyed_table_iff.2 h.current
    · rename_i elements hlookup
      split_ifs at hput
      obtain ⟨-, rfl⟩ := Prod.mk.inj (Option.some.inj hput)
      refine ⟨trivial, hes.replace (Item.wellKeyed_tables_iff.2 fun es' hes' => ?_)⟩
      rcases List.mem_append.1 hes' with hes' | hes'
      · exact Item.wellKeyed_tables_iff.1 (hes.of_lookup hlookup) es' hes'
      · obtain rfl := List.mem_singleton.1 hes'
        exact h.current
    · exact absurd hput (by simp)

theorem openTable {header : List String} (h : d.WellKeyed) (hopen : d.openTable header = some d') : d'.WellKeyed := by
  obtain ⟨root, hclose, hopen⟩ := Option.bind_eq_some_iff.1 hopen
  obtain ⟨key, -, hopen⟩ := Option.bind_eq_some_iff.1 hopen
  obtain ⟨⟨current, root'⟩, hedit, hsome⟩ := Option.bind_eq_some_iff.1 hopen
  obtain rfl := Option.some.inj hsome
  obtain ⟨hcurrent, hroot⟩ := Entries.WellKeyed.edit (P := Entries.WellKeyed)
    (fun {origin es b es'} hes htake => by
      split at htake
      · obtain ⟨rfl, rfl⟩ := Prod.mk.inj (Option.some.inj htake)
        exact ⟨.nil, hes⟩
      · rename_i hlookup
        obtain ⟨rfl, rfl⟩ := Prod.mk.inj (Option.some.inj htake)
        exact ⟨Item.wellKeyed_table_iff.1 (hes.of_lookup hlookup), hes.remove⟩
      · exact absurd htake (by simp)) (h.close hclose) hedit
  exact ⟨hroot, hcurrent⟩

theorem openElement {header : List String} (h : d.WellKeyed) (hopen : d.openElement header = some d') :
    d'.WellKeyed := by
  obtain ⟨root, hclose, hopen⟩ := Option.bind_eq_some_iff.1 hopen
  obtain ⟨key, -, hopen⟩ := Option.bind_eq_some_iff.1 hopen
  obtain ⟨⟨⟨⟩, root'⟩, hedit, hsome⟩ := Option.bind_eq_some_iff.1 hopen
  obtain rfl := Option.some.inj hsome
  refine ⟨(Entries.WellKeyed.edit (P := fun _ => True) (fun {origin es b es'} hes hreserve => ?_)
    (h.close hclose) hedit).2, .nil⟩
  split at hreserve
  · rename_i hnone
    obtain ⟨-, rfl⟩ := Prod.mk.inj (Option.some.inj hreserve)
    exact ⟨trivial, hes.concat hnone (Item.wellKeyed_tables_iff.2 (by simp))⟩
  · obtain ⟨-, rfl⟩ := Prod.mk.inj (Option.some.inj hreserve)
    exact ⟨trivial, hes⟩
  · exact absurd hreserve (by simp)

end Draft.WellKeyed

/-! ## Readers -/

/-- what the reader reads off has the property -/
def Yields {α : Type} (read : Reader α) (P : α → Prop) : Prop := ∀ cs a rest, read cs = some (a, rest) → P a

theorem eq_some_of_orElse {α : Type} {x y : Option α} {a : α} (h : (x <|> y) = some a) : x = some a ∨ y = some a := by
  cases x with
  | none => exact Or.inr h
  | some b => exact Or.inl h

/-- a scalar is well keyed, whatever was read for it -/
theorem wellKeyed_of_map {α : Type} {read : Option (α × List Char)} {make : α → Value} {v : Value} {rest : List Char}
    (hmake : ∀ a, (make a).WellKeyed) (h : (read.map fun (a, rest) => (make a, rest)) = some (v, rest)) :
    v.WellKeyed := by
  obtain ⟨⟨a, _⟩, -, heq⟩ := Option.map_eq_some_iff.1 h
  exact (Prod.mk.inj heq).1 ▸ hmake a

theorem yields_readScalar : Yields readScalar Value.WellKeyed := by
  intro cs v rest h
  rcases eq_some_of_orElse h with h | h
  · exact wellKeyed_of_map .string h
  rcases eq_some_of_orElse h with h | h
  · exact wellKeyed_of_map .boolean h
  rcases eq_some_of_orElse h with h | h
  · exact wellKeyed_of_map .dateTime h
  rcases eq_some_of_orElse h with h | h
  · exact wellKeyed_of_map .float h
  · exact wellKeyed_of_map .integer h

theorem yields_readItems {value : Reader Value} (hvalue : Yields value Value.WellKeyed) (n : Nat) :
    Yields (readItems value n) fun items => ∀ v ∈ items, v.WellKeyed := by
  induction n with
  | zero => exact fun cs items rest h => absurd h (by simp [readItems])
  | succ n ih =>
    intro cs items rest h
    obtain ⟨inside, -, h⟩ := Option.bind_eq_some_iff.1 h
    split at h
    · obtain ⟨rfl, -⟩ := Prod.mk.inj (Option.some.inj h)
      simp
    · obtain ⟨⟨v, behind⟩, hv, h⟩ := Option.bind_eq_some_iff.1 h
      obtain ⟨next, -, h⟩ := Option.bind_eq_some_iff.1 h
      have hv := hvalue _ _ _ hv
      split at h
      · obtain ⟨rfl, -⟩ := Prod.mk.inj (Option.some.inj h)
        simpa using hv
      · obtain ⟨⟨vs, _⟩, hvs, h⟩ := Option.bind_eq_some_iff.1 h
        obtain ⟨rfl, -⟩ := Prod.mk.inj (Option.some.inj h)
        exact List.forall_mem_cons.2 ⟨hv, ih _ _ _ hvs⟩
      · exact absurd h (by simp)

theorem yields_readPairs {value : Reader Value} (hvalue : Yields value Value.WellKeyed) (n : Nat) {es : Entries}
    (hes : es.WellKeyed) : Yields (readPairs value n es) Entries.WellKeyed := by
  induction n generalizing es with
  | zero => exact fun cs es' rest h => absurd h (by simp [readPairs])
  | succ n ih =>
    intro cs es' rest h
    obtain ⟨⟨⟨path, key⟩, _⟩, -, h⟩ := Option.bind_eq_some_iff.1 h
    obtain ⟨⟨v, _⟩, hv, h⟩ := Option.bind_eq_some_iff.1 h
    obtain ⟨longer, hinsert, h⟩ := Option.bind_eq_some_iff.1 h
    have hlonger := hes.insertValue (hvalue _ _ _ hv) hinsert
    split at h
    · obtain ⟨rfl, -⟩ := Prod.mk.inj (Option.some.inj h)
      exact hlonger
    · exact ih hlonger _ _ _ h
    · exact absurd h (by simp)

theorem yields_readInlineTable {value : Reader Value} (hvalue : Yields value Value.WellKeyed) :
    Yields (readInlineTable value) Entries.WellKeyed := by
  intro cs es rest h
  rw [readInlineTable] at h
  split at h
  · obtain ⟨rfl, -⟩ := Prod.mk.inj (Option.some.inj h)
    exact .nil
  · exact yields_readPairs hvalue _ .nil _ _ _ h

theorem yields_readValue (depth : Nat) : Yields (readValue depth) Value.WellKeyed := by
  induction depth with
  | zero => exact yields_readScalar
  | succ depth ih =>
    intro cs v rest h
    rw [readValue.eq_def] at h
    dsimp only at h
    split at h
    · obtain ⟨⟨items, _⟩, hitems, h⟩ := Option.bind_eq_some_iff.1 h
      obtain ⟨rfl, -⟩ := Prod.mk.inj (Option.some.inj h)
      exact .array (yields_readItems ih _ _ _ _ hitems)
    · obtain ⟨⟨es, _⟩, hes, h⟩ := Option.bind_eq_some_iff.1 h
      obtain ⟨rfl, -⟩ := Prod.mk.inj (Option.some.inj h)
      exact (yields_readInlineTable ih _ _ _ hes).toValues
    · exact yields_readScalar _ _ _ h

/-! ## Lines and documents -/

/-- **A line keeps the tables well keyed.** -/
theorem yields_readLine {d : Draft} (hd : d.WellKeyed) : Yields (readLine d) Draft.WellKeyed := by
  intro cs d' rest h
  rw [readLine.eq_def] at h
  split at h
  · exact absurd h (by simp)
  · obtain ⟨_, -, h⟩ := Option.bind_eq_some_iff.1 h
    exact (Prod.mk.inj (Option.some.inj h)).1 ▸ hd
  · obtain ⟨⟨header, _⟩, -, h⟩ := Option.bind_eq_some_iff.1 h
    dsimp only at h
    split at h
    · obtain ⟨opened, hopen, h⟩ := Option.bind_eq_some_iff.1 h
      obtain ⟨_, -, h⟩ := Option.bind_eq_some_iff.1 h
      exact (Prod.mk.inj (Option.some.inj h)).1 ▸ hd.openElement hopen
    · exact absurd h (by simp)
  · obtain ⟨⟨header, _⟩, -, h⟩ := Option.bind_eq_some_iff.1 h
    dsimp only at h
    split at h
    · obtain ⟨opened, hopen, h⟩ := Option.bind_eq_some_iff.1 h
      obtain ⟨_, -, h⟩ := Option.bind_eq_some_iff.1 h
      exact (Prod.mk.inj (Option.some.inj h)).1 ▸ hd.openTable hopen
    · exact absurd h (by simp)
  · split at h
    · exact (Prod.mk.inj (Option.some.inj h)).1 ▸ hd
    · obtain ⟨⟨⟨path, key⟩, _⟩, -, h⟩ := Option.bind_eq_some_iff.1 h
      obtain ⟨⟨v, _⟩, hv, h⟩ := Option.bind_eq_some_iff.1 h
      obtain ⟨longer, hinsert, h⟩ := Option.bind_eq_some_iff.1 h
      obtain ⟨_, -, h⟩ := Option.bind_eq_some_iff.1 h
      exact (Prod.mk.inj (Option.some.inj h)).1 ▸ hd.insertValue (yields_readValue _ _ _ _ hv) hinsert

theorem wellKeyed_of_readAllLines {n : Nat} {d d' : Draft} {cs : List Char} (hd : d.WellKeyed)
    (h : readAllLines n d cs = some d') : d'.WellKeyed := by
  induction n generalizing d cs with
  | zero => exact absurd h (by simp [readAllLines])
  | succ n ih =>
    rw [readAllLines] at h
    split at h
    · exact Option.some.inj h ▸ hd
    · obtain ⟨⟨longer, rest⟩, hline, h⟩ := Option.bind_eq_some_iff.1 h
      exact ih (yields_readLine hd _ _ _ hline) h

/-- **A text writes a tree in which every table has distinct keys.** -/
theorem wellKeyed_of_parse {text : String} {document : List (String × Value)} (h : parse? text = some document) :
    (Value.table document).WellKeyed := by
  obtain ⟨d, hlines, h⟩ := Option.bind_eq_some_iff.1 h
  obtain ⟨es, hclose, h⟩ := Option.bind_eq_some_iff.1 h
  obtain rfl := Option.some.inj h
  exact ((wellKeyed_of_readAllLines .empty hlines).close hclose).toValues

end CallPlan.Toml
