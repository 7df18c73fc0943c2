/-
Tables that keep the order in which their keys first came.

Writing to a key that is already there replaces the value and leaves the key where it is; a new key goes to the end.
The keys of a table are therefore distinct, which the type records. Keys are compared by the `BEq` instance of their
type, so that types told apart by part of their data (a known type by its name) can be keys.

Main laws: `find?_insert` says what a write does to every look-up, and `find?_ofList` what a list of writes does.
`agree` compares two tables without regard to order, and by `rel_find?_of_agree` tables that agree find the same under
every key.
-/
namespace CallPlan

structure Table (κ α : Type) [BEq κ] where
  entries : List (κ × α)
  distinct : entries.Pairwise fun a b => (a.1 == b.1) = false

namespace Table

variable {κ α : Type} [BEq κ]

def empty : Table κ α := ⟨[], .nil⟩

def keys (t : Table κ α) : List κ := t.entries.map (·.1)

def values (t : Table κ α) : List α := t.entries.map (·.2)

def size (t : Table κ α) : Nat := t.entries.length

/-- the entry whose key equals `k` -/
def entry? (t : Table κ α) (k : κ) : Option (κ × α) := t.entries.find? (·.1 == k)

def find? (t : Table κ α) (k : κ) : Option α := (t.entry? k).map (·.2)

def contains (t : Table κ α) (k : κ) : Bool := t.entries.any (·.1 == k)

/-- the entries with the value at `k` replaced -/
def replaceAt (k : κ) (v : α) (es : List (κ × α)) : List (κ × α) :=
  es.map fun e => if e.1 == k then (e.1, v) else e

theorem replaceAt_pairwise {k : κ} {v : α} {es : List (κ × α)}
    (h : es.Pairwise fun a b => (a.1 == b.1) = false) :
    (replaceAt k v es).Pairwise fun a b => (a.1 == b.1) = false := by
  refine List.pairwise_map.2 (h.imp fun {a b} hab => ?_)
  split <;> split <;> exact hab

theorem append_pairwise {k : κ} {v : α} {es : List (κ × α)}
    (h : es.Pairwise fun a b => (a.1 == b.1) = false) (hk : es.any (·.1 == k) = false) :
    (es ++ [(k, v)]).Pairwise fun a b => (a.1 == b.1) = false := by
  refine List.pairwise_append.2 ⟨h, List.pairwise_singleton _ _, fun a ha b hb => ?_⟩
  obtain rfl := List.mem_singleton.1 hb
  simpa using List.any_eq_false.1 hk a ha

/-- writes `v` at `k`: in place when the key is there, at the end otherwise -/
def insert (t : Table κ α) (k : κ) (v : α) : Table κ α :=
  if h : t.entries.any (·.1 == k) then ⟨replaceAt k v t.entries, replaceAt_pairwise t.distinct⟩
  else ⟨t.entries ++ [(k, v)], append_pairwise t.distinct (by simpa using h)⟩

/-- the table that writing the pairs one after the other gives -/
def ofList (pairs : List (κ × α)) : Table κ α := pairs.foldl (fun t p => t.insert p.1 p.2) empty

/-- the table with every value changed -/
def mapValues {β : Type} (f : α → β) (t : Table κ α) : Table κ β :=
  ⟨t.entries.map fun e => (e.1, f e.2), List.pairwise_map.2 (t.distinct.imp fun h => h)⟩

/-- whether two tables hold the same keys with values that `same` accepts, in whatever order -/
def agree (same : α → α → Bool) (a b : Table κ α) : Bool :=
  a.size == b.size && a.entries.all fun e => (b.find? e.1).any (same e.2)

/-! ## Look-ups after a write -/

@[simp] theorem find?_empty (j : κ) : (empty : Table κ α).find? j = none := rfl

/-- replacing the value at `k` leaves every key and every other value -/
theorem find?_replaceAt [PartialEquivBEq κ] {k j : κ} {v : α} {es : List (κ × α)} :
    ((replaceAt k v es).find? (·.1 == j)).map (·.2) =
      if k == j then ((es.find? (·.1 == j)).map fun _ => v) else (es.find? (·.1 == j)).map (·.2) := by
  induction es with
  | nil => simp [replaceAt]
  | cons e es ih =>
    cases hej : e.1 == j with
    | false =>
      have skip : replaceAt k v (e :: es) = (e.1, if e.1 == k then v else e.2) :: replaceAt k v es := by
        simp only [replaceAt, List.map_cons]
        split <;> rfl
      rw [skip, List.find?_cons, List.find?_cons, hej]
      exact ih
    | true =>
      have hk : (e.1 == k) = (k == j) := by
        cases hkj : k == j with
        | true => exact BEq.trans hej (BEq.symm hkj)
        | false => exact Bool.eq_false_iff.2 fun h => by simp [BEq.trans (BEq.symm h) hej] at hkj
      cases hkj : k == j <;> simp [replaceAt, hej, hk, hkj]

/-- a write is seen at keys equal to its own and nowhere else -/
theorem find?_insert [PartialEquivBEq κ] (t : Table κ α) (k j : κ) (v : α) :
    (t.insert k v).find? j = if k == j then some v else t.find? j := by
  unfold insert find? entry?
  split
  · rename_i h
    rw [find?_replaceAt]
    split
    · rename_i hkj
      obtain ⟨e, he, hek⟩ := List.any_eq_true.1 h
      have : (t.entries.find? (·.1 == j)).isSome := by
        rw [List.find?_isSome]
        exact ⟨e, he, BEq.trans hek hkj⟩
      obtain ⟨x, hx⟩ := Option.isSome_iff_exists.1 this
      rw [hx]
      rfl
    · rfl
  · rename_i h
    rw [List.find?_append]
    split
    · rename_i hkj
      have : t.entries.find? (·.1 == j) = none := by
        rw [List.find?_eq_none]
        intro e he hej
        exact h (List.any_eq_true.2 ⟨e, he, BEq.trans hej (BEq.symm hkj)⟩)
      simp [this, hkj]
    · rename_i hkj
      simp [hkj]

/-- **A table of written pairs holds what was written last** under an equal key. -/
theorem find?_ofList [PartialEquivBEq κ] (pairs : List (κ × α)) (k : κ) :
    (ofList pairs).find? k = (pairs.filter (·.1 == k)).getLast?.map (·.2) := by
  have hwrite : ∀ start : Table κ α, (pairs.foldl (fun t p => t.insert p.1 p.2) start).find? k =
      ((pairs.filter (·.1 == k)).getLast?.map (·.2)).or (start.find? k) := by
    induction pairs with
    | nil => exact fun _ => rfl
    | cons p pairs ih =>
      intro start
      rw [List.foldl_cons, ih, find?_insert, List.filter_cons]
      split
      · rw [List.getLast?_cons]
        cases (pairs.filter (·.1 == k)).getLast? <;> rfl
      · rfl
  rw [ofList, hwrite, find?_empty, Option.or_none]

/-- what is found in a table of written pairs was written under an equal key -/
theorem mem_of_find?_ofList [PartialEquivBEq κ] {pairs : List (κ × α)} {k : κ} {v : α}
    (h : (ofList pairs).find? k = some v) : ∃ e ∈ pairs, (e.1 == k) = true ∧ e.2 = v := by
  rw [find?_ofList] at h
  obtain ⟨e, hlast, hv⟩ := Option.map_eq_some_iff.1 h
  obtain ⟨he, hk⟩ := List.mem_filter.1 (List.mem_of_getLast? hlast)
  exact ⟨e, he, hk, hv⟩

theorem find?_mapValues {β : Type} (f : α → β) (t : Table κ α) (k : κ) :
    (t.mapValues f).find? k = (t.find? k).map f := by
  simp only [find?, entry?, mapValues, List.find?_map, Option.map_map, Function.comp_def]

/-! ## Keys and entries -/

/-- a write adds its key at the end, unless an equal one is there -/
theorem keys_insert (t : Table κ α) (k : κ) (v : α) :
    (t.insert k v).keys = if t.keys.any (· == k) then t.keys else t.keys ++ [k] := by
  have hkeys : t.entries.any (·.1 == k) = t.keys.any (· == k) := by simp [keys, List.any_map, Function.comp_def]
  unfold insert
  split
  · rename_i h
    rw [← hkeys, if_pos h]
    simp only [keys, replaceAt, List.map_map]
    refine List.map_congr_left fun e _ => ?_
    simp only [Function.comp_apply]
    split <;> rfl
  · rename_i h
    rw [← hkeys, if_neg h]
    simp [keys]

/-- what stands in a table is found under every key that equals its own -/
theorem find?_of_mem_of_beq [PartialEquivBEq κ] (t : Table κ α) {e : κ × α} {k : κ} (he : e ∈ t.entries)
    (hk : (e.1 == k) = true) : t.find? k = some e.2 := by
  have hfind : ∀ {es : List (κ × α)}, es.Pairwise (fun a b => (a.1 == b.1) = false) → e ∈ es →
      es.find? (·.1 == k) = some e := by
    intro es
    induction es with
    | nil => intro _ he; exact absurd he List.not_mem_nil
    | cons x es ih =>
      intro hdist he
      obtain ⟨hx, hrest⟩ := List.pairwise_cons.1 hdist
      rcases List.mem_cons.1 he with rfl | he
      · exact List.find?_cons_of_pos hk
      · rw [List.find?_cons_of_neg]
        · exact ih hrest he
        · intro hxk
          exact absurd (BEq.trans hxk (BEq.symm hk)) (by simpa using hx e he)
  rw [find?, entry?, hfind t.distinct he]
  rfl

/-- what stands in a table is found under its key -/
theorem find?_of_mem [EquivBEq κ] (t : Table κ α) {e : κ × α} (he : e ∈ t.entries) : t.find? e.1 = some e.2 :=
  find?_of_mem_of_beq t he BEq.rfl

theorem find?_eq_none_iff (t : Table κ α) (k : κ) : t.find? k = none ↔ ∀ a ∈ t.keys, (a == k) = false := by
  simp [find?, entry?, keys]

/-- a key that is not there yet goes to the end with its value -/
theorem entries_insert_of_new {t : Table κ α} {k : κ} (h : t.find? k = none) (v : α) :
    (t.insert k v).entries = t.entries ++ [(k, v)] := by
  have hnew : ¬ t.entries.any (·.1 == k) = true := by
    intro hany
    obtain ⟨e, he, hk⟩ := List.any_eq_true.1 hany
    have hne := (find?_eq_none_iff t k).1 h e.1 (List.mem_map_of_mem he)
    exact absurd (hne.symm.trans hk) (by decide)
  rw [insert, dif_neg hnew]

/-! ## Tables that agree -/

/-- equal keys find the same -/
theorem find?_congr [PartialEquivBEq κ] (t : Table κ α) {j k : κ} (h : (j == k) = true) : t.find? j = t.find? k := by
  have hkeys : ∀ e : κ × α, (e.1 == j) = (e.1 == k) := fun e => BEq.congr_right h
  simp only [find?, entry?, hkeys]

theorem exists_entry_of_find? {t : Table κ α} {k : κ} {v : α} (h : t.find? k = some v) :
    ∃ e ∈ t.entries, (e.1 == k) = true ∧ e.2 = v := by
  obtain ⟨e, hentry, hv⟩ := Option.map_eq_some_iff.1 h
  have hfound : t.entries.find? (·.1 == k) = some e := hentry
  exact ⟨e, List.mem_of_find?_eq_some hfound, by simpa using List.find?_some hfound, hv⟩

/-- unequal values that each have an equal among no more others leave none of the others out -/
theorem exists_beq_of_length_le [PartialEquivBEq κ] {xs ys : List κ}
    (hdist : xs.Pairwise fun a b => (a == b) = false) (hmatch : ∀ x ∈ xs, ∃ y ∈ ys, (x == y) = true)
    (hlen : ys.length ≤ xs.length) : ∀ y ∈ ys, ∃ x ∈ xs, (x == y) = true := by
  induction xs generalizing ys with
  | nil =>
    obtain rfl := List.length_eq_zero_iff.1 (Nat.le_zero.1 hlen)
    exact fun _ hy => absurd hy List.not_mem_nil
  | cons x xs ih =>
    obtain ⟨hx, hrest⟩ := List.pairwise_cons.1 hdist
    obtain ⟨y0, hy0, hxy0⟩ := hmatch x List.mem_cons_self
    -- what equals a later value does not equal the first one, so it is still there without the first one's match
    have hmatchRest : ∀ x' ∈ xs, ∃ y ∈ ys.eraseP (x == ·), (x' == y) = true := by
      intro x' hx'
      obtain ⟨y, hy, hxy⟩ := hmatch x' (List.mem_cons_of_mem _ hx')
      have hne : ¬ (x == y) = true := fun heq =>
        absurd (BEq.trans heq (BEq.symm hxy)) (by simpa using hx x' hx')
      exact ⟨y, (List.mem_eraseP_of_neg hne).2 hy, hxy⟩
    have hlenRest : (ys.eraseP (x == ·)).length ≤ xs.length := by
      rw [List.length_eraseP_of_mem hy0 hxy0]
      exact Nat.sub_le_of_le_add hlen
    intro y hy
    by_cases hxy : (x == y) = true
    · exact ⟨x, List.mem_cons_self, hxy⟩
    · obtain ⟨x', hx', heq⟩ := ih hrest hmatchRest hlenRest y ((List.mem_eraseP_of_neg hxy).2 hy)
      exact ⟨x', List.mem_cons_of_mem _ hx', heq⟩

/-- **Tables that agree find the same under every key.** -/
theorem rel_find?_of_agree [PartialEquivBEq κ] {same : α → α → Bool} {a b : Table κ α} (h : a.agree same b = true)
    (k : κ) : Option.Rel (fun x y => same x y = true) (a.find? k) (b.find? k) := by
  rw [agree, Bool.and_eq_true, beq_iff_eq, List.all_eq_true] at h
  obtain ⟨hsize, hall⟩ := h
  have hmatch : ∀ e ∈ a.entries, ∃ v, b.find? e.1 = some v ∧ same e.2 v = true := fun e he =>
    Option.any_eq_true _ _ |>.1 (hall e he)
  cases ha : a.find? k with
  | some x =>
    obtain ⟨e, he, hk, rfl⟩ := exists_entry_of_find? ha
    obtain ⟨v, hv, hsame⟩ := hmatch e he
    rw [← find?_congr b hk, hv]
    exact .some hsame
  | none =>
    cases hb : b.find? k with
    | none => exact .none
    | some y =>
      -- the tables are of one size, so every key of `b` has its equal in `a`
      obtain ⟨f, hf, hfk, -⟩ := exists_entry_of_find? hb
      have hkeys : ∀ j ∈ b.keys, ∃ i ∈ a.keys, (i == j) = true := by
        refine exists_beq_of_length_le (List.pairwise_map.2 a.distinct) ?_ ?_
        · intro i hi
          obtain ⟨e, he, rfl⟩ := List.mem_map.1 hi
          obtain ⟨v, hv, -⟩ := hmatch e he
          obtain ⟨g, hg, hge, -⟩ := exists_entry_of_find? hv
          exact ⟨g.1, List.mem_map_of_mem hg, BEq.symm hge⟩
        · rw [keys, keys, List.length_map, List.length_map]
          exact Nat.le_of_eq hsize.symm
      obtain ⟨i, hi, hif⟩ := hkeys f.1 (List.mem_map_of_mem hf)
      have hne := (find?_eq_none_iff a k).1 ha i hi
      exact absurd (BEq.trans hif hfk) (by simpa using hne)

/-- tables that agree on equal values find equal values -/
theorem find?_eq_of_agree [PartialEquivBEq κ] [BEq α] [LawfulBEq α] {a b : Table κ α}
    (h : a.agree (· == ·) b = true) (k : κ) : a.find? k = b.find? k := by
  have hrel := rel_find?_of_agree h k
  generalize a.find? k = x at hrel ⊢
  generalize b.find? k = y at hrel ⊢
  cases hrel with
  | none => rfl
  | some hxy => exact congrArg some (eq_of_beq hxy)

/-- a table agrees with itself -/
theorem agree_self [EquivBEq κ] {same : α → α → Bool} (hsame : ∀ v, same v v = true) (t : Table κ α) :
    agree same t t = true := by
  rw [agree, Bool.and_eq_true, beq_self_eq_true, List.all_eq_true]
  refine ⟨rfl, fun e he => ?_⟩
  rw [find?_of_mem t he]
  exact hsame e.2

theorem size_eq_of_agree {same : α → α → Bool} {a b : Table κ α} (h : a.agree same b = true) : a.size = b.size := by
  rw [agree, Bool.and_eq_true, beq_iff_eq] at h
  exact h.1

theorem agree_symm [EquivBEq κ] {same : α → α → Bool} (hsame : ∀ v w, same v w = true → same w v = true)
    {a b : Table κ α} (h : a.agree same b = true) : b.agree same a = true := by
  rw [agree, Bool.and_eq_true, beq_iff_eq, List.all_eq_true]
  refine ⟨(size_eq_of_agree h).symm, fun e he => ?_⟩
  have hrel := rel_find?_of_agree h e.1
  rw [find?_of_mem b he] at hrel
  generalize a.find? e.1 = found at hrel
  cases hrel with
  | some hve => exact hsame _ _ hve

theorem agree_trans [PartialEquivBEq κ] {same : α → α → Bool}
    (hsame : ∀ u v w, same u v = true → same v w = true → same u w = true) {a b c : Table κ α}
    (hab : a.agree same b = true) (hbc : b.agree same c = true) : a.agree same c = true := by
  have hsize := (size_eq_of_agree hab).trans (size_eq_of_agree hbc)
  rw [agree, Bool.and_eq_true, List.all_eq_true] at hab ⊢
  refine ⟨beq_iff_eq.2 hsize, fun e he => ?_⟩
  obtain ⟨v, hv, hev⟩ := (Option.any_eq_true _ _).1 (hab.2 e he)
  have hrel := rel_find?_of_agree hbc e.1
  rw [hv] at hrel
  generalize c.find? e.1 = found at hrel
  cases hrel with
  | some hvw => exact hsame _ _ _ hev hvw

end Table

end CallPlan
