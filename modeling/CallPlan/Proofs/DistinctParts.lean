/-
Compounds without duplicates.

A compound is freed of duplicates by collecting its parts in a set that hashes them and keeps their order. Where
equality is an equivalence and equal values feed the same to a hash, the set keeps of all equal parts the one that comes
first, whatever the hash is and however deep the parts are nested. All laws follow from what one more part changes: it
is left out if an equal one came before, and goes to the end otherwise.

- `any_eraseDups`, `eraseDups_eq_firstOccurrences`: nothing is lost, and what is kept is what equals nothing earlier;
- `countP_eq_one`: where no two values are equal, at most one equals a given value;
- `forall₂_addHashed`, `forall₂_eraseDups`: equal lists keep equal values, for one value and for a run;
- `distinct_parts_exact`: the laws of compounds without duplicates.
-/
import CallPlan.Proofs.HashContracts

namespace CallPlan

variable {α : Type} [BEq α] {as bs : List α}

/-! ## First occurrences -/

/-- the values that equal no earlier one, in order -/
def firstOccurrences (as : List α) : List α :=
  (as.zipIdx.filter fun (a, i) => !(as.take i).any (a == ·)).map (·.1)

/-- a value that comes last is a first occurrence iff it equals none before it -/
theorem firstOccurrences_concat (as : List α) (a : α) : firstOccurrences (as ++ [a]) =
    if as.any (a == ·) then firstOccurrences as else firstOccurrences as ++ [a] := by
  have hbefore : (as.zipIdx.filter fun (b, i) => !((as ++ [a]).take i).any (b == ·)) =
      as.zipIdx.filter fun (b, i) => !(as.take i).any (b == ·) := by
    refine List.filter_congr fun ⟨b, i⟩ hmem => ?_
    have hi : i < as.length := by simpa using List.snd_lt_of_mem_zipIdx hmem
    dsimp only
    rw [List.take_append_of_le_length (Nat.le_of_lt hi)]
  rw [firstOccurrences, List.zipIdx_append, List.filter_append, hbefore, List.map_append]
  simp only [List.zipIdx_singleton, Nat.zero_add, List.filter_singleton, List.take_left']
  cases as.any (a == ·) with
  | true => simp [firstOccurrences]
  | false => simp [firstOccurrences]

/-- **Nothing is lost**: what equals a value equals a kept one. -/
theorem any_eraseDups [PartialEquivBEq α] (as : List α) (a : α) :
    as.eraseDups.any (a == ·) = as.any (a == ·) := by
  induction as using List.reverseRecOn with
  | nil => rfl
  | append_singleton as b ih =>
    rw [eraseDups_concat, List.any_append, List.any_cons, List.any_nil, Bool.or_false, ← ih]
    split_ifs with hkept
    · cases hab : a == b with
      | false => rw [Bool.or_false]
      | true =>
        obtain ⟨c, hc, hbc⟩ := List.any_eq_true.1 hkept
        rw [Bool.or_true, List.any_eq_true]
        exact ⟨c, hc, BEq.trans hab hbc⟩
    · rw [List.any_append, List.any_cons, List.any_nil, Bool.or_false]

/-- **What is kept equals nothing earlier**, and all of that is kept. -/
theorem eraseDups_eq_firstOccurrences [PartialEquivBEq α] (as : List α) : as.eraseDups = firstOccurrences as := by
  induction as using List.reverseRecOn with
  | nil => rfl
  | append_singleton as a ih => rw [eraseDups_concat, firstOccurrences_concat, any_eraseDups, ih]

theorem eraseDups_sublist (as : List α) : as.eraseDups.Sublist as := by
  induction as using List.reverseRecOn with
  | nil => exact .refl _
  | append_singleton as a ih =>
    rw [eraseDups_concat]
    split_ifs
    · exact ih.trans (List.sublist_append_left as [a])
    · exact ih.append_right [a]

/-- values of which no two are equal are all kept -/
theorem eraseDups_eq_self [PartialEquivBEq α] (h : as.Pairwise fun a b => (a == b) = false) : as.eraseDups = as := by
  induction as using List.reverseRecOn with
  | nil => rfl
  | append_singleton as a ih =>
    obtain ⟨hbefore, -, hlast⟩ := List.pairwise_append.1 h
    have hnone : ¬ as.any (a == ·) = true := by
      rw [List.any_eq_true]
      rintro ⟨b, hb, hab⟩
      exact absurd (BEq.symm hab) (by simp [hlast b hb a List.mem_cons_self])
    rw [eraseDups_concat, any_eraseDups, if_neg hnone, ih hbefore]

/-- **At most one** of the values equals a given one, where no two of them are equal. -/
theorem countP_eq_one [PartialEquivBEq α] (h : as.Pairwise fun a b => (a == b) = false) {a : α}
    (hany : as.any (a == ·) = true) : as.countP (a == ·) = 1 := by
  induction as with
  | nil => exact absurd hany (by simp)
  | cons b bs ih =>
    obtain ⟨hb, hbs⟩ := List.pairwise_cons.1 h
    rw [List.any_cons] at hany
    cases hab : a == b with
    | false =>
      rw [hab, Bool.false_or] at hany
      rw [List.countP_cons_of_neg (by simp [hab]), ih hbs hany]
    | true =>
      have hrest : bs.countP (a == ·) = 0 := by
        rw [List.countP_eq_zero]
        intro c hc hac
        exact absurd (BEq.trans (BEq.symm hab) hac) (by simp [hb c hc])
      rw [List.countP_cons_of_pos hab, hrest]

/-! ## Equal lists -/

/-- equal values are found in equal lists alike -/
theorem any_beq_congr [PartialEquivBEq α] {a b : α} (h : List.Forall₂ (· == ·) as bs) (hab : (a == b) = true) :
    as.any (a == ·) = bs.any (b == ·) := by
  induction h with
  | nil => rfl
  | @cons c d _ _ hcd _ ih => rw [List.any_cons, List.any_cons, ih, BEq.congr_left hab, BEq.congr_right hcd]

section Hashed

variable [HashFeed α] [LawfulFeed α] {H : Type} [DecidableEq H] {hash : List FeedItem → H}

/-- one more value each: equal ones are both kept or both left out -/
theorem forall₂_addHashed {kept kept' : List α} {a b : α} (h : List.Forall₂ (· == ·) kept kept')
    (hab : (a == b) = true) : List.Forall₂ (· == ·) (addHashed hash kept a) (addHashed hash kept' b) := by
  have hsame : ∀ c : α, sameHashed hash c = (c == ·) := fun c => funext (sameHashed_eq_beq c)
  rw [addHashed, addHashed, hsame, hsame, any_beq_congr h hab]
  split_ifs
  · exact h
  · exact List.rel_append h (.cons hab .nil)

/-- **Equal lists keep equal values.** -/
theorem forall₂_eraseDups (h : List.Forall₂ (· == ·) as bs) :
    List.Forall₂ (· == ·) as.eraseDups bs.eraseDups := by
  have hrun : ∀ kept kept' : List α, List.Forall₂ (· == ·) kept kept' →
      List.Forall₂ (· == ·) (as.foldl (addHashed id) kept) (bs.foldl (addHashed id) kept') := by
    induction h with
    | nil => exact fun _ _ hkept => hkept
    | cons hab _ ih => exact fun kept kept' hkept => ih _ _ (forall₂_addHashed hkept hab)
  have hkeys := hrun [] [] .nil
  rwa [← keysHashed, ← keysHashed, keysHashed_eq, keysHashed_eq] at hkeys

end Hashed

/-! ## Compounds -/

/-- of the given values those are kept that come first among equal ones, whatever the hash of the collection is -/
structure KeepsFirst [HashFeed α] (given kept : List α) : Prop extends KeptOnce given kept where
  firsts : kept = firstOccurrences given
  subsequence : kept.Sublist given
  /-- every value equals exactly one of those kept -/
  represented : ∀ a ∈ given, kept.countP (a == ·) = 1

theorem keepsFirst_eraseDups [HashFeed α] [LawfulFeed α] (as : List α) : KeepsFirst as as.eraseDups where
  toKeptOnce := keptOnce_eraseDups as
  firsts := eraseDups_eq_firstOccurrences as
  subsequence := eraseDups_sublist as
  represented a ha := by
    have hany : as.eraseDups.any (a == ·) = true := by
      rw [any_eraseDups, List.any_eq_true]
      exact ⟨a, ha, BEq.rfl⟩
    exact countP_eq_one (keptOnce_eraseDups as).unequal hany

namespace Instrumentation

/-- compounds are equal iff their parts are, in order -/
theorem compound_beq_iff {ι : Type} [BEq ι] {parts parts' : List (Instrumentation ι)} :
    (compound parts == compound parts') = true ↔ List.Forall₂ (· == ·) parts parts' := by
  show sameParts parts parts' = true ↔ _
  induction parts generalizing parts' with
  | nil => rw [sameParts_nil_iff, List.forall₂_nil_left_iff]
  | cons p ps ih =>
    rw [sameParts_cons_iff, List.forall₂_cons_left_iff]
    simp only [ih]
    constructor
    · rintro ⟨q, qs, rfl, hpq, hrest⟩
      exact ⟨q, qs, hpq, hrest, rfl⟩
    · rintro ⟨q, qs, hpq, hrest, rfl⟩
      exact ⟨q, qs, rfl, hpq, hrest⟩

variable {κ : Type} [DecidableEq κ] [HashFeed κ] {V : κ → Type} [∀ k, BEq (V k)] [∀ k, HashFeed (V k)]

/-- **Compounds without duplicates are exact.** Where the values of every single type can be kept by their hash, the
same holds of dynamic instrumentations and of compounds of them at every depth. The parts that are kept of a compound
are then pairwise unequal, they are those parts that equal no earlier one, in order, and every part equals exactly one
of them. Removing duplicates again changes nothing, a compound equals the one without duplicates iff its parts are
pairwise unequal, and equal compounds are equal without duplicates. -/
theorem distinct_parts_exact (hV : ∀ k, LawfulFeed (V k)) (parts : List (Instrumentation (Dynamic V))) :
    KeepsFirst parts (distinctParts parts) ∧
    distinctParts (distinctParts parts) = distinctParts parts ∧
    ((compound (distinctParts parts) == compound parts) = true ↔ parts.Pairwise fun a b => (a == b) = false) ∧
    ∀ parts', (compound parts == compound parts') = true →
      (compound (distinctParts parts) == compound (distinctParts parts')) = true := by
  have hkept : KeepsFirst parts (distinctParts parts) := keepsFirst_eraseDups parts
  refine ⟨hkept, eraseDups_eq_self hkept.unequal, ⟨fun h => ?_, fun h => ?_⟩, fun parts' h => ?_⟩
  · -- a subsequence as long as the whole is the whole
    have hlength := (compound_beq_iff.1 h).length_eq
    exact hkept.subsequence.eq_of_length hlength ▸ hkept.unequal
  · rw [distinctParts, eraseDups_eq_self h]
    exact BEq.rfl
  · exact compound_beq_iff.2 (forall₂_eraseDups (compound_beq_iff.1 h))

end Instrumentation

/-- of five samples, a nested compound and a leaf of it among them twice, three are kept -/
theorem Samples.repeated_parts_distinct : (∀ k, LawfulFeed (SampleKind.Value k)) ∧
    KeepsFirst repeatedParts (Instrumentation.distinctParts repeatedParts) ∧
    (Instrumentation.distinctParts repeatedParts).length = 3 ∧
    (Instrumentation.compound (Instrumentation.distinctParts repeatedParts) ==
      Instrumentation.compound repeatedParts) = false := by
  have hlawful : ∀ k, LawfulFeed (SampleKind.Value k) := fun _ => inferInstance
  obtain ⟨hkept, -, hsame, -⟩ := Instrumentation.distinct_parts_exact hlawful repeatedParts
  have htwice : ¬ repeatedParts.Pairwise fun a b => (a == b) = false := by decide +kernel
  exact ⟨hlawful, hkept, by decide +kernel, Bool.eq_false_iff.2 fun h => htwice (hsame.1 h)⟩

end CallPlan
