/-
Totals of stack effects.

Effects that follow each other add up to one effect: it ends where the sum of their impacts is, and it reaches as high
as the highest of them does where it stands (`impact_total`, `isGreatest_peak_total`). The start counts as well, so a
total never reaches below it. Where impacts fit 32 bits, no total on the way leaves them.

Following is associative as long as the later effects alone stay below the limit of what peaks are told apart
(`andThen_assoc`): that a peak is never below its own start is made up for by the effect that reaches it, while what
the limit cuts off is lost. So a sequence can be cut in two anywhere but at its end (`total_append`).

- `totals_exact`: sums, peaks and regrouping for every sequence whose sums fit.
-/
import CallPlan.Frame
import Mathlib.Algebra.BigOperators.Group.List.Basic
import Mathlib.Algebra.Ring.Int.Defs
import Mathlib.Data.List.Infix
import Mathlib.Data.List.Induction
import Mathlib.Order.Bounds.Basic

namespace CallPlan

/-- what a signed number of 32 bits holds -/
def FitsSigned (n : Int) : Prop := -0x80000000 ≤ n ∧ n ≤ 0x7fffffff

instance (n : Int) : Decidable (FitsSigned n) := inferInstanceAs (Decidable (_ ∧ _))

namespace StackEffect

variable {effects first rest : List StackEffect} {a b c e : StackEffect}

/-! ## Sums and crests -/

/-- 32 bits hold each of the two numbers -/
structure Representable (e : StackEffect) : Prop where
  impact : FitsSigned e.impact
  peak : e.peak ≤ peakLimit

instance (e : StackEffect) : Decidable e.Representable :=
  decidable_of_iff (FitsSigned e.impact ∧ e.peak ≤ peakLimit) ⟨fun h => ⟨h.1, h.2⟩, fun h => ⟨h.1, h.2⟩⟩

/-- the effect of all of these, one after the other -/
def total (effects : List StackEffect) : StackEffect := effects.foldl andThen zero

/-- where the last of these ends, measured from the start of the first -/
def netImpact (effects : List StackEffect) : Int := (effects.map impact).sum

/-- no sum of the first impacts overflows -/
def SumsFit (effects : List StackEffect) : Prop := ∀ before ∈ effects.inits, FitsSigned (netImpact before)

instance (effects : List StackEffect) : Decidable (SumsFit effects) := List.decidableBAll _ _

/-- how high each of these reaches, measured from the start of the first and as far as peaks are told apart -/
def crests (effects : List StackEffect) : Set Int :=
  {height | ∃ before e after, effects = before ++ e :: after ∧ height = min (netImpact before + e.peak) peakLimit}

/-- none of these reaches above the limit -/
def Unclipped (effects : List StackEffect) : Prop :=
  ∀ before e after, effects = before ++ e :: after → netImpact before + e.peak ≤ peakLimit

theorem total_concat (effects : List StackEffect) (e : StackEffect) :
    total (effects ++ [e]) = (total effects).andThen e := List.foldl_concat _ _ _ _

theorem netImpact_concat (effects : List StackEffect) (e : StackEffect) :
    netImpact (effects ++ [e]) = netImpact effects + e.impact := by
  simp [netImpact]

/-- a place of a longer sequence is a place of the sequence, or its new last one -/
theorem concat_eq_iff {before after : List StackEffect} :
    effects ++ [e] = before ++ a :: after ↔
      (∃ shorter, effects = before ++ a :: shorter ∧ after = shorter ++ [e]) ∨
        effects = before ∧ e = a ∧ after = [] := by
  constructor
  · intro h
    rcases List.eq_nil_or_concat' after with rfl | ⟨shorter, last, rfl⟩
    · obtain ⟨rfl, rfl⟩ := List.append_singleton_inj.1 h
      exact Or.inr ⟨rfl, rfl, rfl⟩
    · rw [← List.cons_append, ← List.append_assoc] at h
      obtain ⟨rfl, rfl⟩ := List.append_singleton_inj.1 h
      exact Or.inl ⟨shorter, rfl, rfl⟩
  · rintro (⟨shorter, rfl, rfl⟩ | ⟨rfl, rfl, rfl⟩)
    · rw [List.append_assoc, List.cons_append]
    · rfl

theorem crests_nil : crests [] = ∅ := by
  simp [crests]

/-- one more effect reaches one more crest -/
theorem crests_concat (effects : List StackEffect) (e : StackEffect) :
    crests (effects ++ [e]) = insert (min (netImpact effects + e.peak) peakLimit) (crests effects) := by
  ext height
  simp only [crests, concat_eq_iff, Set.mem_insert_iff, Set.mem_ofPred_eq]
  constructor
  · rintro ⟨before, x, after, ⟨shorter, rfl, rfl⟩ | ⟨rfl, rfl, rfl⟩, rfl⟩
    · exact Or.inr ⟨before, x, shorter, rfl, rfl⟩
    · exact Or.inl rfl
  · rintro (rfl | ⟨before, x, shorter, rfl, rfl⟩)
    · exact ⟨effects, e, [], Or.inr ⟨rfl, rfl, rfl⟩, rfl⟩
    · exact ⟨before, x, shorter ++ [e], Or.inl ⟨shorter, rfl, rfl⟩, rfl⟩

theorem Unclipped.of_concat (h : Unclipped (effects ++ [e])) :
    Unclipped effects ∧ netImpact effects + e.peak ≤ peakLimit := by
  constructor
  · rintro before x after rfl
    exact h before x (after ++ [e]) (by simp)
  · exact h effects e [] rfl

/-! ## Totals -/

/-- the lower end of the clamp does not show, because no peak is below the start -/
theorem peak_andThen (a b : StackEffect) :
    ((a.andThen b).peak : Int) = max (min (a.impact + b.peak) peakLimit) a.peak := by
  simp only [andThen]
  omega

theorem peak_andThen_le (ha : a.peak ≤ peakLimit) (b : StackEffect) : (a.andThen b).peak ≤ peakLimit := by
  simp only [andThen]
  omega

/-- **A total ends at the sum of the impacts.** -/
theorem impact_total (effects : List StackEffect) : (total effects).impact = netImpact effects := by
  induction effects using List.reverseRecOn with
  | nil => rfl
  | append_singleton effects e ih => rw [total_concat, netImpact_concat, ← ih]; rfl

/-- **A total reaches as high as the highest crest**, or stays at the start. -/
theorem isGreatest_peak_total (effects : List StackEffect) :
    IsGreatest (insert 0 (crests effects)) ((total effects).peak : Int) := by
  induction effects using List.reverseRecOn with
  | nil =>
    rw [crests_nil, insert_empty_eq]
    exact isGreatest_singleton
  | append_singleton effects e ih =>
    rw [total_concat, peak_andThen, impact_total, crests_concat, Set.insert_comm]
    exact ih.insert _

theorem peak_total_le (effects : List StackEffect) : (total effects).peak ≤ peakLimit := by
  induction effects using List.reverseRecOn with
  | nil => exact Nat.zero_le _
  | append_singleton effects e ih => rw [total_concat]; exact peak_andThen_le ih e

/-- where sums fit, so does every total on the way -/
theorem SumsFit.representable (h : SumsFit effects) : ∀ before ∈ effects.inits, (total before).Representable :=
  fun before hbefore => ⟨impact_total before ▸ h before hbefore, peak_total_le before⟩

/-! ## Regrouping -/

/-- **Following is associative** as long as the later two stay below the limit by themselves. -/
theorem andThen_assoc (h : b.impact + c.peak ≤ peakLimit) : (a.andThen b).andThen c = a.andThen (b.andThen c) := by
  have hpeak : (((a.andThen b).andThen c).peak : Int) = (a.andThen (b.andThen c)).peak := by
    calc (((a.andThen b).andThen c).peak : Int)
      _ = max (min (a.impact + b.impact + c.peak) peakLimit) (max (min (a.impact + b.peak) peakLimit) a.peak) := by
        rw [peak_andThen, peak_andThen]; rfl
      _ = max (min (a.impact + max (b.impact + c.peak) b.peak) peakLimit) a.peak := by
        omega
      _ = (a.andThen (b.andThen c)).peak := by
        rw [peak_andThen, peak_andThen, min_eq_left h]
  exact congrArg₂ mk (Int.add_assoc _ _ _) (Int.ofNat.inj hpeak)

theorem zero_andThen (h : e.peak ≤ peakLimit) : zero.andThen e = e := by
  cases e
  simp only [andThen, zero, mk.injEq] at h ⊢
  omega

/-- **A sequence cut in two** is its first part followed by its second, unless the second is empty. -/
theorem total_append (first : List StackEffect) (hrest : rest ≠ []) (hclip : Unclipped rest) :
    total (first ++ rest) = (total first).andThen (total rest) := by
  induction rest using List.reverseRecOn with
  | nil => exact absurd rfl hrest
  | append_singleton rest e ih =>
    obtain ⟨hclipped, hlast⟩ := hclip.of_concat
    rw [← List.append_assoc, total_concat, total_concat]
    rcases List.eq_nil_or_concat' rest with rfl | ⟨shorter, last, rfl⟩
    · have hpeak : e.peak ≤ peakLimit := by simpa [netImpact] using hlast
      rw [List.append_nil]
      exact congrArg _ (zero_andThen hpeak).symm
    · rw [ih (by simp) hclipped]
      exact andThen_assoc (impact_total _ ▸ hlast)

/-- effects that reach where they end add up to one that does -/
theorem impact_total_le_peak (hsums : SumsFit effects) (h : ∀ e ∈ effects, e.impact ≤ e.peak) :
    (total effects).impact ≤ (total effects).peak := by
  rcases List.eq_nil_or_concat' effects with rfl | ⟨before, e, rfl⟩
  · exact le_rfl
  · have hends : netImpact (before ++ [e]) ≤ netImpact before + e.peak := by
      rw [netImpact_concat]
      exact Int.add_le_add_left (h e (by simp)) _
    have hfits : netImpact (before ++ [e]) ≤ peakLimit := by
      obtain ⟨-, htop⟩ := hsums _ ((List.mem_inits _ _).2 (List.prefix_refl _))
      exact htop.trans (by decide)
    have hcrest : min (netImpact before + e.peak) peakLimit ∈ crests (before ++ [e]) := ⟨before, e, [], rfl, rfl⟩
    rw [impact_total]
    exact (le_min hends hfits).trans ((isGreatest_peak_total _).2 (Set.mem_insert_of_mem _ hcrest))

/-! ## All laws -/

/-- what is known of the total of these effects -/
structure TotalLaws (effects : List StackEffect) : Prop where
  /-- nothing overflows on the way -/
  representable : ∀ before ∈ effects.inits, (total before).Representable
  impact : (total effects).impact = netImpact effects
  peak : IsGreatest (insert 0 (crests effects)) ((total effects).peak : Int)
  /-- a later part that neither overflows nor is cut off can be added up first -/
  regroup : ∀ first rest, effects = first ++ rest → rest ≠ [] → SumsFit rest → Unclipped rest →
    (∀ before ∈ rest.inits, (total before).Representable) ∧ total effects = (total first).andThen (total rest)
  impact_le_peak : (∀ e ∈ effects, e.impact ≤ e.peak) → (total effects).impact ≤ (total effects).peak

/-- **Totals are exact** for every sequence of effects whose sums fit. -/
theorem totals_exact (hsums : SumsFit effects) : TotalLaws effects where
  representable := hsums.representable
  impact := impact_total effects
  peak := isGreatest_peak_total effects
  regroup := by
    rintro first rest rfl hrest hsumsRest hclip
    exact ⟨hsumsRest.representable, total_append first hrest hclip⟩
  impact_le_peak := impact_total_le_peak hsums

/-- two slots pushed, one taken away with a slot in between, and an effect that reaches the limit by itself -/
def toTheLimit : List StackEffect := [ofImpact 2, ⟨-1, 1⟩, ⟨1, peakLimit⟩]

/-- the last crest is cut off in the whole, while the last two effects alone stay below the limit -/
theorem toTheLimit_totals : SumsFit toTheLimit ∧ TotalLaws toTheLimit ∧ (∀ e ∈ toTheLimit, e.Representable) ∧
    total toTheLimit = ⟨2, peakLimit⟩ ∧ (total (toTheLimit.drop 1)).peak = 0xfffffffe := by
  have hsums : SumsFit toTheLimit := by decide
  exact ⟨hsums, totals_exact hsums, by decide, by decide, by decide⟩

/-- a later part that is cut off cannot be added up first -/
example : total [⟨-1, 0⟩, ⟨1, 1⟩, ⟨0, peakLimit⟩] ≠ (total [⟨-1, 0⟩]).andThen (total [⟨1, 1⟩, ⟨0, peakLimit⟩]) := by
  decide

/-- nor can an empty part be cut off, where the rest ends above its peak -/
example : total ([⟨3, 0⟩] ++ []) ≠ (total [⟨3, 0⟩]).andThen (total []) := by decide

end StackEffect

end CallPlan
