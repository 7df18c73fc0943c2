/-
The step bound of resolution is exact, for every index whatever.

An index may be filled by any handler, so its candidates may lead back to a bridge that was passed before, or out of
the index. Among one look-up more than the index has entries two ask for one token if all of them lead on, and from
then on the walk repeats itself: a walk that is not over by then never is. With one look-up fewer a chain through all
entries would be cut off before its end.

- `asksAgain_of_endless`: a walk without end asks for a token again within the step bound;
- `follow_eq`: with more look-ups than candidates to pass the end is reported, with fewer the walk is cut off;
- `step_bound_exact`: which walks the bound cuts off, and what is reported of all others.
-/
import CallPlan.Proofs.BridgeChain
import CallPlan.Samples.Conflicts

namespace CallPlan

variable {m x : Method} {k n : Nat}

/-! ## Walks that come back -/

namespace BridgeIndex

variable {index : BridgeIndex}

/-- two of the look-ups up to number `n` ask for one token -/
def AsksAgain (index : BridgeIndex) (m : Method) (n : Nat) : Prop :=
  ∃ i j a b, i < j ∧ j ≤ n ∧ lookedUp index m i = some a ∧ lookedUp index m j = some b ∧ a.token = b.token

/-- what comes back to a token once does so for ever -/
theorem endless_of_asksAgain (h : AsksAgain index m n) : Endless index m := by
  obtain ⟨i, j, a, b, hij, -, ha, hb, heq⟩ := h
  rcases BridgeResolver.endsAt_or_endless index m with ⟨k, x, hend⟩ | hendless
  · exact absurd heq (hend.token_ne hij ha hb)
  · exact hendless

/-- **A walk without end comes back within the step bound**, or the index would be hit with more tokens than it has. -/
theorem asksAgain_of_endless (h : Endless index m) : AsksAgain index m index.size := by
  by_contra hnever
  have hle : index.size + 1 ≤ index.size := by
    refine le_size_of_hits (m := m) ?_ fun i _ => ?_
    · intro i j a b hij hj ha hb heq
      exact hnever ⟨i, j, a, b, hij, Nat.le_of_lt_succ hj, ha, hb, heq⟩
    · obtain ⟨a, ha⟩ := Option.isSome_iff_exists.1 (h i)
      obtain ⟨b, hb⟩ := Option.isSome_iff_exists.1 (h (i + 1))
      exact ⟨a, ha, by rw [find?_of_lookedUp_succ ha hb]; rfl⟩
  exact absurd hle (Nat.not_succ_le_self _)

end BridgeIndex

/-! ## The bound -/

namespace BridgeResolver

open BridgeIndex

variable {r : BridgeResolver}

theorem path_tooDeep_iff : (∃ text steps, r.path m = .error (.bridgeChainTooDeep text steps)) ↔ r.index.Endless m := by
  constructor
  · rintro ⟨text, steps, htoo⟩
    rcases endsAt_or_endless r.index m with ⟨k, x, hend⟩ | hendless
    · rw [path_of_endsAt hend] at htoo
      exact absurd htoo (outcome_ne_tooDeep _ text steps)
    · exact hendless
  · intro h
    exact ⟨_, _, path_of_endless h⟩

/-- **How many look-ups a chain needs**: one more than it passes candidates. -/
theorem follow_eq (h : r.index.EndsAt m k x) (n : Nat) :
    follow r.index m [] m n = if k < n then r.path m else .error (.bridgeChainTooDeep m.render n) := by
  split_ifs with hk
  · rw [path_of_endsAt h, follow_of_endsAt h hk, List.nil_append]
  · obtain ⟨c, hc⟩ := exists_lookedUp_of_le (Nat.le_of_not_lt hk) h.isSome
    rw [follow_of_lookedUp (Option.isSome_of_eq_some hc), List.length_nil, Nat.zero_add]

/-- what is reported at the end of a chain, by the entry that the last look-up finds -/
def Reports (r : BridgeResolver) (m : Method) (k : Nat) (x : Method) : Prop :=
  match r.target? x with
  | none => r.path m = .ok (r.index.passed m k) ∧ r.resolve m = .ok x
  | some (.resolved y) => r.path m = .ok (r.index.passed m k ++ [y]) ∧ r.resolve m = .ok y
  | some .unknown => r.path m = .error (.unresolvedBridge x.render) ∧ r.resolve m = .error (.unresolvedBridge x.render)
  | some (.candidate _) => False

theorem reports_of_endsAt (h : r.index.EndsAt m k x) : r.Reports m k x := by
  rw [Reports, path_of_endsAt h, resolve_of_endsAt h, target?, outcome, final]
  split
  · rename_i hnone
    rw [hnone]
    exact ⟨rfl, rfl⟩
  · rename_i y hresolved
    rw [hresolved]
    exact ⟨rfl, rfl⟩
  · rename_i hunknown
    rw [hunknown]
    exact ⟨rfl, rfl⟩
  · rename_i c hcandidate
    exact absurd (h.last.symm.trans (next?_eq_some.2 hcandidate)) (by simp)

/-- **The step bound is exact.** Whatever the index and the method, resolution is too deep iff the walk from candidate
to candidate never ends, which is iff it asks for a token again, and then it does so within the bound and one step more
than the index has entries is reported. Every other walk ends: it looks up at most one token more than the index has
entries, exactly as many look-ups as it makes would have been enough, and what is reported is the entry found last. -/
theorem step_bound_exact (r : BridgeResolver) (m : Method) :
    ((∃ text steps, r.path m = .error (.bridgeChainTooDeep text steps)) ↔ r.index.Endless m) ∧
    (r.index.Endless m ↔ ∃ n, r.index.AsksAgain m n) ∧
    (r.index.Endless m →
      r.index.AsksAgain m r.size ∧ r.path m = .error (.bridgeChainTooDeep m.render (r.size + 1))) ∧
    (¬ r.index.Endless m → ∃ k x, r.index.EndsAt m k x ∧ k + 1 ≤ r.size + 1 ∧ r.Reports m k x ∧
      ∀ n, follow r.index m [] m n = if k < n then r.path m else .error (.bridgeChainTooDeep m.render n)) := by
  refine ⟨path_tooDeep_iff, ⟨fun h => ⟨_, asksAgain_of_endless h⟩, ?_⟩, fun h => ?_, fun h => ?_⟩
  · rintro ⟨n, hagain⟩
    exact endless_of_asksAgain hagain
  · exact ⟨asksAgain_of_endless h, path_of_endless h⟩
  · obtain ⟨k, x, hend⟩ := (endsAt_or_endless r.index m).resolve_right h
    exact ⟨k, x, hend, Nat.succ_le_succ hend.le_size, reports_of_endsAt hend, follow_eq hend⟩

/-- a bridge that a handler makes its own candidate is looked up twice and no more, though it is the only entry -/
theorem loop_step_bound : ∃ t r, Samples.ambiguous >>= (·.type Samples.ambiguousName) = .ok t ∧
    ofType t (Samples.scripted [] (.choose .bridge true)) = .ok r ∧ r.size = 1 ∧
    r.index.Endless Samples.ambiguousBridge ∧
    r.path Samples.ambiguousBridge = .error (.bridgeChainTooDeep Samples.ambiguousBridge.render 2) := by
  obtain ⟨t, ht, htest⟩ := exists_ok_of_any (x := Samples.ambiguous >>= (·.type Samples.ambiguousName))
    (f := fun t => (ofType t (Samples.scripted [] (.choose .bridge true))).toOption.any fun r =>
      r.size == 1 && r.index.next? Samples.ambiguousBridge == some Samples.ambiguousBridge) (by decide +kernel)
  obtain ⟨r, hr, htest⟩ := exists_ok_of_any htest
  rw [Bool.and_eq_true, beq_iff_eq, beq_iff_eq] at htest
  obtain ⟨hsize, hnext⟩ := htest
  obtain ⟨-, hagain, hdeep, -⟩ := step_bound_exact r Samples.ambiguousBridge
  have hloop : lookedUp r.index Samples.ambiguousBridge 1 = some Samples.ambiguousBridge := by
    rw [lookedUp, hnext]
    rfl
  have hendless := hagain.2 ⟨1, 0, 1, _, _, Nat.zero_lt_one, Nat.le_refl 1, rfl, hloop, rfl⟩
  obtain ⟨-, hpath⟩ := hdeep hendless
  rw [hsize] at hpath
  exact ⟨t, r, ht, hr, hsize, hendless, hpath⟩

end BridgeResolver

end CallPlan
