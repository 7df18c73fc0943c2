/-
The bridge index, entry by entry.

The index is filled bridge by bridge, and a later bridge of one token overwrites an earlier one. Since a bridge's
target depends on nothing but the pool and the bridge, an entry is the target of the last reachable bridge of its
token (`find?_bridgeIndex`). A type that declares no token twice has one reachable bridge at most per token, so its
index is the table of all bridge targets (`find?_bridgeIndex_of_mem`), and it has no entry for the token of a
reachable method that is no bridge (`find?_bridgeIndex_of_plain`).

The named policies never follow a conflict: their candidates are the single candidates (`bridgeTarget_policy`).
-/
import CallPlan.Proofs.Reachable

namespace CallPlan

/-- a computation in two steps succeeds when both steps do -/
theorem bind_eq_ok {ε α β : Type} {x : Except ε α} {f : α → Except ε β} {b : β} :
    x >>= f = .ok b ↔ ∃ a, x = .ok a ∧ f a = .ok b := by
  cases x with
  | error e =>
    constructor
    · rintro ⟨⟩
    · rintro ⟨_, ⟨⟩, _⟩
  | ok a =>
    constructor
    · intro h
      exact ⟨a, rfl, h⟩
    · rintro ⟨_, ⟨⟩, hf⟩
      exact hf

/-- a computation in two steps fails when the first step does, or the second after it -/
theorem bind_eq_error {ε α β : Type} {x : Except ε α} {f : α → Except ε β} {e : ε} :
    x >>= f = .error e ↔ x = .error e ∨ ∃ a, x = .ok a ∧ f a = .error e := by
  cases x with
  | error e' =>
    constructor
    · intro h
      exact Or.inl (congrArg Except.error (Except.error.inj h))
    · rintro (⟨⟨⟩⟩ | ⟨_, ⟨⟩, _⟩)
      rfl
  | ok a =>
    constructor
    · intro h
      exact Or.inr ⟨a, rfl, h⟩
    · rintro (⟨⟨⟩⟩ | ⟨_, ⟨⟩, hf⟩)
      exact hf

/-- a computation whose result passes a test succeeds -/
theorem exists_ok_of_any {ε α : Type} {x : Except ε α} {f : α → Bool} (h : x.toOption.any f = true) :
    ∃ a, x = .ok a ∧ f a = true := by
  cases x with
  | error e => exact absurd h (by simp [Except.toOption])
  | ok a => exact ⟨a, rfl, h⟩

theorem exists_ok_of_isOk {ε α : Type} {x : Except ε α} (h : x.isOk = true) : ∃ a, x = .ok a := by
  cases x with
  | error e => exact absurd h (by simp [Except.isOk, Except.toBool])
  | ok a => exact ⟨a, rfl⟩

/-! ## Targets -/

/-- where a named policy lets resolution go from a bridge -/
theorem bridgeTarget_policy {p : Pool} {policy : ConflictPolicy} {b : Method} {target : BridgeTarget}
    (h : bridgeTarget p policy.handler b = .ok target) :
    target = .resolved b ∨ target = .unknown ∨ ∃ c, bridgeCandidates p b = [c] ∧ target = .candidate c := by
  unfold bridgeTarget at h
  split at h
  · exact Or.inl (Except.ok.inj h).symm
  · rename_i c hc
    exact Or.inr (Or.inr ⟨c, hc, (Except.ok.inj h).symm⟩)
  · cases policy with
    | failFast => exact absurd h (by simp [ConflictPolicy.handler])
    | failOnRequest => exact Or.inr (Or.inl (Except.ok.inj h).symm)
    | callBridge => exact Or.inl (Except.ok.inj h).symm

/-! ## Entries -/

namespace KnownType

variable {t : KnownType} {handler : ConflictHandler} {index : BridgeIndex}

/-- filling the index from `bridges` leaves the entries of other tokens and overwrites those of theirs -/
theorem find?_fill {p : Pool} {bridges : List Method} {start : BridgeIndex}
    (h : bridges.foldlM (fun (index : BridgeIndex) bridge => do
      return index.insert bridge.token (← bridgeTarget p handler bridge)) start = .ok index) (token : MethodToken) :
    match bridges.reverse.find? (·.token == token) with
    | none => index.find? token = start.find? token
    | some b => ∃ target, bridgeTarget p handler b = .ok target ∧ index.find? token = some target := by
  induction bridges generalizing start with
  | nil =>
    obtain rfl : start = index := Except.ok.inj h
    rfl
  | cons b bridges ih =>
    rw [List.foldlM_cons] at h
    obtain ⟨next, hnext, hrest⟩ := bind_eq_ok.1 h
    obtain ⟨target, htarget, hins⟩ := bind_eq_ok.1 hnext
    obtain rfl : start.insert b.token target = next := Except.ok.inj hins
    have hlater := ih hrest
    rw [List.reverse_cons, List.find?_append]
    cases hfind : bridges.reverse.find? (·.token == token) with
    | some c => simpa [hfind] using hlater
    | none =>
      rw [hfind] at hlater
      have hlater : index.find? token = (start.insert b.token target).find? token := hlater
      rw [Table.find?_insert] at hlater
      by_cases hb : b.token = token
      · simpa [hb] using ⟨target, htarget, by simpa [hb] using hlater⟩
      · simpa [hb] using hlater

/-- **An entry is the target of the last reachable bridge of its token.** -/
theorem find?_bridgeIndex (h : t.bridgeIndex handler = .ok index) (token : MethodToken) :
    match t.reachableBridges.reverse.find? (·.token == token) with
    | none => index.find? token = none
    | some b => ∃ target, bridgeTarget t.pool handler b = .ok target ∧ index.find? token = some target :=
  find?_fill h token

theorem exists_bridge_of_find? (h : t.bridgeIndex handler = .ok index) {token : MethodToken} {target : BridgeTarget}
    (hfind : index.find? token = some target) :
    ∃ b ∈ t.reachableBridges, b.token = token ∧ bridgeTarget t.pool handler b = .ok target := by
  have hentry := find?_bridgeIndex h token
  cases hlast : t.reachableBridges.reverse.find? (·.token == token) with
  | none =>
    rw [hlast] at hentry
    exact absurd (hfind.symm.trans hentry) (by simp)
  | some b =>
    rw [hlast] at hentry
    obtain ⟨target', htarget, hfound⟩ := hentry
    obtain rfl : target = target' := Option.some.inj (hfind.symm.trans hfound)
    exact ⟨b, List.mem_reverse.1 (List.mem_of_find?_eq_some hlast), by simpa using List.find?_some hlast, htarget⟩

theorem find?_bridgeIndex_eq_none (h : t.bridgeIndex handler = .ok index) {token : MethodToken}
    (hnone : ∀ b ∈ t.reachableBridges, b.token ≠ token) : index.find? token = none := by
  have hentry := find?_bridgeIndex h token
  have hlast : t.reachableBridges.reverse.find? (·.token == token) = none := by
    rw [List.find?_eq_none]
    intro b hb
    simpa using hnone b (List.mem_reverse.1 hb)
  rwa [hlast] at hentry

theorem mem_reachableBridges {b : Method} : b ∈ t.reachableBridges ↔ b ∈ t.reachableMethods ∧ b.isBridge = true :=
  List.mem_filter

/-- with distinct tokens every reachable bridge has its own target in the index -/
theorem find?_bridgeIndex_of_mem (h : t.bridgeIndex handler = .ok index)
    (htok : (t.declaredMethods.map Method.token).Nodup) {b : Method} (hb : b ∈ t.reachableBridges) :
    ∃ target, bridgeTarget t.pool handler b = .ok target ∧ index.find? b.token = some target := by
  have hentry := find?_bridgeIndex h b.token
  cases hlast : t.reachableBridges.reverse.find? (·.token == b.token) with
  | none =>
    rw [List.find?_eq_none] at hlast
    exact absurd (by simp) (hlast b (List.mem_reverse.2 hb))
  | some c =>
    rw [hlast] at hentry
    have hc : c ∈ t.reachableBridges := List.mem_reverse.1 (List.mem_of_find?_eq_some hlast)
    have heq : c.token = b.token := by simpa using List.find?_some hlast
    obtain rfl : c = b := List.inj_on_of_nodup_map (reachableMethods_nodup htok)
      (mem_reachableBridges.1 hc).1 (mem_reachableBridges.1 hb).1 heq
    exact hentry

/-- with distinct tokens the index has no entry for a reachable method that is no bridge -/
theorem find?_bridgeIndex_of_plain (h : t.bridgeIndex handler = .ok index)
    (htok : (t.declaredMethods.map Method.token).Nodup) {m : Method} (hm : m ∈ t.reachableMethods)
    (hplain : m.isBridge = false) : index.find? m.token = none := by
  refine find?_bridgeIndex_eq_none h fun b hb heq => ?_
  obtain ⟨hreach, hbridge⟩ := mem_reachableBridges.1 hb
  obtain rfl : b = m := List.inj_on_of_nodup_map (reachableMethods_nodup htok) hreach hm heq
  rw [hplain] at hbridge
  exact absurd hbridge (by decide)

/-- under a named policy resolution stays at a bridge only with the bridge itself -/
theorem mem_of_find?_resolved {policy : ConflictPolicy} (h : t.bridgeIndex policy.handler = .ok index)
    {token : MethodToken} {y : Method} (hfind : index.find? token = some (.resolved y)) :
    y ∈ t.reachableBridges ∧ y.token = token := by
  obtain ⟨b, hb, htoken, htarget⟩ := exists_bridge_of_find? h hfind
  rcases bridgeTarget_policy htarget with heq | heq | ⟨c, -, heq⟩
  · obtain rfl := BridgeTarget.resolved.inj heq
    exact ⟨hb, htoken⟩
  · exact absurd heq (by simp)
  · exact absurd heq (by simp)

end KnownType

end CallPlan
