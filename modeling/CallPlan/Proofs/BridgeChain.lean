/-
Chains of bridges end.

Resolution is a walk from candidate to candidate: `BridgeIndex.lookedUp index m k` is the method whose token the
look-up number `k` asks for. The walk depends on tokens only, so a chain that comes to an end never asks for one token
twice (`EndsAt.token_ne`); all its look-ups but the last hit the index, hence it ends within `size + 1` of them and
`path` reports what the last look-up says (`path_of_endsAt`).

In an acyclic hierarchy whose root class has no parents every hit narrows the token strictly, provided that no type
declares a token twice. A bridge and its candidates are declared by one type, whatever type the method looked up was
declared by, so this holds of indexes that mix the bridges of many types. More than `size` strictly narrowing hits
would be more tokens than the index has, so every chain ends.

- `path_never_too_deep`: under these conditions every method has a path, of at most `size` methods, over pairwise
  distinct tokens, or meets an unresolved bridge; the step bound is never reached.
-/
import CallPlan.Proofs.BridgeIndex
import CallPlan.Samples.Pools
import Mathlib.Data.List.Nodup
import Mathlib.Data.List.Range
import Mathlib.Data.List.Perm.Subperm

namespace CallPlan

/-- as many distinct keys as a table answers are at most its size -/
theorem Table.le_size_of_distinct {κ α : Type} [BEq κ] [LawfulBEq κ] (t : Table κ α) {f : Nat → κ} {n : Nat}
    (hdist : ∀ i j, i < j → j < n → f i ≠ f j) (hhit : ∀ i < n, (t.find? (f i)).isSome) : n ≤ t.size := by
  have hnodup : ((List.range n).map f).Nodup := by
    refine List.Nodup.map_on ?_ List.nodup_range
    intro i hi j hj heq
    rcases Nat.lt_trichotomy i j with h | h | h
    · exact absurd heq (hdist i j h (List.mem_range.1 hj))
    · exact h
    · exact absurd heq.symm (hdist j i h (List.mem_range.1 hi))
  have hkeys : (List.range n).map f ⊆ t.keys := by
    intro k hk
    obtain ⟨i, hi, rfl⟩ := List.mem_map.1 hk
    have hsome := hhit i (List.mem_range.1 hi)
    rw [Table.find?, Option.isSome_map, Table.entry?, List.find?_isSome] at hsome
    obtain ⟨e, he, hek⟩ := hsome
    exact List.mem_map.2 ⟨e, he, eq_of_beq hek⟩
  have hle := (hnodup.subperm hkeys).length_le
  simpa [Table.keys, Table.size] using hle

namespace BridgeIndex

variable {index : BridgeIndex} {m a b x : Method} {i j k n : Nat}

/-! ## The walk from candidate to candidate -/

/-- the candidate that the index leads on to -/
def next? (index : BridgeIndex) (m : Method) : Option Method :=
  match index.find? m.token with
  | some (.candidate c) => some c
  | _ => none

/-- the method whose token is looked up at number `k`, when resolution starts at `m` -/
def lookedUp (index : BridgeIndex) (m : Method) : Nat → Option Method
  | 0 => some m
  | k + 1 => (next? index m).bind fun c => lookedUp index c k

/-- the candidates passed before the look-up number `k` -/
def passed (index : BridgeIndex) (m : Method) : Nat → List Method
  | 0 => []
  | k + 1 =>
    match next? index m with
    | none => []
    | some c => c :: passed index c k

/-- what is reported when the chain ends at `x`, having passed these candidates -/
def outcome (index : BridgeIndex) (passed : List Method) (x : Method) : Except Error (List Method) :=
  match index.find? x.token with
  | some (.resolved y) => .ok (passed ++ [y])
  | some .unknown => .error (.unresolvedBridge x.render)
  | _ => .ok passed

/-- the method to call when the chain ends at `x` -/
def final (index : BridgeIndex) (x : Method) : Except Error Method :=
  match index.find? x.token with
  | some (.resolved y) => .ok y
  | some .unknown => .error (.unresolvedBridge x.render)
  | _ => .ok x

/-- the look-up number `k` is made for `x` and leads no further -/
structure EndsAt (index : BridgeIndex) (m : Method) (k : Nat) (x : Method) : Prop where
  reached : lookedUp index m k = some x
  last : next? index x = none

/-- every look-up leads on to another one -/
def Endless (index : BridgeIndex) (m : Method) : Prop := ∀ k, (lookedUp index m k).isSome

theorem next?_eq_some {c : Method} : next? index m = some c ↔ index.find? m.token = some (.candidate c) := by
  unfold next?
  split
  · rename_i d hd
    rw [hd]
    simp
  · rename_i hne
    constructor
    · intro h
      exact absurd h (by simp)
    · intro h
      exact absurd h (hne c)

/-- where the walk goes depends on the token only -/
theorem next?_congr (h : a.token = b.token) : next? index a = next? index b := by
  simp only [next?, h]

theorem lookedUp_congr (h : a.token = b.token) (k : Nat) : lookedUp index a (k + 1) = lookedUp index b (k + 1) := by
  simp only [lookedUp, next?_congr h]

theorem lookedUp_add (i j : Nat) : lookedUp index m (i + j) = (lookedUp index m i).bind (lookedUp index · j) := by
  induction i generalizing m with
  | zero => simp [lookedUp]
  | succ i ih =>
    rw [Nat.succ_add, lookedUp, lookedUp]
    cases hm : next? index m with
    | none => rfl
    | some c => exact ih

theorem lookedUp_succ (k : Nat) : lookedUp index m (k + 1) = (lookedUp index m k).bind (next? index) := by
  rw [lookedUp_add]
  congr 1
  funext c
  cases hc : next? index c <;> simp [lookedUp, hc]

theorem exists_lookedUp_of_le (hij : i ≤ j) (hj : (lookedUp index m j).isSome) : ∃ c, lookedUp index m i = some c := by
  obtain ⟨d, rfl⟩ := Nat.exists_eq_add_of_le hij
  rw [lookedUp_add] at hj
  cases hi : lookedUp index m i with
  | none => rw [hi] at hj; exact absurd hj (by simp)
  | some c => exact ⟨c, rfl⟩

/-- a chain that is over has ended somewhere before -/
theorem exists_endsAt (h : lookedUp index m n = none) : ∃ k < n, ∃ x, EndsAt index m k x := by
  induction n with
  | zero => exact absurd h (by simp [lookedUp])
  | succ n ih =>
    cases hn : lookedUp index m n with
    | none =>
      obtain ⟨k, hk, x, hx⟩ := ih hn
      exact ⟨k, Nat.lt_succ_of_lt hk, x, hx⟩
    | some x =>
      rw [lookedUp_succ, hn] at h
      exact ⟨n, Nat.lt_succ_self n, x, hn, h⟩

/-- every look-up but the last hits a candidate -/
theorem find?_of_lookedUp_succ (ha : lookedUp index m i = some a) (hb : lookedUp index m (i + 1) = some b) :
    index.find? a.token = some (.candidate b) := by
  rw [lookedUp_succ, ha] at hb
  exact next?_eq_some.1 hb

theorem EndsAt.isSome (h : EndsAt index m k x) : (lookedUp index m k).isSome := Option.isSome_of_eq_some h.reached

theorem EndsAt.le_of_lookedUp (h : EndsAt index m k x) (hj : lookedUp index m j = some b) : j ≤ k := by
  by_contra hlt
  obtain ⟨c, hc⟩ := exists_lookedUp_of_le (Nat.lt_of_not_le hlt) (Option.isSome_of_eq_some hj)
  rw [lookedUp_succ, h.reached] at hc
  exact absurd (h.last.symm.trans hc) (by simp)

/-- **A chain that ends asks for no token twice.** -/
theorem EndsAt.token_ne (h : EndsAt index m k x) (hij : i < j) (ha : lookedUp index m i = some a)
    (hb : lookedUp index m j = some b) : a.token ≠ b.token := by
  intro heq
  obtain ⟨d, rfl⟩ := Nat.exists_eq_add_of_le (h.le_of_lookedUp hb)
  -- from `b` the chain ends after `d` more steps, and so it would from `a`, where it has more to go
  have hend : lookedUp index b (d + 1) = none := by
    have hreach := h.reached
    rw [lookedUp_add, hb] at hreach
    have hreach : lookedUp index b d = some x := hreach
    rw [lookedUp_succ, hreach]
    exact h.last
  rw [← lookedUp_congr heq] at hend
  obtain ⟨c, hc⟩ := exists_lookedUp_of_le (i := i + (d + 1)) (by omega) h.isSome
  rw [lookedUp_add, ha] at hc
  exact absurd (hend.symm.trans hc) (by simp)

/-! ## Counting look-ups -/

/-- the token looked up at number `k`; that of `m` once the chain is over -/
def tokenAt (index : BridgeIndex) (m : Method) (k : Nat) : MethodToken := ((lookedUp index m k).getD m).token

/-- distinct tokens that all hit the index are at most as many as it has entries -/
theorem le_size_of_hits (hdist : ∀ i j a b, i < j → j < n → lookedUp index m i = some a → lookedUp index m j = some b →
      a.token ≠ b.token)
    (hhit : ∀ i < n, ∃ a, lookedUp index m i = some a ∧ (index.find? a.token).isSome) : n ≤ index.size := by
  refine index.le_size_of_distinct (f := tokenAt index m) ?_ ?_
  · intro i j hij hj
    obtain ⟨a, ha, -⟩ := hhit i (Nat.lt_trans hij hj)
    obtain ⟨b, hb, -⟩ := hhit j hj
    simpa [tokenAt, ha, hb] using hdist i j a b hij hj ha hb
  · intro i hi
    obtain ⟨a, ha, hsome⟩ := hhit i hi
    simpa [tokenAt, ha] using hsome

theorem EndsAt.hit (h : EndsAt index m k x) (hi : i < k) :
    ∃ a, lookedUp index m i = some a ∧ (index.find? a.token).isSome := by
  obtain ⟨a, ha⟩ := exists_lookedUp_of_le (Nat.le_of_lt hi) h.isSome
  obtain ⟨b, hb⟩ := exists_lookedUp_of_le hi h.isSome
  exact ⟨a, ha, by rw [find?_of_lookedUp_succ ha hb]; rfl⟩

theorem EndsAt.le_size (h : EndsAt index m k x) : k ≤ index.size :=
  le_size_of_hits (fun _ _ _ _ hij _ => h.token_ne hij) fun _ => h.hit

/-- a chain whose last look-up is a hit as well is shorter still -/
theorem EndsAt.lt_size (h : EndsAt index m k x) (hx : (index.find? x.token).isSome) : k < index.size := by
  refine le_size_of_hits (n := k + 1) (fun _ _ _ _ hij _ => h.token_ne hij) fun i hi => ?_
  rcases Nat.lt_succ_iff_lt_or_eq.1 hi with hlt | rfl
  · exact h.hit hlt
  · exact ⟨x, h.reached, hx⟩

theorem length_passed (h : (lookedUp index m k).isSome) : (passed index m k).length = k := by
  induction k generalizing m with
  | zero => rfl
  | succ k ih =>
    rw [lookedUp] at h
    cases hm : next? index m with
    | none => rw [hm] at h; exact absurd h (by simp)
    | some c =>
      rw [hm] at h
      simp [passed, hm, ih h]

/-- the candidate passed last is the method looked up next -/
theorem getLastD_passed (h : lookedUp index m k = some x) : (passed index m k).getLastD m = x := by
  induction k generalizing m with
  | zero => exact Option.some.inj h
  | succ k ih =>
    rw [lookedUp] at h
    cases hm : next? index m with
    | none => rw [hm] at h; exact absurd h (by simp)
    | some c =>
      rw [hm] at h
      rw [passed, hm, List.getLastD_cons]
      exact ih h

/-- **What is reported is at most as long as the index.** -/
theorem EndsAt.length_outcome_le (h : EndsAt index m k x) {methods : List Method}
    (hok : outcome index (passed index m k) x = .ok methods) : methods.length ≤ index.size := by
  have hlen : (passed index m k).length = k := length_passed h.isSome
  unfold outcome at hok
  split at hok
  · rename_i y hy
    obtain rfl := Except.ok.inj hok
    have hlt := h.lt_size (hy ▸ rfl)
    simp only [List.length_append, List.length_singleton, hlen]
    exact hlt
  · exact absurd hok (by simp)
  · obtain rfl := Except.ok.inj hok
    rw [hlen]
    exact h.le_size

end BridgeIndex

/-! ## Resolution follows the walk -/

namespace BridgeResolver

open BridgeIndex

variable {index : BridgeIndex} {m x : Method} {k n : Nat}

/-- with look-ups to spare the end of the chain is reported -/
theorem follow_of_endsAt (h : index.EndsAt m k x) (hk : k < n) (start : Method) (before : List Method) :
    follow index start before m n = index.outcome (before ++ index.passed m k) x := by
  induction k generalizing m n before with
  | zero =>
    obtain ⟨n, rfl⟩ := Nat.exists_eq_succ_of_ne_zero (Nat.ne_of_gt hk)
    obtain rfl : m = x := Option.some.inj h.reached
    have hlast := h.last
    unfold next? at hlast
    simp only [follow, outcome, passed, List.append_nil]
    cases hm : index.find? m.token with
    | none => rfl
    | some target =>
      cases target with
      | candidate c => rw [hm] at hlast; exact absurd hlast (by simp)
      | resolved _ => rfl
      | unknown => rfl
  | succ k ih =>
    obtain ⟨n, rfl⟩ := Nat.exists_eq_succ_of_ne_zero (Nat.ne_of_gt (Nat.lt_of_le_of_lt (Nat.zero_le _) hk))
    have hreach := h.reached
    rw [lookedUp] at hreach
    cases hm : next? index m with
    | none => rw [hm] at hreach; exact absurd hreach (by simp)
    | some c =>
      rw [hm] at hreach
      have hrest := ih ⟨hreach, h.last⟩ (Nat.lt_of_succ_lt_succ hk) (before ++ [c])
      rw [follow, next?_eq_some.1 hm]
      simpa [passed, hm] using hrest

/-- **The path of a chain that ends** is what its last look-up reports, for the step bound is never reached. -/
theorem path_of_endsAt {r : BridgeResolver} (h : r.index.EndsAt m k x) :
    r.path m = r.index.outcome (r.index.passed m k) x := by
  have hpath := follow_of_endsAt h (Nat.lt_succ_of_le h.le_size) m []
  rwa [List.nil_append] at hpath

/-- **What a chain that ends resolves to** depends on its last look-up only. -/
theorem resolve_of_endsAt {r : BridgeResolver} (h : r.index.EndsAt m k x) : r.resolve m = r.index.final x := by
  have hlast := getLastD_passed h.reached
  rw [resolve, path_of_endsAt h, outcome, final]
  split
  · show Except.ok ((r.index.passed m k ++ [_]).getLastD m) = _
    rw [List.getLastD_concat]
  · rfl
  · show Except.ok ((r.index.passed m k).getLastD m) = _
    rw [hlast]

/-- a chain that is followed without error ends -/
theorem endsAt_of_follow {start : Method} {before ms : List Method} (h : follow index start before m n = .ok ms) :
    ∃ k x, index.EndsAt m k x := by
  induction n generalizing m before with
  | zero => exact absurd h (by simp [follow])
  | succ n ih =>
    cases hm : next? index m with
    | none => exact ⟨0, m, rfl, hm⟩
    | some c =>
      rw [follow, next?_eq_some.1 hm] at h
      obtain ⟨k, x, hreached, hlast⟩ := ih h
      exact ⟨k + 1, x, by rw [lookedUp, hm]; exact hreached, hlast⟩

/-- a walk that still leads on when the look-ups are used up is cut off -/
theorem follow_of_lookedUp (h : (lookedUp index m n).isSome) (start : Method) (before : List Method) :
    follow index start before m n = .error (.bridgeChainTooDeep start.render (before.length + n)) := by
  induction n generalizing m before with
  | zero => rfl
  | succ n ih =>
    rw [lookedUp] at h
    cases hm : next? index m with
    | none => rw [hm] at h; exact absurd h (by simp)
    | some c =>
      rw [hm] at h
      rw [follow, next?_eq_some.1 hm]
      show follow index start (before ++ [c]) c n = _
      rw [ih h, List.length_append, List.length_singleton, Nat.add_assoc, Nat.add_comm 1 n]

/-- **A walk without end** is cut off after one look-up more than the index has entries. -/
theorem path_of_endless {r : BridgeResolver} (h : r.index.Endless m) :
    r.path m = .error (.bridgeChainTooDeep m.render (r.size + 1)) := by
  rw [path, follow_of_lookedUp (h (r.size + 1)), List.length_nil, Nat.zero_add]

theorem resolve_of_endless {r : BridgeResolver} (h : r.index.Endless m) :
    r.resolve m = .error (.bridgeChainTooDeep m.render (r.size + 1)) := by
  rw [resolve, path_of_endless h]
  rfl

/-- a chain ends or never does -/
theorem endsAt_or_endless (index : BridgeIndex) (m : Method) : (∃ k x, index.EndsAt m k x) ∨ index.Endless m := by
  by_cases h : ∃ k, lookedUp index m k = none
  · obtain ⟨n, hn⟩ := h
    obtain ⟨k, -, x, hx⟩ := exists_endsAt hn
    exact Or.inl ⟨k, x, hx⟩
  · exact Or.inr fun k => Option.isSome_iff_ne_none.2 fun hk => h ⟨k, hk⟩

theorem endsAt_of_resolve {r : BridgeResolver} {c : Method} (h : r.resolve m = .ok c) :
    ∃ k x, r.index.EndsAt m k x ∧ r.index.final x = .ok c := by
  obtain ⟨ms, hpath, -⟩ := bind_eq_ok.1 h
  obtain ⟨k, x, hend⟩ := endsAt_of_follow hpath
  exact ⟨k, x, hend, (resolve_of_endsAt hend).symm.trans h⟩

theorem outcome_ne_tooDeep (before : List Method) (text : String) (steps : Nat) :
    index.outcome before x ≠ .error (.bridgeChainTooDeep text steps) := by
  unfold outcome
  split <;> simp

/-- resolving fails only as the path does -/
theorem resolve_eq_error {r : BridgeResolver} {e : Error} (h : r.resolve m = .error e) : r.path m = .error e := by
  unfold resolve at h
  cases hp : r.path m with
  | ok methods => rw [hp] at h; exact absurd h (by simp [bind, Except.bind, pure, Except.pure])
  | error e' => rw [hp] at h; exact congrArg Except.error (Except.error.inj h)

/-! ## Every hit narrows -/

/-- what a named policy's index leads on to is a candidate of a reachable bridge of the token looked up -/
theorem candidate_of_next? {t : KnownType} {policy : ConflictPolicy} {c : Method}
    (h : t.bridgeIndex policy.handler = .ok index) (hc : index.next? m = some c) :
    ∃ b ∈ t.reachableBridges, b.token = m.token ∧ c ∈ bridgeCandidates t.pool b := by
  obtain ⟨b, hb, htoken, htarget⟩ := KnownType.exists_bridge_of_find? h (next?_eq_some.1 hc)
  refine ⟨b, hb, htoken, ?_⟩
  rcases bridgeTarget_policy htarget with heq | heq | ⟨d, hd, heq⟩
  · exact absurd heq (by simp)
  · exact absurd heq (by simp)
  · obtain rfl := BridgeTarget.candidate.inj heq
    rw [hd]
    exact List.mem_singleton.2 rfl

theorem strictlyNarrows_of_next? {t : KnownType} {policy : ConflictPolicy} (htok : t.pool.TokensDistinct)
    (h : t.bridgeIndex policy.handler = .ok index) {c : Method} (hc : index.next? m = some c) :
    t.pool.StrictlyNarrows c.token m.token := by
  obtain ⟨b, hb, htoken, hcand⟩ := candidate_of_next? h hc
  obtain ⟨hreach, hbridge⟩ := KnownType.mem_reachableBridges.1 hb
  obtain ⟨d, hd, hmem⟩ := KnownType.find?_owner_of_reachable hreach
  rw [← htoken]
  exact Pool.strictlyNarrows_of_candidate htok hd hmem hbridge hcand

/-- later look-ups are for strictly narrower tokens -/
theorem strictlyNarrows_of_lookedUp {p : Pool} (hac : p.Acyclic) (hroot : p.RootIsTop)
    (hstep : ∀ m c, index.next? m = some c → p.StrictlyNarrows c.token m.token) {i j : Nat} {a b : Method}
    (hij : i < j) (ha : index.lookedUp m i = some a) (hb : index.lookedUp m j = some b) :
    p.StrictlyNarrows b.token a.token := by
  induction j generalizing b with
  | zero => exact absurd hij (Nat.not_lt_zero i)
  | succ j ih =>
    rw [lookedUp_succ] at hb
    obtain ⟨c, hc, hcb⟩ := Option.bind_eq_some_iff.1 hb
    rcases Nat.lt_succ_iff_lt_or_eq.1 hij with hlt | rfl
    · exact (hstep c b hcb).trans hroot hac (ih hlt hc)
    · obtain rfl : a = c := Option.some.inj (ha.symm.trans hc)
      exact hstep a b hcb

/-- **Every chain ends**, or the index would be hit with more tokens than it has. -/
theorem exists_endsAt_of_narrowing {p : Pool} (hac : p.Acyclic) (hroot : p.RootIsTop)
    (hstep : ∀ m c, index.next? m = some c → p.StrictlyNarrows c.token m.token) (m : Method) :
    ∃ k x, index.EndsAt m k x := by
  cases hn : index.lookedUp m (index.size + 1) with
  | none =>
    obtain ⟨k, -, x, hx⟩ := exists_endsAt hn
    exact ⟨k, x, hx⟩
  | some y =>
    have hle : index.size + 1 ≤ index.size := by
      refine le_size_of_hits (m := m) (fun i j a b hij _ ha hb => ?_) fun i hi => ?_
      · exact (strictlyNarrows_of_lookedUp hac hroot hstep hij ha hb).2.symm
      · obtain ⟨a, ha⟩ := exists_lookedUp_of_le (Nat.le_of_lt hi) (Option.isSome_of_eq_some hn)
        obtain ⟨b, hb⟩ := exists_lookedUp_of_le hi (Option.isSome_of_eq_some hn)
        exact ⟨a, ha, by rw [find?_of_lookedUp_succ ha hb]; rfl⟩
    exact absurd hle (Nat.not_succ_le_self _)

/-! ## Main result -/

/-- **Bridge resolution ends.** In an acyclic hierarchy whose root class has no parents and whose types declare no
token twice, whatever the layers, the type, the policy and the method: neither the path nor the resolution of a method
is ever too deep, no two look-ups ask for one token, and the path is at most as long as the index. -/
theorem path_never_too_deep (t : KnownType) (hac : t.pool.Acyclic) (hroot : t.pool.RootIsTop)
    (htok : t.pool.TokensDistinct) (policy : ConflictPolicy) (r : BridgeResolver)
    (hr : BridgeResolver.ofType t policy.handler = .ok r) (m : Method) :
    (∀ text steps, r.path m ≠ .error (.bridgeChainTooDeep text steps)) ∧
    (∀ text steps, r.resolve m ≠ .error (.bridgeChainTooDeep text steps)) ∧
    (∀ i j a b, i < j → r.index.lookedUp m i = some a → r.index.lookedUp m j = some b → a.token ≠ b.token) ∧
    (∀ methods, r.path m = .ok methods → methods.length ≤ r.size) ∧
    ∃ k x, r.index.EndsAt m k x ∧ k ≤ r.size ∧ r.path m = r.index.outcome (r.index.passed m k) x := by
  obtain ⟨index, hindex, hmk⟩ := bind_eq_ok.1 hr
  obtain rfl : (⟨t, index⟩ : BridgeResolver) = r := Except.ok.inj hmk
  have hstep : ∀ m c, index.next? m = some c → t.pool.StrictlyNarrows c.token m.token :=
    fun m c hc => strictlyNarrows_of_next? htok hindex hc
  obtain ⟨k, x, hend⟩ := exists_endsAt_of_narrowing hac hroot hstep m
  have hpath := path_of_endsAt (r := ⟨t, index⟩) hend
  have hdeep : ∀ text steps, path ⟨t, index⟩ m ≠ .error (.bridgeChainTooDeep text steps) := by
    intro text steps
    rw [hpath]
    exact outcome_ne_tooDeep _ text steps
  refine ⟨hdeep, ?_, ?_, ?_, k, x, hend, hend.le_size, hpath⟩
  · intro text steps h
    exact hdeep text steps (resolve_eq_error h)
  · intro i j a b hij ha hb
    exact hend.token_ne hij ha hb
  · intro methods hok
    exact hend.length_outcome_le (hpath.symm.trans hok)

/-- in a chain of two bridges the resolver of the lowest class resolves the method at the top -/
theorem chain_path_never_too_deep : ∃ t r, Samples.chain 2 >>= (·.type (Samples.chainLevel 2)) = .ok t ∧
    BridgeResolver.ofType t ConflictPolicy.failFast.handler = .ok r ∧ r.size = 2 ∧
    ∃ k x, r.index.EndsAt Samples.chainRootGet k x ∧ k ≤ r.size ∧
      r.path Samples.chainRootGet = r.index.outcome (r.index.passed Samples.chainRootGet k) x := by
  obtain ⟨t, ht, htest⟩ := exists_ok_of_any (x := Samples.chain 2 >>= (·.type (Samples.chainLevel 2)))
    (f := fun t => t.pool.isOrderly &&
      (BridgeResolver.ofType t ConflictPolicy.failFast.handler).toOption.any (·.size == 2)) (by decide +kernel)
  obtain ⟨horderly, hresolver⟩ := Bool.and_eq_true_iff.1 htest
  obtain ⟨r, hr, hsize⟩ := exists_ok_of_any hresolver
  obtain ⟨hac, hroot, htok⟩ := Pool.isOrderly_sound horderly
  obtain ⟨-, -, -, -, hend⟩ := path_never_too_deep t hac hroot htok .failFast r hr Samples.chainRootGet
  exact ⟨t, r, ht, hr, eq_of_beq hsize, hend⟩

end BridgeResolver

end CallPlan
