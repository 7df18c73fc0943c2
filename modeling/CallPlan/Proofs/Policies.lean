/-
How much the conflict policies differ.

A policy is asked about ambiguous bridges only, those with more than one candidate. So the index of a type without
ambiguous reachable bridges does not depend on the policy, and where there are some, failing fast reports the first of
them (`fill_of_find?`), while the other two policies always fill an index.

These two indexes have the same keys, and entries that differ at most where one leaves a bridge open and the other has
it as its own target (`BridgeIndex.Defers`). Their candidates are therefore the same, and so is the whole walk from a
method: it ends after the same look-ups in both or in none, and only what is made of the last look-up can differ.

- `policies_differ_when_ambiguous`: when each index is built and what is reported if not, that unambiguous types have
  one resolver, and what resolution under the two lenient policies has in common.
-/
import CallPlan.Proofs.NormalForm

namespace CallPlan

/-- whether the declaring type leaves a choice between several methods to forward to -/
def Pool.isAmbiguous (p : Pool) (b : Method) : Bool := 2 ≤ (bridgeCandidates p b).length

/-! ## Targets -/

variable {p : Pool} {b : Method}

/-- every handler leaves a bridge that is not ambiguous its one target -/
theorem exists_bridgeTarget (h : p.isAmbiguous b = false) :
    ∃ target, target ≠ .unknown ∧ ∀ handler, bridgeTarget p handler b = .ok target := by
  unfold bridgeTarget
  cases hc : bridgeCandidates p b with
  | nil => exact ⟨.resolved b, by simp, fun _ => rfl⟩
  | cons c cs =>
    cases cs with
    | nil => exact ⟨.candidate c, by simp, fun _ => rfl⟩
    | cons d ds => exact absurd h (by simp [Pool.isAmbiguous, hc])

theorem bridgeTarget_of_isAmbiguous (h : p.isAmbiguous b = true) (handler : ConflictHandler) :
    bridgeTarget p handler b = handler b (bridgeCandidates p b) := by
  unfold bridgeTarget
  cases hc : bridgeCandidates p b with
  | nil => exact absurd h (by simp [Pool.isAmbiguous, hc])
  | cons c cs =>
    cases cs with
    | nil => exact absurd h (by simp [Pool.isAmbiguous, hc])
    | cons d ds => rfl

/-- the lenient policies have the same target, or leave open what is its own target -/
theorem bridgeTarget_lenient (p : Pool) (b : Method) :
    (∃ target, target ≠ .unknown ∧ bridgeTarget p ConflictPolicy.failOnRequest.handler b = .ok target ∧
      bridgeTarget p ConflictPolicy.callBridge.handler b = .ok target) ∨
    (bridgeTarget p ConflictPolicy.failOnRequest.handler b = .ok .unknown ∧
      bridgeTarget p ConflictPolicy.callBridge.handler b = .ok (.resolved b)) := by
  cases h : p.isAmbiguous b with
  | false =>
    obtain ⟨target, hne, htarget⟩ := exists_bridgeTarget h
    exact Or.inl ⟨target, hne, htarget _, htarget _⟩
  | true =>
    rw [bridgeTarget_of_isAmbiguous h, bridgeTarget_of_isAmbiguous h]
    exact Or.inr ⟨rfl, rfl⟩

/-! ## Filling an index -/

namespace BridgeIndex

variable {handler handler' : ConflictHandler} {bridges : List Method} {start start' index index' : BridgeIndex}

/-- the index with the target of one more bridge -/
def enter (p : Pool) (handler : ConflictHandler) (index : BridgeIndex) (b : Method) : Except Error BridgeIndex := do
  return index.insert b.token (← bridgeTarget p handler b)

theorem bridgeIndex_eq (t : KnownType) (handler : ConflictHandler) :
    t.bridgeIndex handler = t.reachableBridges.foldlM (enter t.pool handler) .empty := rfl

theorem enter_eq_ok : enter p handler index b = .ok index' ↔
    ∃ target, bridgeTarget p handler b = .ok target ∧ index.insert b.token target = index' := by
  rw [enter, bind_eq_ok]
  constructor
  · rintro ⟨target, htarget, hins⟩
    exact ⟨target, htarget, Except.ok.inj hins⟩
  · rintro ⟨target, htarget, rfl⟩
    exact ⟨target, htarget, rfl⟩

theorem enter_of_bridgeTarget {target : BridgeTarget} (h : bridgeTarget p handler b = .ok target) :
    enter p handler index b = .ok (index.insert b.token target) :=
  enter_eq_ok.2 ⟨target, h, rfl⟩

/-- where all bridges have targets an index is filled -/
theorem exists_fill (h : ∀ b ∈ bridges, ∃ target, bridgeTarget p handler b = .ok target) (start : BridgeIndex) :
    ∃ index, bridges.foldlM (enter p handler) start = .ok index := by
  induction bridges generalizing start with
  | nil => exact ⟨start, rfl⟩
  | cons b bridges ih =>
    obtain ⟨target, htarget⟩ := h b List.mem_cons_self
    obtain ⟨index, hindex⟩ := ih (fun c hc => h c (List.mem_cons_of_mem _ hc)) (start.insert b.token target)
    refine ⟨index, ?_⟩
    rw [List.foldlM_cons, enter_of_bridgeTarget htarget]
    exact hindex

/-- handlers that give the bridges the same targets fill the same index -/
theorem fill_congr (h : ∀ b ∈ bridges, bridgeTarget p handler b = bridgeTarget p handler' b) (start : BridgeIndex) :
    bridges.foldlM (enter p handler) start = bridges.foldlM (enter p handler') start := by
  induction bridges generalizing start with
  | nil => rfl
  | cons b bridges ih =>
    have hstep : enter p handler start b = enter p handler' start b := by
      rw [enter, enter, h b List.mem_cons_self]
    rw [List.foldlM_cons, List.foldlM_cons, hstep]
    exact congrArg _ (funext fun next => ih (fun c hc => h c (List.mem_cons_of_mem _ hc)) next)

/-- **The first ambiguous bridge decides**: its error is reported when the handler refuses it. -/
theorem fill_of_find? {e : Error} (h : bridges.find? p.isAmbiguous = some b)
    (he : handler b (bridgeCandidates p b) = .error e) (start : BridgeIndex) :
    bridges.foldlM (enter p handler) start = .error e := by
  induction bridges generalizing start with
  | nil => exact absurd h (by simp)
  | cons c bridges ih =>
    rw [List.foldlM_cons]
    cases hc : p.isAmbiguous c with
    | true =>
      rw [List.find?_cons_of_pos hc] at h
      obtain rfl := Option.some.inj h
      rw [enter, bridgeTarget_of_isAmbiguous hc, he]
      rfl
    | false =>
      rw [List.find?_cons_of_neg (by simp [hc])] at h
      obtain ⟨target, -, htarget⟩ := exists_bridgeTarget hc
      rw [enter_of_bridgeTarget (htarget handler)]
      exact ih h _

/-- the keys of an index do not depend on the targets -/
theorem keys_fill (hstart : start.keys = start'.keys) (h : bridges.foldlM (enter p handler) start = .ok index)
    (h' : bridges.foldlM (enter p handler') start' = .ok index') : index.keys = index'.keys := by
  induction bridges generalizing start start' with
  | nil =>
    obtain rfl : start = index := Except.ok.inj h
    obtain rfl : start' = index' := Except.ok.inj h'
    exact hstart
  | cons b bridges ih =>
    rw [List.foldlM_cons] at h h'
    obtain ⟨next, hnext, hrest⟩ := bind_eq_ok.1 h
    obtain ⟨next', hnext', hrest'⟩ := bind_eq_ok.1 h'
    obtain ⟨target, -, rfl⟩ := enter_eq_ok.1 hnext
    obtain ⟨target', -, rfl⟩ := enter_eq_ok.1 hnext'
    exact ih (by rw [Table.keys_insert, Table.keys_insert, hstart]) hrest hrest'

/-- bridges of distinct new tokens add one key each -/
theorem keys_fill_of_nodup (h : bridges.foldlM (enter p handler) start = .ok index)
    (hnodup : (start.keys ++ bridges.map Method.token).Nodup) :
    index.keys = start.keys ++ bridges.map Method.token := by
  induction bridges generalizing start with
  | nil =>
    obtain rfl : start = index := Except.ok.inj h
    simp
  | cons b bridges ih =>
    rw [List.foldlM_cons] at h
    obtain ⟨next, hnext, hrest⟩ := bind_eq_ok.1 h
    obtain ⟨target, -, rfl⟩ := enter_eq_ok.1 hnext
    have hnew : b.token ∉ start.keys := by
      intro hmem
      exact (List.nodup_append.1 hnodup).2.2 _ hmem _ List.mem_cons_self rfl
    have hkeys : (start.insert b.token target).keys = start.keys ++ [b.token] := by
      rw [Table.keys_insert, if_neg (by simpa using hnew)]
    rw [ih hrest (by simpa [hkeys] using hnodup), hkeys, List.map_cons, List.append_assoc, List.singleton_append]

/-- with distinct tokens an index has one entry per reachable bridge -/
theorem size_bridgeIndex {t : KnownType} (h : t.bridgeIndex handler = .ok index)
    (htok : (t.declaredMethods.map Method.token).Nodup) : index.size = t.reachableBridges.length := by
  have hnodup : (t.reachableBridges.map Method.token).Nodup :=
    (KnownType.reachableMethods_nodup htok).sublist (List.filter_sublist.map _)
  rw [bridgeIndex_eq] at h
  have hkeys := congrArg List.length (keys_fill_of_nodup h hnodup)
  simpa [Table.keys, Table.size, Table.empty] using hkeys

/-! ## Indexes that leave bridges open -/

/-- `o` leaves open what `c` has as its own target -/
def DefersAt (o c : BridgeIndex) (token : MethodToken) : Prop :=
  o.find? token = some .unknown ∧ ∃ b, c.find? token = some (.resolved b) ∧ b.token = token ∧ b.isBridge = true

/-- `o` has the keys and entries of `c`, but for those that it leaves open -/
structure Defers (o c : BridgeIndex) : Prop where
  keys : o.keys = c.keys
  entries : ∀ token, (o.find? token = c.find? token ∧ o.find? token ≠ some .unknown) ∨ DefersAt o c token

/-- **Failing on request defers** what calling the bridge settles. -/
theorem defers_of_bridgeIndex {t : KnownType} {o c : BridgeIndex}
    (ho : t.bridgeIndex ConflictPolicy.failOnRequest.handler = .ok o)
    (hc : t.bridgeIndex ConflictPolicy.callBridge.handler = .ok c) : Defers o c := by
  refine ⟨keys_fill rfl ho hc, fun token => ?_⟩
  have hentry := KnownType.find?_bridgeIndex ho token
  have hentry' := KnownType.find?_bridgeIndex hc token
  -- both entries are those of the last reachable bridge of the token
  cases hlast : t.reachableBridges.reverse.find? (·.token == token) with
  | none =>
    rw [hlast] at hentry hentry'
    have hentry : o.find? token = none := hentry
    have hentry' : c.find? token = none := hentry'
    exact Or.inl ⟨hentry.trans hentry'.symm, by simp [hentry]⟩
  | some b =>
    rw [hlast] at hentry hentry'
    obtain ⟨x, hx, hfind⟩ := hentry
    obtain ⟨y, hy, hfind'⟩ := hentry'
    rcases bridgeTarget_lenient t.pool b with ⟨target, hne, htarget, htarget'⟩ | ⟨htarget, htarget'⟩
    · obtain rfl := Except.ok.inj (hx.symm.trans htarget)
      obtain rfl := Except.ok.inj (hy.symm.trans htarget')
      exact Or.inl ⟨hfind.trans hfind'.symm, by simpa [hfind] using hne⟩
    · obtain rfl := Except.ok.inj (hx.symm.trans htarget)
      obtain rfl := Except.ok.inj (hy.symm.trans htarget')
      have hreach : b ∈ t.reachableBridges := List.mem_reverse.1 (List.mem_of_find?_eq_some hlast)
      exact Or.inr ⟨hfind, b, hfind', by simpa using List.find?_some hlast, (KnownType.mem_reachableBridges.1 hreach).2⟩

section Walk

variable {o c : BridgeIndex} (h : Defers o c)

include h

theorem Defers.size_eq : o.size = c.size := by
  have hlen := congrArg List.length h.keys
  simpa [Table.keys, Table.size] using hlen

theorem Defers.next?_eq (m : Method) : o.next? m = c.next? m := by
  unfold next?
  rcases h.entries m.token with ⟨heq, -⟩ | ⟨hunknown, b, hresolved, -, -⟩
  · rw [heq]
  · rw [hunknown, hresolved]

/-- the walk is the same in both -/
theorem Defers.lookedUp_eq (m : Method) (k : Nat) : o.lookedUp m k = c.lookedUp m k := by
  induction k generalizing m with
  | zero => rfl
  | succ k ih =>
    rw [lookedUp, lookedUp, h.next?_eq]
    exact congrArg _ (funext ih)

theorem Defers.endsAt {m x : Method} {k : Nat} (hend : o.EndsAt m k x) : c.EndsAt m k x :=
  ⟨h.lookedUp_eq m k ▸ hend.reached, h.next?_eq x ▸ hend.last⟩

end Walk

end BridgeIndex

/-! ## Resolution under the lenient policies -/

namespace BridgeResolver

open BridgeIndex

variable {t : KnownType} {o c : BridgeResolver} {m x : Method} {k : Nat}

/-- where the walk ends, both report the same, or one what it leaves open and the other a bridge of the token -/
theorem resolve_deferred (h : Defers o.index c.index) (hend : o.index.EndsAt m k x) :
    (o.resolve m = c.resolve m ∧ (∀ text, o.resolve m ≠ .error (.unresolvedBridge text))) ∨
    (o.resolve m = .error (.unresolvedBridge x.render) ∧
      ∃ b, c.resolve m = .ok b ∧ b.isBridge = true ∧ o.target? b = some .unknown) := by
  rw [resolve_of_endsAt hend, resolve_of_endsAt (h.endsAt hend)]
  rcases h.entries x.token with ⟨heq, hne⟩ | ⟨hunknown, b, hresolved, htoken, hbridge⟩
  · refine Or.inl ⟨by rw [final, final, heq], fun text => ?_⟩
    unfold final
    split
    · simp
    · rename_i hunknown
      exact absurd hunknown hne
    · simp
  · exact Or.inr ⟨by rw [final, hunknown], b, by rw [final, hresolved], hbridge, by rw [target?, htoken, hunknown]⟩

/-- what resolves is not left open -/
theorem target?_ne_unknown {policy : ConflictPolicy} {r : BridgeResolver} (hr : ofType t policy.handler = .ok r)
    (h : r.resolve m = .ok x) : r.target? x ≠ some .unknown := by
  obtain ⟨-, hindex⟩ := ofType_eq_ok hr
  obtain ⟨k, y, hend, hfinal⟩ := endsAt_of_resolve h
  rcases final_eq_ok hindex hend.last hfinal with ⟨rfl, hnone⟩ | ⟨htoken, hentry⟩
  · simp [target?, hnone]
  · simp [target?, htoken, hentry]

/-- a chain that ends is not too deep -/
theorem resolve_ne_tooDeep (hend : o.index.EndsAt m k x) (text : String) (steps : Nat) :
    o.resolve m ≠ .error (.bridgeChainTooDeep text steps) := by
  intro h
  have hpath := resolve_eq_error h
  rw [path_of_endsAt hend] at hpath
  exact outcome_ne_tooDeep _ text steps hpath

/-- a resolver equals itself -/
theorem beq_self (r : BridgeResolver) : (r == r) = true := by
  show (r.owner == r.owner && r.index.agree (· == ·) r.index) = true
  rw [BEq.rfl, Table.agree_self (fun _ => BEq.rfl) r.index]
  rfl

theorem exists_ofType {handler : ConflictHandler} (t : KnownType)
    (h : ∀ b ∈ t.reachableBridges, ∃ target, bridgeTarget t.pool handler b = .ok target) :
    ∃ r, ofType t handler = .ok r := by
  obtain ⟨index, hindex⟩ := exists_fill h .empty
  exact ⟨⟨t, index⟩, by rw [ofType, bridgeIndex_eq, hindex]; rfl⟩

theorem ofType_congr {handler handler' : ConflictHandler} (t : KnownType)
    (h : ∀ b ∈ t.reachableBridges, t.pool.isAmbiguous b = false) : ofType t handler = ofType t handler' := by
  have hindex : t.bridgeIndex handler = t.bridgeIndex handler' := by
    rw [bridgeIndex_eq, bridgeIndex_eq]
    refine fill_congr (fun b hb => ?_) _
    obtain ⟨target, -, htarget⟩ := exists_bridgeTarget (h b hb)
    rw [htarget, htarget]
  rw [ofType, ofType, hindex]

/-- the first ambiguous bridge is reported when it is refused -/
theorem ofType_of_find? {b : Method} (h : t.reachableBridges.find? t.pool.isAmbiguous = some b) :
    ofType t ConflictPolicy.failFast.handler =
      .error (.ambiguousBridge b.render ((bridgeCandidates t.pool b).map Method.render)) := by
  rw [ofType, bridgeIndex_eq, fill_of_find? h rfl]
  rfl

/-- failing fast builds an index exactly when nothing is ambiguous -/
theorem exists_ofType_failFast (t : KnownType) : (∃ r, ofType t ConflictPolicy.failFast.handler = .ok r) ↔
    ∀ b ∈ t.reachableBridges, t.pool.isAmbiguous b = false := by
  constructor
  · rintro ⟨r, hr⟩ b hb
    cases hfind : t.reachableBridges.find? t.pool.isAmbiguous with
    | some a => exact absurd ((ofType_of_find? hfind).symm.trans hr) (by simp)
    | none => simpa using List.find?_eq_none.1 hfind b hb
  · intro h
    refine exists_ofType t fun b hb => ?_
    obtain ⟨target, -, htarget⟩ := exists_bridgeTarget (h b hb)
    exact ⟨target, htarget _⟩

/-! ## Main result -/

/-- **The policies differ on ambiguous bridges only.** For every type the two lenient policies build an index. Failing
fast does so iff no reachable bridge has two candidates, and otherwise reports the first that has, with all its
candidates; when it does, the three resolvers are one. In any case, what resolves when failing on request resolves to
the same when bridges are called; it is left open iff it then resolves to a bridge whose own entry is left open; and
both report a chain without end, in the same words, or neither does. -/
theorem policies_differ_when_ambiguous (t : KnownType) :
    (∃ o, ofType t ConflictPolicy.failOnRequest.handler = .ok o) ∧
    (∃ c, ofType t ConflictPolicy.callBridge.handler = .ok c) ∧
    ((∃ r, ofType t ConflictPolicy.failFast.handler = .ok r) ↔
      ∀ b ∈ t.reachableMethods, b.isBridge = true → (bridgeCandidates t.pool b).length < 2) ∧
    (∀ b, t.reachableBridges.find? (fun b => 2 ≤ (bridgeCandidates t.pool b).length) = some b →
      ofType t ConflictPolicy.failFast.handler =
        .error (.ambiguousBridge b.render ((bridgeCandidates t.pool b).map Method.render))) ∧
    (∀ r, ofType t ConflictPolicy.failFast.handler = .ok r →
      ofType t ConflictPolicy.failOnRequest.handler = .ok r ∧ ofType t ConflictPolicy.callBridge.handler = .ok r ∧
      (r == r) = true) ∧
    (∀ o c m, ofType t ConflictPolicy.failOnRequest.handler = .ok o →
      ofType t ConflictPolicy.callBridge.handler = .ok c →
      (∀ x, o.resolve m = .ok x → c.resolve m = .ok x) ∧
      ((∃ text, o.resolve m = .error (.unresolvedBridge text)) ↔
        ∃ b, c.resolve m = .ok b ∧ b.isBridge = true ∧ o.target? b = some .unknown) ∧
      (∀ text steps, o.resolve m = .error (.bridgeChainTooDeep text steps) ↔
        c.resolve m = .error (.bridgeChainTooDeep text steps))) := by
  have hlenient : ∀ b, (∃ target, bridgeTarget t.pool ConflictPolicy.failOnRequest.handler b = .ok target) ∧
      ∃ target, bridgeTarget t.pool ConflictPolicy.callBridge.handler b = .ok target := by
    intro b
    rcases bridgeTarget_lenient t.pool b with ⟨target, -, htarget, htarget'⟩ | ⟨htarget, htarget'⟩
    · exact ⟨⟨_, htarget⟩, _, htarget'⟩
    · exact ⟨⟨_, htarget⟩, _, htarget'⟩
  refine ⟨exists_ofType t fun b _ => (hlenient b).1, exists_ofType t fun b _ => (hlenient b).2, ?_,
    fun b hb => ofType_of_find? hb, ?_, ?_⟩
  · rw [exists_ofType_failFast]
    simp only [KnownType.mem_reachableBridges, and_imp, Pool.isAmbiguous, decide_eq_false_iff_not, Nat.not_le]
  · intro r hr
    have hnone := (exists_ofType_failFast t).1 ⟨r, hr⟩
    exact ⟨(ofType_congr t hnone).trans hr, (ofType_congr t hnone).trans hr, r.beq_self⟩
  · intro o c m ho hc
    have hdefers := defers_of_bridgeIndex (ofType_eq_ok ho).2 (ofType_eq_ok hc).2
    rcases endsAt_or_endless o.index m with ⟨k, x, hend⟩ | hendless
    · have hdeep := resolve_ne_tooDeep hend
      have hdeep' := resolve_ne_tooDeep (hdefers.endsAt hend)
      rcases resolve_deferred hdefers hend with ⟨heq, hsettled⟩ | ⟨hopen, b, hb⟩
      · refine ⟨fun x hx => heq ▸ hx, ⟨?_, ?_⟩, fun text steps => by rw [heq]⟩
        · rintro ⟨text, htext⟩
          exact absurd htext (hsettled text)
        · rintro ⟨b, hb, -, hunknown⟩
          exact absurd hunknown (target?_ne_unknown ho (heq.trans hb))
      · refine ⟨fun x hx => absurd (hopen.symm.trans hx) (by simp), ⟨fun _ => ⟨b, hb⟩, fun _ => ⟨_, hopen⟩⟩, ?_⟩
        intro text steps
        exact ⟨fun h => absurd h (hdeep text steps), fun h => absurd h (hdeep' text steps)⟩
    · have hdeep := resolve_of_endless hendless
      have hdeep' := resolve_of_endless (r := c) fun k => hdefers.lookedUp_eq m k ▸ hendless k
      have hsize : o.size = c.size := hdefers.size_eq
      rw [hdeep, hdeep', hsize]
      simp

/-- a bridge with two candidates is refused, left open or called; with one candidate there is one resolver -/
theorem ambiguous_policies_differ :
    (∃ t o c, Samples.ambiguous >>= (·.type Samples.ambiguousName) = .ok t ∧
      ofType t ConflictPolicy.failFast.handler = .error (.ambiguousBridge Samples.ambiguousBridge.render
        ["fixture/Ambiguous.get()Ljava/lang/String;", "fixture/Ambiguous.get()Ljava/lang/Integer;"]) ∧
      ofType t ConflictPolicy.failOnRequest.handler = .ok o ∧ ofType t ConflictPolicy.callBridge.handler = .ok c ∧
      c.resolve Samples.ambiguousBridge = .ok Samples.ambiguousBridge ∧
      ∃ text, o.resolve Samples.ambiguousBridge = .error (.unresolvedBridge text)) ∧
    (∃ t r, Samples.covariant >>= (·.type Samples.childName) = .ok t ∧ r.size = 1 ∧
      ofType t ConflictPolicy.failFast.handler = .ok r ∧ ofType t ConflictPolicy.failOnRequest.handler = .ok r ∧
      ofType t ConflictPolicy.callBridge.handler = .ok r) := by
  constructor
  · obtain ⟨t, ht, htest⟩ := exists_ok_of_any (x := Samples.ambiguous >>= (·.type Samples.ambiguousName))
      (f := fun t =>
        t.reachableBridges.find? (fun b => 2 ≤ (bridgeCandidates t.pool b).length) == some Samples.ambiguousBridge &&
        (bridgeCandidates t.pool Samples.ambiguousBridge).map Method.render ==
          ["fixture/Ambiguous.get()Ljava/lang/String;", "fixture/Ambiguous.get()Ljava/lang/Integer;"] &&
        ((ofType t ConflictPolicy.failOnRequest.handler).toOption.any fun o =>
          o.target? Samples.ambiguousBridge == some .unknown) &&
        (ofType t ConflictPolicy.callBridge.handler).toOption.any fun c =>
          (c.resolve Samples.ambiguousBridge).toOption.any (· == Samples.ambiguousBridge))
      (by decide +kernel)
    simp only [Bool.and_eq_true, beq_iff_eq] at htest
    obtain ⟨⟨⟨hfind, hcandidates⟩, hopen⟩, hcalled⟩ := htest
    obtain ⟨o, ho, hunknown⟩ := exists_ok_of_any hopen
    obtain ⟨c, hc, hresolve⟩ := exists_ok_of_any hcalled
    obtain ⟨b, hb, heq⟩ := exists_ok_of_any hresolve
    obtain rfl := eq_of_beq heq
    obtain ⟨-, -, -, hfirst, -, hboth⟩ := policies_differ_when_ambiguous t
    obtain ⟨-, hleft, -⟩ := hboth o c Samples.ambiguousBridge ho hc
    exact ⟨t, o, c, ht, hcandidates ▸ hfirst _ hfind, ho, hc, hb, hleft.2 ⟨_, hb, by decide, eq_of_beq hunknown⟩⟩
  · obtain ⟨t, ht, htest⟩ := exists_ok_of_any (x := Samples.covariant >>= (·.type Samples.childName))
      (f := fun t => (ofType t ConflictPolicy.failFast.handler).toOption.any (·.size == 1)) (by decide +kernel)
    obtain ⟨r, hr, hsize⟩ := exists_ok_of_any htest
    obtain ⟨-, -, -, -, hsame, -⟩ := policies_differ_when_ambiguous t
    obtain ⟨hopen, hcalled, -⟩ := hsame r hr
    exact ⟨t, r, ht, eq_of_beq hsize, hr, hopen, hcalled⟩

end BridgeResolver

end CallPlan
