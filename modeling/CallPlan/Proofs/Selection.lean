/-
Which method a super call means.

The planner indexes the reachable methods of its type in one loop, in which the first method of a signature is kept
unless it is a bridge and a later one is not. What the loop leaves at a signature is therefore its first method that
is no bridge, or its first bridge when there are only bridges (`SignatureIndex.find?_invokable`).

A reachable method that is no bridge has a token of its own, so the bridge index has no entry for it and resolution
leaves it alone under every strategy (`resolveBridge_of_plain`). Strategies can differ only where a signature has
nothing but bridges.

- `superCall_selection`: the method looked up and the answer to a super call, in all three cases.
-/
import CallPlan.Planner
import CallPlan.Proofs.BridgeIndex
import CallPlan.Samples.Pools

namespace CallPlan

/-! ## The loop over the methods -/

namespace SignatureIndex

/-- the first bridge of a signature, or its first method that is no bridge -/
def first? (signature : String) (bridge : Bool) (ms : List Method) : Option Method :=
  ms.find? fun m => m.uniqueSignature == signature && m.isBridge == bridge

theorem first?_eq_some {signature : String} {bridge : Bool} {ms : List Method} {m : Method}
    (h : first? signature bridge ms = some m) : m ∈ ms ∧ m.uniqueSignature = signature ∧ m.isBridge = bridge := by
  have htest := List.find?_some h
  rw [Bool.and_eq_true, beq_iff_eq, beq_iff_eq] at htest
  exact ⟨List.mem_of_find?_eq_some h, htest⟩

theorem first?_eq_none {signature : String} {bridge : Bool} {ms : List Method} :
    first? signature bridge ms = none ↔ ∀ n ∈ ms, n.uniqueSignature = signature → n.isBridge ≠ bridge := by
  simp [first?, List.find?_eq_none]

theorem first?_cons_of_ne {signature : String} {m : Method} (h : m.uniqueSignature ≠ signature) (bridge : Bool)
    (ms : List Method) : first? signature bridge (m :: ms) = first? signature bridge ms := by
  simp [first?, h]

theorem first?_cons (m : Method) (bridge : Bool) (ms : List Method) :
    first? m.uniqueSignature bridge (m :: ms) =
      if m.isBridge = bridge then some m else first? m.uniqueSignature bridge ms := by
  by_cases h : m.isBridge = bridge <;> simp [first?, h]

/-- adding a method leaves other signatures alone; at its own it is kept if nothing or only a bridge was there -/
theorem find?_add_of_ne {index : SignatureIndex} {m : Method} {signature : String}
    (h : m.uniqueSignature ≠ signature) : (index.add m).find? signature = index.find? signature := by
  unfold add
  split
  · rw [Table.find?_insert, if_neg (by simpa using h)]
  · split
    · rw [Table.find?_insert, if_neg (by simpa using h)]
    · rfl

theorem find?_add (index : SignatureIndex) (m : Method) :
    (index.add m).find? m.uniqueSignature =
      match index.find? m.uniqueSignature with
      | none => some m
      | some old => if old.isBridge && !m.isBridge then some m else some old := by
  unfold add
  cases hold : index.find? m.uniqueSignature with
  | none => simp [Table.find?_insert]
  | some old =>
    by_cases hgive : (old.isBridge && !m.isBridge) = true
    · simp [hgive, Table.find?_insert]
    · simp [hgive, hold]

/-- **The loop over the methods.** What is at a signature stays unless it is a bridge; a bridge gives way to the first
method that is none; where nothing was, a method that is no bridge goes before every bridge. -/
theorem find?_foldl_add (ms : List Method) (index : SignatureIndex) (signature : String) :
    (ms.foldl add index).find? signature =
      match index.find? signature with
      | none => (first? signature false ms).or (first? signature true ms)
      | some old => if old.isBridge then some ((first? signature false ms).getD old) else some old := by
  induction ms generalizing index with
  | nil => cases hold : index.find? signature <;> simp [first?, hold]
  | cons m ms ih =>
    rw [List.foldl_cons, ih]
    by_cases hsig : m.uniqueSignature = signature
    · subst hsig
      rw [find?_add, first?_cons, first?_cons]
      cases hold : index.find? m.uniqueSignature with
      | none => cases hm : m.isBridge <;> simp [hm]
      | some old => cases hm : m.isBridge <;> cases hob : old.isBridge <;> simp [hm, hob]
    · rw [find?_add_of_ne hsig, first?_cons_of_ne hsig, first?_cons_of_ne hsig]

/-- **An entry is the first method of its signature that is no bridge, or else the first bridge.** -/
theorem find?_invokable (ms : List Method) (signature : String) :
    (invokable ms).find? signature = (first? signature false ms).or (first? signature true ms) := by
  rw [invokable, find?_foldl_add, Table.find?_empty]

end SignatureIndex

/-! ## Resolution leaves other methods than bridges alone -/

/-- what the index has no entry for stands for itself -/
theorem BridgeResolver.resolve_of_find?_eq_none {r : BridgeResolver} {m : Method}
    (h : r.index.find? m.token = none) : r.resolve m = .ok m := by
  have hpath : r.path m = .ok [] := by
    rw [path, follow, h]
  rw [resolve, hpath]
  rfl

/-- under every strategy a reachable method that is no bridge resolves to itself -/
theorem resolveBridge_of_plain {t : KnownType} (htok : (t.declaredMethods.map Method.token).Nodup)
    {strategy : BridgeStrategy} {resolver : Option BridgeResolver} (h : strategy.resolver t = .ok resolver)
    {m : Method} (hm : m ∈ t.reachableMethods) (hplain : m.isBridge = false) : resolveBridge resolver m = .ok m := by
  cases strategy with
  | leaveBridges =>
    obtain rfl : none = resolver := Except.ok.inj h
    rfl
  | resolveBridges policy =>
    obtain ⟨r, hr, hsome⟩ := bind_eq_ok.1 h
    obtain rfl : some r = resolver := Except.ok.inj hsome
    obtain ⟨index, hindex, hmk⟩ := bind_eq_ok.1 hr
    obtain rfl : (⟨t, index⟩ : BridgeResolver) = r := Except.ok.inj hmk
    exact BridgeResolver.resolve_of_find?_eq_none (KnownType.find?_bridgeIndex_of_plain hindex htok hm hplain)

/-! ## The planner -/

namespace Planner

open SignatureIndex

/-- what a planner is made of -/
theorem make_eq_ok {strategy : BridgeStrategy} {i : Invokables} {p : Planner} (h : make strategy i = .ok p) :
    p.type = i.type ∧ p.invokable = .invokable i.methods ∧ strategy.resolver i.type = .ok p.resolver := by
  obtain ⟨resolver, hresolver, hmk⟩ := bind_eq_ok.1 h
  obtain rfl := Except.ok.inj hmk
  exact ⟨rfl, rfl, hresolver⟩

theorem lookUp_of_find?_eq_none {p : Planner} {m : Method} (h : p.invokable.find? m.uniqueSignature = none) :
    p.lookUp m .superType = .ok none := by
  rw [lookUp, h]

theorem lookUp_of_find? {p : Planner} {m found : Method} (h : p.invokable.find? m.uniqueSignature = some found) :
    p.lookUp m .superType = (resolveBridge p.resolver found).map some := by
  simp only [lookUp, h]
  cases resolveBridge p.resolver found <;> rfl

/-- what is looked up with success was indexed and resolved -/
theorem find?_of_lookUp {p : Planner} {m r : Method} (h : p.lookUp m .superType = .ok (some r)) :
    ∃ f, p.invokable.find? m.uniqueSignature = some f ∧ resolveBridge p.resolver f = .ok r := by
  cases hfind : p.invokable.find? m.uniqueSignature with
  | none => exact absurd ((lookUp_of_find?_eq_none hfind).symm.trans h) (by simp)
  | some f =>
    refine ⟨f, rfl, ?_⟩
    rw [lookUp_of_find? hfind] at h
    cases hb : resolveBridge p.resolver f with
    | error e => rw [hb] at h; exact absurd h (by simp [Except.map])
    | ok x =>
      rw [hb] at h
      obtain rfl : x = r := Option.some.inj (Except.ok.inj h)
      rfl

theorem superCall_of_lookUp {p : Planner} {m : Method} {lookup : CallLookup} {found : Option Method}
    (h : p.lookUp m lookup = .ok found) :
    p.superCall m lookup = .ok (found.elim .illegal (callOnSuper p.type)) := by
  rw [superCall, h]
  cases found <;> rfl

theorem superCall_of_lookUp_map {p : Planner} {m : Method} {lookup : CallLookup} {x : Except Error Method}
    (h : p.lookUp m lookup = x.map some) : p.superCall m lookup = x.map (callOnSuper p.type) := by
  rw [superCall, h]
  cases x <;> rfl

variable {t : KnownType} {strategy : BridgeStrategy} {p : Planner} {m : Method}

theorem find?_made (hp : make strategy (.ofType t) = .ok p) (signature : String) :
    p.invokable.find? signature =
      (first? signature false t.reachableMethods).or (first? signature true t.reachableMethods) := by
  rw [(make_eq_ok hp).2.1, find?_invokable]
  rfl

/-- a method that is no bridge is looked up as it is, whatever the strategy -/
theorem lookUp_plain (hp : make strategy (.ofType t) = .ok p) (htok : (t.declaredMethods.map Method.token).Nodup)
    {f : Method} (hf : first? m.uniqueSignature false t.reachableMethods = some f) :
    p.lookUp m .superType = .ok (some f) := by
  obtain ⟨hreach, -, hplain⟩ := first?_eq_some hf
  have hentry : p.invokable.find? m.uniqueSignature = some f := by
    rw [find?_made hp, hf, Option.some_or]
  rw [lookUp_of_find? hentry, resolveBridge_of_plain htok (make_eq_ok hp).2.2 hreach hplain]
  rfl

/-- where a signature has bridges only, the first of them is resolved -/
theorem lookUp_bridge (hp : make strategy (.ofType t) = .ok p) {b : Method}
    (hf : first? m.uniqueSignature false t.reachableMethods = none)
    (hb : first? m.uniqueSignature true t.reachableMethods = some b) :
    p.lookUp m .superType = (resolveBridge p.resolver b).map some :=
  lookUp_of_find? (by rw [find?_made hp, hf, hb, Option.none_or])

theorem lookUp_nothing (hp : make strategy (.ofType t) = .ok p)
    (hf : first? m.uniqueSignature false t.reachableMethods = none)
    (hb : first? m.uniqueSignature true t.reachableMethods = none) : p.lookUp m .superType = .ok none :=
  lookUp_of_find?_eq_none (by rw [find?_made hp, hf, hb, Option.none_or])

/-- where not all methods of a signature are bridges, every strategy finds the same -/
theorem lookUp_eq (htok : (t.declaredMethods.map Method.token).Nodup) {strategy' : BridgeStrategy} {p' : Planner}
    (hp : make strategy (.ofType t) = .ok p) (hp' : make strategy' (.ofType t) = .ok p')
    (hcase : first? m.uniqueSignature false t.reachableMethods = none →
      first? m.uniqueSignature true t.reachableMethods = none) :
    p'.lookUp m .superType = p.lookUp m .superType := by
  cases hf : first? m.uniqueSignature false t.reachableMethods with
  | some f => rw [lookUp_plain hp htok hf, lookUp_plain hp' htok hf]
  | none => rw [lookUp_nothing hp hf (hcase hf), lookUp_nothing hp' hf (hcase hf)]

theorem superCall_eq {strategy' : BridgeStrategy} {p' : Planner} {lookup : CallLookup}
    (hp : make strategy (.ofType t) = .ok p) (hp' : make strategy' (.ofType t) = .ok p')
    (h : p'.lookUp m lookup = p.lookUp m lookup) : p'.superCall m lookup = p.superCall m lookup := by
  rw [superCall, superCall, h, (make_eq_ok hp).1, (make_eq_ok hp').1]

/-! ## Main result -/

/-- **What a super call means.** Of the reachable methods with the signature asked for it is the first one that is no
bridge, the same under every strategy; if all of them are bridges, what the resolver makes of the first, its error
passed on; if there are none, the call is illegal. Only the second case depends on the strategy. -/
theorem superCall_selection (t : KnownType) (htok : (t.declaredMethods.map Method.token).Nodup)
    (strategy : BridgeStrategy) (p : Planner) (hp : make strategy (.ofType t) = .ok p) (m : Method) :
    (∀ f, first? m.uniqueSignature false t.reachableMethods = some f →
      p.lookUp m .superType = .ok (some f) ∧ p.superCall m .superType = .ok (callOnSuper t f)) ∧
    (∀ b, first? m.uniqueSignature false t.reachableMethods = none →
      first? m.uniqueSignature true t.reachableMethods = some b →
      p.lookUp m .superType = (resolveBridge p.resolver b).map some ∧
      p.superCall m .superType = (resolveBridge p.resolver b).map (callOnSuper t)) ∧
    (first? m.uniqueSignature false t.reachableMethods = none →
      first? m.uniqueSignature true t.reachableMethods = none →
      p.lookUp m .superType = .ok none ∧ p.superCall m .superType = .ok .illegal) ∧
    (∀ strategy' p', make strategy' (.ofType t) = .ok p' →
      (first? m.uniqueSignature false t.reachableMethods = none →
        first? m.uniqueSignature true t.reachableMethods = none) →
      p'.lookUp m .superType = p.lookUp m .superType ∧ p'.superCall m .superType = p.superCall m .superType) := by
  have htype : p.type = t := (make_eq_ok hp).1
  refine ⟨?_, ?_, ?_, ?_⟩
  · intro f hf
    have hlook := lookUp_plain hp htok hf
    exact ⟨hlook, by rw [superCall_of_lookUp hlook, htype]; rfl⟩
  · intro b hf hb
    have hlook := lookUp_bridge hp hf hb
    exact ⟨hlook, by rw [superCall_of_lookUp_map hlook, htype]⟩
  · intro hf hb
    have hlook := lookUp_nothing hp hf hb
    exact ⟨hlook, superCall_of_lookUp hlook⟩
  · intro strategy' p' hp' hcase
    have hlook := lookUp_eq htok hp hp' hcase
    exact ⟨hlook, superCall_eq hp hp' hlook⟩

/-- of a covariant override and its bridge a super call means the override, bridges resolved or not -/
theorem covariant_superCall_selection : ∃ t p p',
    Samples.covariant >>= (Samples.generatedSubclass · Samples.childName) = .ok t ∧
    make .default (.ofType t) = .ok p ∧ make .leaveBridges (.ofType t) = .ok p' ∧
    p.lookUp Samples.childBridge .superType = .ok (some Samples.childGet) ∧
    p.superCall Samples.childBridge .superType = .ok (callOnSuper t Samples.childGet) ∧
    p'.superCall Samples.childBridge .superType = p.superCall Samples.childBridge .superType := by
  obtain ⟨t, ht, htest⟩ := exists_ok_of_any
    (x := Samples.covariant >>= (Samples.generatedSubclass · Samples.childName))
    (f := fun t => decide (t.declaredMethods.map Method.token).Nodup &&
      first? Samples.childBridge.uniqueSignature false t.reachableMethods == some Samples.childGet &&
      (make .default (.ofType t)).isOk && (make .leaveBridges (.ofType t)).isOk)
    (by decide +kernel)
  simp only [Bool.and_eq_true, decide_eq_true_eq, beq_iff_eq] at htest
  obtain ⟨⟨⟨htok, hfirst⟩, hmake⟩, hmake'⟩ := htest
  obtain ⟨p, hp⟩ := exists_ok_of_isOk hmake
  obtain ⟨p', hp'⟩ := exists_ok_of_isOk hmake'
  obtain ⟨hplain, -, -, hother⟩ := superCall_selection t htok .default p hp Samples.childBridge
  obtain ⟨hlook, hcall⟩ := hplain _ hfirst
  obtain ⟨-, hsame⟩ := hother _ p' hp' fun hnone => absurd (hfirst.symm.trans hnone) (by simp)
  exact ⟨t, p, p', ht, hp, hp', hlook, hcall, hsame⟩

end Planner

end CallPlan
