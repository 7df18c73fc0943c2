/-
Which default method a call means.

A planner keeps one index per interface that its type lists and its pool knows, filled with the default methods that
the interface reaches. All of them are described by the pool of the type, so a listed name stands for one interface
however often it is listed (`find?_defaultMethods`). An index keeps the method of a signature that was written last
(`find?_defaults`).

- `defaultCall_eq`: what the three tables on the way to a call come to;
- `defaultCall_legal_iff`: when a call of a default method is legal, and what it names;
- `default_index_bridges`: when it names a bridge in place of the override that the bridge forwards to, which the index
  for super calls never does;
- `bridge_displaces_default`: overrides that such calls miss.
-/
import CallPlan.Proofs.InterfaceOrder
import CallPlan.Proofs.Selection

namespace CallPlan

/-! ## The indexes -/

namespace KnownType

variable {t i j : KnownType} {name signature : String} {m : Method}

/-- the interface of that name, if the type lists it and its pool knows it -/
def interface? (t : KnownType) (name : String) : Option KnownType :=
  if name ∈ t.decl.interfaces then t.pool.type? name else none

theorem mem_interfaces_iff : j ∈ t.interfaces ↔ j.name ∈ t.decl.interfaces ∧ t.pool.type? j.name = some j := by
  rw [interfaces, List.mem_filterMap]
  constructor
  · rintro ⟨name, hlisted, htype⟩
    obtain rfl : j.name = name := Pool.find?_name (Pool.type?_eq_some_iff.1 htype).2
    exact ⟨hlisted, htype⟩
  · rintro ⟨hlisted, htype⟩
    exact ⟨j.name, hlisted, htype⟩

theorem interface?_eq_some_iff : t.interface? name = some j ↔ j ∈ t.interfaces ∧ j.name = name := by
  rw [interface?, Option.ite_none_right_eq_some, mem_interfaces_iff]
  constructor
  · rintro ⟨hlisted, htype⟩
    obtain rfl : j.name = name := Pool.find?_name (Pool.type?_eq_some_iff.1 htype).2
    exact ⟨⟨hlisted, htype⟩, rfl⟩
  · rintro ⟨hmem, rfl⟩
    exact hmem

/-- **Default methods are kept per listed name**: those that the interface of that name reaches. -/
theorem find?_defaultMethods (t i : KnownType) :
    t.defaultMethods.find? i = (t.interface? i.name).map fun j => j.reachableMethods.filter Method.isDefault := by
  cases hfind : t.defaultMethods.find? i with
  | some ms =>
    obtain ⟨j, hj, hname, rfl⟩ := reachable_of_defaultMethods hfind
    rw [interface?_eq_some_iff.2 ⟨hj, hname⟩]
    rfl
  | none =>
    cases hlisted : t.interface? i.name with
    | none => rfl
    | some j =>
      obtain ⟨hj, hname⟩ := interface?_eq_some_iff.1 hlisted
      rw [defaultMethods, Table.find?_ofList, Option.map_eq_none_iff, List.getLast?_eq_none_iff,
        List.filter_eq_nil_iff] at hfind
      exact absurd (beq_iff_name_eq.2 hname) (hfind _ (List.mem_map_of_mem hj))

/-- the default methods of one signature that an interface reaches, each once -/
def defaultsOf (i : KnownType) (signature : String) : List Method :=
  (i.reachableMethods.filter Method.isDefault).eraseDups.filter (·.uniqueSignature == signature)

theorem mem_defaultsOf : m ∈ i.defaultsOf signature ↔
    m ∈ i.reachableMethods ∧ m.isDefault = true ∧ m.uniqueSignature = signature := by
  rw [defaultsOf, List.mem_filter, List.mem_eraseDups, List.mem_filter, beq_iff_eq, and_assoc]

end KnownType

/-- the last method of a signature stays -/
theorem SignatureIndex.find?_defaults (ms : List Method) (signature : String) :
    (defaults ms).find? signature = (ms.filter (·.uniqueSignature == signature)).getLast? := by
  rw [defaults, Table.find?_ofList, List.filter_map, List.getLast?_map, Option.map_map]
  exact Option.map_id'

namespace Planner

variable {t i : KnownType} {strategy : BridgeStrategy} {p : Planner} {signature : String} {m : Method}

/-- **A call of a default method** means the last one of its signature that the interface reaches. -/
theorem defaultCall_eq (hp : make strategy (.ofType t) = .ok p) (i : KnownType) (signature : String) :
    p.defaultCall i signature =
      ((t.interface? i.name).bind fun j => (j.defaultsOf signature).getLast?).elim .illegal (.legal · i) := by
  have hdefaults : p.defaults = (t.defaultMethods.mapValues List.eraseDups).mapValues .defaults := by
    obtain ⟨resolver, -, hmk⟩ := bind_eq_ok.1 hp
    obtain rfl := Except.ok.inj hmk
    rfl
  have hfound : (p.defaults.find? i).bind (·.find? signature) =
      (t.interface? i.name).bind fun j => (j.defaultsOf signature).getLast? := by
    rw [hdefaults, Table.find?_mapValues, Table.find?_mapValues, KnownType.find?_defaultMethods]
    simp only [Option.map_map, Option.bind_map, Function.comp_def, SignatureIndex.find?_defaults]
    rfl
  rw [defaultCall, hfound]
  cases (t.interface? i.name).bind fun j => (j.defaultsOf signature).getLast? <;> rfl

/-! ## When a call is legal -/

/-- `i` is a listed interface that the pool of `t` knows and, as this pool describes it, reaches a default method `m` of
the signature: an instance method with a body, not private, that an interface declares -/
structure OffersDefault (t i : KnownType) (signature : String) (m : Method) : Prop where
  listed : i.name ∈ t.decl.interfaces
  reached : ∃ j, t.pool.type? i.name = some j ∧ m ∈ j.reachableMethods
  declared : ∃ d, t.pool.find? m.owner = some d ∧ d.isInterface = true ∧ m ∈ d.declaredMethods
  notAbstract : m.isAbstract = false
  notStatic : m.isStatic = false
  notPrivate : m.isPrivate = false
  signature : m.uniqueSignature = signature

theorem offersDefault_iff : OffersDefault t i signature m ↔
    ∃ j, t.interface? i.name = some j ∧ m ∈ j.defaultsOf signature := by
  simp only [KnownType.interface?_eq_some_iff, KnownType.mem_interfaces_iff, KnownType.mem_defaultsOf,
    Method.isDefault, Bool.and_eq_true, Bool.not_eq_true']
  constructor
  · rintro ⟨hlisted, ⟨j, htype, hreach⟩, ⟨d, -, hinterface, hmem⟩, habstract, hstatic, hprivate, hsig⟩
    have hname : j.name = i.name := Pool.find?_name (Pool.type?_eq_some_iff.1 htype).2
    have howner : m.ownerIsInterface = true := (mem_declaredMethods hmem).2.trans hinterface
    exact ⟨j, ⟨⟨hname ▸ hlisted, hname ▸ htype⟩, hname⟩, hreach, ⟨⟨⟨howner, habstract⟩, hstatic⟩, hprivate⟩, hsig⟩
  · rintro ⟨j, ⟨⟨hlisted, htype⟩, hname⟩, hreach, ⟨⟨⟨howner, habstract⟩, hstatic⟩, hprivate⟩, hsig⟩
    obtain ⟨d, hd, hmem⟩ := KnownType.find?_owner_of_reachable hreach
    have hpool : j.pool = t.pool := (Pool.type?_eq_some_iff.1 htype).1
    exact ⟨hname ▸ hlisted, ⟨j, hname ▸ htype, hreach⟩, ⟨d, hpool ▸ hd, (mem_declaredMethods hmem).2.symm.trans howner,
      hmem⟩, habstract, hstatic, hprivate, hsig⟩

/-- **When a call of a default method is legal**: iff the interface is listed, known and reaches a default method of the
signature. The call is then one of such a method on the interface asked for. There is no other answer than a legal call
or the illegal one, and the answer is the same under every strategy. -/
theorem defaultCall_legal_iff (t : KnownType) (strategy : BridgeStrategy) (p : Planner)
    (hp : make strategy (.ofType t) = .ok p) (i : KnownType) (signature : String) :
    ((p.defaultCall i signature).isLegal = true ↔ ∃ m, OffersDefault t i signature m) ∧
    (∀ m on, p.defaultCall i signature = .legal m on → on = i ∧ OffersDefault t i signature m) ∧
    ((¬ ∃ m, OffersDefault t i signature m) → p.defaultCall i signature = .illegal) ∧
    (∀ strategy' p', make strategy' (.ofType t) = .ok p' → p'.defaultCall i signature = p.defaultCall i signature) := by
  have hcall := defaultCall_eq hp i signature
  have hsame : ∀ strategy' p', make strategy' (.ofType t) = .ok p' →
      p'.defaultCall i signature = p.defaultCall i signature := fun _ _ hp' => (defaultCall_eq hp' _ _).trans hcall.symm
  simp only [offersDefault_iff]
  cases hlast : (t.interface? i.name).bind fun j => (j.defaultsOf signature).getLast? with
  | some last =>
    rw [hlast] at hcall
    obtain ⟨j, hj, hmem⟩ := Option.bind_eq_some_iff.1 hlast
    have hoffered : ∃ j, t.interface? i.name = some j ∧ last ∈ j.defaultsOf signature :=
      ⟨j, hj, List.mem_of_getLast? hmem⟩
    refine ⟨by simpa [hcall, SpecialCall.isLegal] using ⟨last, hoffered⟩, ?_, fun hnone => ?_, hsame⟩
    · intro m on hlegal
      obtain ⟨rfl, rfl⟩ := SpecialCall.legal.inj (hcall.symm.trans hlegal)
      exact ⟨rfl, hoffered⟩
    · exact absurd ⟨last, hoffered⟩ hnone
  | none =>
    rw [hlast] at hcall
    have hnothing : ¬ ∃ m j, t.interface? i.name = some j ∧ m ∈ j.defaultsOf signature := by
      rintro ⟨m, j, hj, hm⟩
      rw [hj, Option.bind_some, List.getLast?_eq_none_iff] at hlast
      exact absurd (hlast ▸ hm) List.not_mem_nil
    refine ⟨by simpa [hcall, SpecialCall.isLegal] using hnothing, ?_, fun _ => hcall, hsame⟩
    intro m on hlegal
    exact absurd (hcall.symm.trans hlegal) (by simp)

/-- a class whose two interfaces keep the bridge of one of them, after their own default methods -/
theorem exists_reader : ∃ t p, Samples.sources >>= (·.type Samples.readerName) = .ok t ∧
    make .default (.ofType t) = .ok p ∧ Samples.sourceName ∉ t.decl.interfaces ∧
    t.pool.contains Samples.sourceName = true ∧ Samples.textSourceGet ∈ t.reachableMethods ∧
    ∀ name m, (name, m) ∈ Samples.readerDefaults → ∃ i ∈ t.interfaces, i.name = name ∧
      (i.defaultsOf "get()").getLast? = some Samples.textSourceBridge ∧ m ∈ i.defaultsOf "get()" := by
  obtain ⟨t, ht, htest⟩ := exists_ok_of_any (x := Samples.sources >>= (·.type Samples.readerName))
    (f := fun t => !t.decl.interfaces.contains Samples.sourceName && t.pool.contains Samples.sourceName &&
      t.reachableMethods.contains Samples.textSourceGet && (make .default (.ofType t)).isOk &&
      Samples.readerDefaults.all fun named => (t.interface? named.1).any fun i =>
        (i.defaultsOf "get()").getLast? == some Samples.textSourceBridge && (i.defaultsOf "get()").contains named.2)
    (by decide +kernel)
  simp only [Bool.and_eq_true, Bool.not_eq_true', List.contains_iff_mem, List.all_eq_true, Option.any_eq_true,
    beq_iff_eq, ← Bool.not_eq_true] at htest
  obtain ⟨⟨⟨⟨hunlisted, hknown⟩, hreach⟩, hmake⟩, hnamed⟩ := htest
  obtain ⟨p, hp⟩ := exists_ok_of_isOk hmake
  refine ⟨t, p, ht, hp, hunlisted, hknown, hreach, fun name m hmem => ?_⟩
  obtain ⟨i, hi, hlast, hmem⟩ := hnamed (name, m) hmem
  obtain ⟨hlisted, hname⟩ := KnownType.interface?_eq_some_iff.1 hi
  exact ⟨i, hlisted, hname, hlast, hmem⟩

/-- of the interfaces above a class, those that it lists itself offer the default methods they reach -/
theorem reader_defaultCall_legal : ∃ t i j p m, Samples.sources >>= (·.type Samples.readerName) = .ok t ∧
    t.pool.type? Samples.wordSourceName = some i ∧ t.pool.type? Samples.sourceName = some j ∧
    make .default (.ofType t) = .ok p ∧ OffersDefault t i "get()" m ∧ p.defaultCall i "get()" = .legal m i ∧
    p.defaultCall j "get()" = .illegal := by
  obtain ⟨t, p, ht, hp, hunlisted, hknown, -, hdefaults⟩ := exists_reader
  obtain ⟨i, hi, hname, -, hmem⟩ := hdefaults _ Samples.wordSourceGet (.tail _ (.head _))
  have htype : t.pool.type? Samples.wordSourceName = some i := hname ▸ (KnownType.mem_interfaces_iff.1 hi).2
  obtain ⟨d, hd⟩ := Option.isSome_iff_exists.1 hknown
  have hoffered : OffersDefault t i "get()" Samples.wordSourceGet :=
    offersDefault_iff.2 ⟨i, KnownType.interface?_eq_some_iff.2 ⟨hi, rfl⟩, hmem⟩
  obtain ⟨hlegal, hnamed, -, -⟩ := defaultCall_legal_iff t .default p hp i "get()"
  obtain ⟨-, -, hillegal, -⟩ := defaultCall_legal_iff t .default p hp ⟨t.pool, d, Pool.find?_self hd⟩ "get()"
  have hj : t.pool.type? Samples.sourceName = some ⟨t.pool, d, Pool.find?_self hd⟩ :=
    Pool.type?_eq_some_iff.2 ⟨rfl, hd⟩
  have hother : p.defaultCall ⟨t.pool, d, Pool.find?_self hd⟩ "get()" = .illegal :=
    hillegal fun ⟨_, hm⟩ => hunlisted (Pool.find?_name hd ▸ hm.listed)
  cases hcall : p.defaultCall i "get()" with
  | illegal => exact absurd (hlegal.2 ⟨_, hoffered⟩) (by simp [hcall, SpecialCall.isLegal])
  | legal m on =>
    obtain ⟨rfl, hm⟩ := hnamed m on hcall
    exact ⟨t, on, _, p, m, ht, htype, hj, hp, hm, hcall, hother⟩

/-! ## Bridges among default methods -/

/-- some method is no bridge, and nothing but bridges comes after the last such method -/
def BridgesLast (ms : List Method) : Prop :=
  ∃ before m bridges, ms = before ++ m :: bridges ∧ m.isBridge = false ∧ bridges ≠ [] ∧ ∀ b ∈ bridges, b.isBridge = true

theorem bridgesLast_iff {ms : List Method} : BridgesLast ms ↔
    ∃ b, ms.getLast? = some b ∧ b.isBridge = true ∧ ∃ m ∈ ms, m.isBridge = false := by
  constructor
  · rintro ⟨before, m, bridges, rfl, hm, hne, hbridges⟩
    obtain ⟨b, hb⟩ : ∃ b, bridges.getLast? = some b := ⟨_, List.getLast?_eq_some_getLast hne⟩
    refine ⟨b, ?_, hbridges b (List.mem_of_getLast? hb), m, by simp, hm⟩
    rw [List.getLast?_append, List.getLast?_cons, hb]
    rfl
  · intro h
    -- from the front: what stands before the last method that is no bridge can be left out
    induction ms with
    | nil =>
      obtain ⟨b, hb, -⟩ := h
      exact absurd hb (by simp)
    | cons x xs ih =>
      obtain ⟨b, hb, hbridge, m, hm, hplain⟩ := h
      by_cases hrest : ∃ n ∈ xs, n.isBridge = false
      · obtain ⟨y, ys, rfl⟩ := List.exists_cons_of_ne_nil (List.ne_nil_of_mem hrest.choose_spec.1)
        rw [List.getLast?_cons_cons] at hb
        obtain ⟨before, n, bridges, heq, hlast⟩ := ih ⟨b, hb, hbridge, hrest⟩
        exact ⟨x :: before, n, bridges, by rw [heq, List.cons_append], hlast⟩
      · have hall : ∀ n ∈ xs, n.isBridge = true := fun n hn => by
          by_contra hn'
          exact hrest ⟨n, hn, Bool.eq_false_iff.2 hn'⟩
        have hx : x.isBridge = false := by
          rcases List.mem_cons.1 hm with rfl | hm
          · exact hplain
          · exact absurd hplain (by simp [hall m hm])
        refine ⟨[], x, xs, rfl, hx, ?_, hall⟩
        rintro rfl
        obtain rfl : x = b := by simpa using hb
        exact absurd hbridge (by simp [hx])

/-- the index for super calls keeps a bridge only where there is nothing else -/
theorem isBridge_of_find?_made (hp : make strategy (.ofType t) = .ok p) {b : Method}
    (h : p.invokable.find? signature = some b) (hb : b.isBridge = true) :
    ∀ m ∈ t.reachableMethods, m.uniqueSignature = signature → m.isBridge = true := by
  intro m hm hsig
  rw [find?_made hp, Option.or_eq_some_iff] at h
  rcases h with hplain | ⟨hnone, -⟩
  · exact absurd hb (by simp [(SignatureIndex.first?_eq_some hplain).2.2])
  · simpa using SignatureIndex.first?_eq_none.1 hnone m hm hsig

/-- **The two indexes and bridges.** The index for super calls keeps a bridge only where a signature has bridges only.
The index of an interface keeps the last of its default methods with a signature, whatever it is; it does as the other
index does unless an override of the signature is followed by bridges alone. -/
theorem default_index_bridges (t : KnownType) (strategy : BridgeStrategy) (p : Planner)
    (hp : make strategy (.ofType t) = .ok p) (signature : String) :
    (∀ b, p.invokable.find? signature = some b → b.isBridge = true →
      ∀ m ∈ t.reachableMethods, m.uniqueSignature = signature → m.isBridge = true) ∧
    ∀ i ∈ t.interfaces,
      p.defaultCall i signature = (i.defaultsOf signature).getLast?.elim .illegal (.legal · i) ∧
      ((∀ b on, p.defaultCall i signature = .legal b on → b.isBridge = true →
        ∀ m ∈ i.reachableMethods, m.isDefault = true → m.uniqueSignature = signature → m.isBridge = true) ↔
        ¬ BridgesLast (i.defaultsOf signature)) := by
  refine ⟨fun b h hb => isBridge_of_find?_made hp h hb, fun i hi => ?_⟩
  have hcall : p.defaultCall i signature = (i.defaultsOf signature).getLast?.elim .illegal (.legal · i) := by
    rw [defaultCall_eq hp, KnownType.interface?_eq_some_iff.2 ⟨hi, rfl⟩, Option.bind_some]
  refine ⟨hcall, ?_⟩
  rw [bridgesLast_iff, hcall]
  constructor
  · rintro halike ⟨b, hlast, hb, m, hm, hplain⟩
    obtain ⟨hreach, hdefault, hsig⟩ := KnownType.mem_defaultsOf.1 hm
    have hbridge := halike b i (by rw [hlast]; rfl) hb m hreach hdefault hsig
    exact absurd hbridge (by simp [hplain])
  · intro hnot b on hlegal hb m hreach hdefault hsig
    cases hlast : (i.defaultsOf signature).getLast? with
    | none =>
      rw [hlast] at hlegal
      exact absurd hlegal (by simp)
    | some last =>
      rw [hlast] at hlegal
      obtain ⟨rfl, -⟩ := SpecialCall.legal.inj hlegal
      by_contra hplain
      exact hnot ⟨last, hlast, hb, m, KnownType.mem_defaultsOf.2 ⟨hreach, hdefault, hsig⟩, Bool.eq_false_iff.2 hplain⟩

/-- under one signature and for one type, super calls have no bridge and calls of default methods have one -/
theorem reader_index_bridges : ∃ t p i, Samples.sources >>= (·.type Samples.readerName) = .ok t ∧
    make .default (.ofType t) = .ok p ∧ i ∈ t.interfaces ∧
    (∀ b, p.invokable.find? "get()" = some b → b.isBridge = false) ∧
    ∃ b on, p.defaultCall i "get()" = .legal b on ∧ b.isBridge = true := by
  obtain ⟨t, p, ht, hp, -, -, hreach, hdefaults⟩ := exists_reader
  obtain ⟨i, hi, -, hlast, -⟩ := hdefaults _ Samples.textSourceGet (.head _)
  obtain ⟨hsuper, hdefault⟩ := default_index_bridges t .default p hp "get()"
  refine ⟨t, p, i, ht, hp, hi, fun b hb => ?_, Samples.textSourceBridge, i, ?_, by decide⟩
  · by_contra hbridge
    have := hsuper b hb (Bool.not_eq_false _ ▸ hbridge) _ hreach (by decide)
    exact absurd this (by decide)
  · rw [(hdefault i hi).1, hlast]
    rfl

/-- **A bridge displaces the default method it forwards to**: where an interface declares both, and where it inherits
the bridge below a default method of its own. -/
theorem bridge_displaces_default : ∃ t p, Samples.sources >>= (·.type Samples.readerName) = .ok t ∧
    make .default (.ofType t) = .ok p ∧ Samples.textSourceBridge.isBridge = true ∧
    ∀ name m, (name, m) ∈ Samples.readerDefaults → ∃ i ∈ t.interfaces, i.name = name ∧
      p.defaultCall i "get()" = .legal Samples.textSourceBridge i ∧ m ∈ i.reachableMethods ∧
      m.isDefault = true ∧ m.uniqueSignature = "get()" ∧ m.isBridge = false := by
  obtain ⟨t, p, ht, hp, -, -, -, hdefaults⟩ := exists_reader
  refine ⟨t, p, ht, hp, by decide, fun name m hnamed => ?_⟩
  obtain ⟨i, hi, hname, hlast, hmem⟩ := hdefaults name m hnamed
  obtain ⟨hreach, hdefault, hsig⟩ := KnownType.mem_defaultsOf.1 hmem
  have hcall : p.defaultCall i "get()" = .legal Samples.textSourceBridge i := by
    rw [defaultCall_eq hp, KnownType.interface?_eq_some_iff.2 ⟨hi, rfl⟩, Option.bind_some, hlast]
    rfl
  have hplain : ∀ named ∈ Samples.readerDefaults, named.2.isBridge = false := by decide
  exact ⟨i, hi, hname, hcall, hreach, hdefault, hsig, hplain (name, m) hnamed⟩

end Planner

end CallPlan
