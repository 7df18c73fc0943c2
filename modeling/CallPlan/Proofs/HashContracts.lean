/-
What values need that are kept by their hash.

A collection that hashes its keys compares two of them only where their hashes are the same. It keeps every value once
if equality is an equivalence and equal values feed the same to the hash (`LawfulFeed`), whatever the hash makes of what
it is fed: then comparing hashes first makes no difference (`sameHashed_eq_beq`).

Types, calls, planners, dynamic values and instrumentations each look at other parts of their data to be compared than
to be hashed. What is fed is always determined by what is compared: a planner feeds the size of a table where it
compares the table, and a compound feeds its parts in order, which equal compounds have in pairs at every depth.

- `LawfulFeed` with its instances, and `lawfulFeed_iff` for dynamic values and for trees: they ask of the types in them
  what is asked of themselves;
- `keysHashed_eq`, `pairwise_keysHashed`: what is kept by its hash;
- `hash_contracts`: all equalities of this kind, and the collections that rest on them.
-/
import CallPlan.Dynamic
import CallPlan.Samples.Auxiliaries
import CallPlan.Proofs.PlannerEquality
import CallPlan.Proofs.Registration

namespace CallPlan

/-- equality is an equivalence, and equal values feed the same to a hash -/
class LawfulFeed (α : Type) [BEq α] [HashFeed α] : Prop extends EquivBEq α where
  feed_congr : ∀ {a b : α}, (a == b) = true → feed a = feed b

export LawfulFeed (feed_congr)

namespace LawfulFeed

variable {α β : Type} [BEq α] [HashFeed α]

/-- values that are compared by a key which determines what they feed -/
theorem of_key (key : α → β) (hbeq : ∀ a b : α, (a == b) = true ↔ key a = key b)
    (hfeed : ∀ a b : α, key a = key b → feed a = feed b) : LawfulFeed α where
  rfl := (hbeq _ _).2 rfl
  symm h := (hbeq _ _).2 ((hbeq _ _).1 h).symm
  trans h k := (hbeq _ _).2 (((hbeq _ _).1 h).trans ((hbeq _ _).1 k))
  feed_congr h := hfeed _ _ ((hbeq _ _).1 h)

/-- values that are compared as their images are, and feed the same after what all images feed first -/
theorem of_image [BEq β] [HashFeed β] [LawfulFeed β] (f : α → β) (first : List FeedItem)
    (hbeq : ∀ a b, (f a == f b) = (a == b)) (hfeed : ∀ a, feed (f a) = first ++ feed a) : LawfulFeed α where
  rfl {a} := by
    rw [← hbeq]
    exact BEq.rfl
  symm h := by
    rw [← hbeq] at h ⊢
    exact BEq.symm h
  trans h k := by
    rw [← hbeq] at h k ⊢
    exact BEq.trans h k
  feed_congr {a b} h := by
    rw [← hbeq] at h
    have hsame := feed_congr h
    rwa [hfeed, hfeed, List.append_cancel_left_eq] at hsame

instance (priority := low) [LawfulBEq α] : LawfulFeed α := of_key id (fun _ _ => beq_iff_eq) fun _ _ => congrArg feed

end LawfulFeed

/-! ## Kept by hash -/

section Hashed

variable {α H : Type} [BEq α] [HashFeed α] [DecidableEq H] {hash : List FeedItem → H}

/-- the comparison of a collection that hashes: the values themselves only where their hashes are the same -/
def sameHashed (hash : List FeedItem → H) (a b : α) : Bool := hash (feed a) == hash (feed b) && a == b

/-- adds a value that is not there yet -/
def addHashed (hash : List FeedItem → H) (kept : List α) (a : α) : List α :=
  if kept.any (sameHashed hash a) then kept else kept ++ [a]

/-- the values that a collection keeps which was given these one after the other -/
def keysHashed (hash : List FeedItem → H) (as : List α) : List α := as.foldl (addHashed hash) []

/-- **Hashes make no difference** to how values are compared. -/
theorem sameHashed_eq_beq [LawfulFeed α] (a b : α) : sameHashed hash a b = (a == b) := by
  cases hab : a == b with
  | false => simp [sameHashed, hab]
  | true => simp [sameHashed, hab, feed_congr hab]

/-- **What is kept by its hash** is each value where it came first. -/
theorem keysHashed_eq [LawfulFeed α] (as : List α) : keysHashed hash as = as.eraseDups := by
  induction as using List.reverseRecOn with
  | nil => rfl
  | append_singleton as a ih =>
    have hsame : sameHashed hash a = (a == ·) := funext (sameHashed_eq_beq a)
    rw [keysHashed, List.foldl_concat, ← keysHashed, ih, addHashed, hsame, eraseDups_concat]

theorem pairwise_addHashed [LawfulFeed α] {kept : List α} (h : kept.Pairwise fun a b => (a == b) = false) (a : α) :
    (addHashed hash kept a).Pairwise fun a b => (a == b) = false := by
  unfold addHashed
  split
  · exact h
  · rename_i hnew
    refine List.pairwise_append.2 ⟨h, List.pairwise_singleton _ _, fun b hb c hc => ?_⟩
    obtain rfl := List.mem_singleton.1 hc
    have hne := List.any_eq_false.1 (Bool.eq_false_iff.2 hnew) b hb
    rw [sameHashed_eq_beq, BEq.comm] at hne
    exact Bool.eq_false_iff.2 hne

/-- **No two of the values kept are equal.** -/
theorem pairwise_keysHashed [LawfulFeed α] (as : List α) :
    (keysHashed hash as).Pairwise fun a b => (a == b) = false := by
  have hrun : ∀ kept : List α, kept.Pairwise (fun a b => (a == b) = false) →
      (as.foldl (addHashed hash) kept).Pairwise fun a b => (a == b) = false := by
    induction as with
    | nil => exact fun _ h => h
    | cons a as ih => exact fun kept h => ih _ (pairwise_addHashed h a)
  exact hrun [] .nil

end Hashed

/-! ## Types and calls -/

instance : LawfulFeed KnownType :=
  .of_key KnownType.name (fun _ _ => KnownType.beq_iff_name_eq) fun _ _ => congrArg (feed : String → List FeedItem)

namespace SpecialCall

theorem feed_eq_of_key_eq (c d : SpecialCall) (h : c.key = d.key) : feed c = feed d := by
  cases c with
  | illegal =>
    cases d with
    | illegal => rfl
    | legal n u => exact absurd h (by simp [key])
  | legal m t =>
    cases d with
    | illegal => exact absurd h (by simp [key])
    | legal n u =>
      obtain ⟨htype, htoken⟩ := Prod.mk.inj (Option.some.inj h)
      obtain ⟨hname, hresult, hparameters⟩ := MethodToken.mk.inj htoken
      show feed m.name ++ feed m.parameters ++ feed m.result ++ feed t.name =
        feed n.name ++ feed n.parameters ++ feed n.result ++ feed u.name
      rw [hname, hparameters, hresult, htype]

instance : LawfulFeed SpecialCall := .of_key key beq_iff_key_eq feed_eq_of_key_eq

end SpecialCall

/-! ## Planners -/

/-- agreement of tables is an equivalence where agreement of their values is one -/
theorem Table.agree_equiv {κ α : Type} [BEq κ] [EquivBEq κ] {same : α → α → Bool}
    (h : Equivalence fun v w => same v w = true) :
    Equivalence fun a b : Table κ α => a.agree same b = true where
  refl := agree_self h.refl
  symm := agree_symm fun _ _ => h.symm
  trans {_ _ _} hab hbc := by
    refine agree_trans (fun u v w huv hvw => ?_) hab hbc
    exact h.trans huv hvw

theorem beq_equivalence (α : Type) [BEq α] [EquivBEq α] : Equivalence fun a b : α => (a == b) = true :=
  ⟨fun _ => BEq.rfl, BEq.symm, BEq.trans⟩

instance : EquivBEq BridgeResolver where
  rfl := Bool.and_eq_true_iff.2 ⟨BEq.rfl, (Table.agree_equiv (beq_equivalence _)).refl _⟩
  symm h := by
    obtain ⟨howner, hindex⟩ := Bool.and_eq_true_iff.1 h
    exact Bool.and_eq_true_iff.2 ⟨BEq.symm howner, (Table.agree_equiv (beq_equivalence _)).symm hindex⟩
  trans h k := by
    obtain ⟨howner, hindex⟩ := Bool.and_eq_true_iff.1 h
    obtain ⟨howner', hindex'⟩ := Bool.and_eq_true_iff.1 k
    exact Bool.and_eq_true_iff.2
      ⟨BEq.trans howner howner', (Table.agree_equiv (beq_equivalence _)).trans hindex hindex'⟩

instance equivBEqOption {α : Type} [BEq α] [EquivBEq α] : EquivBEq (Option α) where
  rfl {a} := by cases a <;> simp
  symm {a b} h := by
    cases a <;> cases b <;> simp_all [BEq.comm]
  trans {a b c} h k := by
    cases a <;> cases b <;> cases c <;> simp_all
    exact BEq.trans h k

/-- equal resolvers count the same bridges -/
theorem bridgeCount_congr {a b : Option BridgeResolver} (h : (a == b) = true) : bridgeCount a = bridgeCount b := by
  cases a with
  | none =>
    cases b with
    | none => rfl
    | some r => exact absurd h (by simp)
  | some r =>
    cases b with
    | none => exact absurd h (by simp)
    | some r' => exact Table.size_eq_of_agree (Bool.and_eq_true_iff.1 h).2

namespace Planner

theorem defaults_equiv :
    Equivalence fun a b : Table KnownType SignatureIndex => a.agree (Table.agree (· == ·)) b = true :=
  Table.agree_equiv (Table.agree_equiv (beq_equivalence _))

instance : LawfulFeed Planner where
  rfl := beq_iff.2 ⟨BEq.rfl, defaults_equiv.refl _, BEq.rfl, BEq.rfl⟩
  symm h := by
    obtain ⟨htype, hdefaults, hstrategy, hresolver⟩ := beq_iff.1 h
    exact beq_iff.2 ⟨BEq.symm htype, defaults_equiv.symm hdefaults, BEq.symm hstrategy, BEq.symm hresolver⟩
  trans h k := by
    obtain ⟨htype, hdefaults, hstrategy, hresolver⟩ := beq_iff.1 h
    obtain ⟨htype', hdefaults', hstrategy', hresolver'⟩ := beq_iff.1 k
    exact beq_iff.2 ⟨BEq.trans htype htype', defaults_equiv.trans hdefaults hdefaults',
      BEq.trans hstrategy hstrategy', BEq.trans hresolver hresolver'⟩
  feed_congr {p q} h := by
    obtain ⟨htype, hdefaults, hstrategy, hresolver⟩ := beq_iff.1 h
    show feed p.type ++ [.number p.defaults.size] ++ feed p.strategy ++ [.number (bridgeCount p.resolver)] =
      feed q.type ++ [.number q.defaults.size] ++ feed q.strategy ++ [.number (bridgeCount q.resolver)]
    rw [feed_congr htype, Table.size_eq_of_agree hdefaults, eq_of_beq hstrategy, bridgeCount_congr hresolver]

end Planner

/-! ## Dynamic values -/

namespace Dynamic

variable {κ : Type} [DecidableEq κ] {V : κ → Type} [∀ k, BEq (V k)]

/-- dynamic values are equal when they are equal values of one type -/
theorem beq_iff {a b : Dynamic V} : (a == b) = true ↔ ∃ k, ∃ v w : V k, a = ⟨k, v⟩ ∧ b = ⟨k, w⟩ ∧ (v == w) = true := by
  constructor
  · intro h
    have hkind := kind_eq_of_beq h
    obtain ⟨k, v⟩ := a
    obtain ⟨k', w⟩ := b
    obtain rfl : k = k' := hkind
    rw [mk_beq_mk] at h
    exact ⟨k, v, w, rfl, rfl, h⟩
  · rintro ⟨k, v, w, rfl, rfl, h⟩
    rw [mk_beq_mk]
    exact h

/-- values of different types are unequal -/
theorem beq_eq_false {a b : Dynamic V} (h : a.kind ≠ b.kind) : (a == b) = false :=
  Bool.eq_false_iff.2 fun hab => h (kind_eq_of_beq hab)

instance [HashFeed κ] [∀ k, HashFeed (V k)] [∀ k, LawfulFeed (V k)] : LawfulFeed (Dynamic V) where
  rfl {a} := by
    obtain ⟨k, v⟩ := a
    rw [mk_beq_mk]
    exact BEq.rfl
  symm h := by
    obtain ⟨k, v, w, rfl, rfl, hvw⟩ := beq_iff.1 h
    rw [mk_beq_mk]
    exact BEq.symm hvw
  trans h h' := by
    obtain ⟨k, v, w, rfl, rfl, hvw⟩ := beq_iff.1 h
    obtain ⟨j, w', x, hmid, rfl, hwx⟩ := beq_iff.1 h'
    obtain ⟨rfl, hvalue⟩ := Dynamic.mk.inj hmid
    obtain rfl := eq_of_heq hvalue
    rw [mk_beq_mk]
    exact BEq.trans hvw hwx
  feed_congr h := by
    obtain ⟨k, v, w, rfl, rfl, hvw⟩ := beq_iff.1 h
    exact congrArg (feed k ++ ·) (feed_congr hvw)

/-- **Dynamic values need of every type what they need to be kept by their hash**, and nothing else. -/
theorem lawfulFeed_iff [HashFeed κ] [∀ k, HashFeed (V k)] : LawfulFeed (Dynamic V) ↔ ∀ k, LawfulFeed (V k) :=
  ⟨fun _ k => .of_image (fun v : V k => (⟨k, v⟩ : Dynamic V)) (feed k) (fun _ _ => mk_beq_mk) fun _ => rfl,
    fun _ => inferInstance⟩

end Dynamic

/-! ## Trees of instrumentations -/

namespace Instrumentation

variable {ι : Type} [BEq ι] {x : ι} {b : Instrumentation ι} {as bs : List (Instrumentation ι)}

/-! ### What equals a tree of each form -/

theorem same_single_iff : same (single x) b = true ↔ ∃ y, b = single y ∧ (x == y) = true := by
  cases b <;> simp [same]

theorem same_compound_iff : same (compound as) b = true ↔ ∃ bs, b = compound bs ∧ sameParts as bs = true := by
  cases b <;> simp [same]

theorem sameParts_nil_iff : sameParts ([] : List (Instrumentation ι)) bs = true ↔ bs = [] := by
  cases bs <;> simp [sameParts]

theorem sameParts_cons_iff {a : Instrumentation ι} : sameParts (a :: as) bs = true ↔
    ∃ b rest, bs = b :: rest ∧ same a b = true ∧ sameParts as rest = true := by
  cases bs <;> simp [sameParts]

/-! ### Equality at every depth -/

mutual

theorem same_self [ReflBEq ι] : ∀ a : Instrumentation ι, same a a = true
  | .single _ => same_single_iff.2 ⟨_, rfl, BEq.rfl⟩
  | .compound parts => same_compound_iff.2 ⟨parts, rfl, sameParts_self parts⟩

theorem sameParts_self [ReflBEq ι] : ∀ as : List (Instrumentation ι), sameParts as as = true
  | [] => sameParts_nil_iff.2 rfl
  | a :: as => sameParts_cons_iff.2 ⟨a, as, rfl, same_self a, sameParts_self as⟩

end

mutual

theorem same_symm [PartialEquivBEq ι] : ∀ (a : Instrumentation ι) {b}, same a b = true → same b a = true
  | .single x, _, h => by
    obtain ⟨y, rfl, hxy⟩ := same_single_iff.1 h
    exact same_single_iff.2 ⟨x, rfl, BEq.symm hxy⟩
  | .compound as, _, h => by
    obtain ⟨bs, rfl, hparts⟩ := same_compound_iff.1 h
    exact same_compound_iff.2 ⟨as, rfl, sameParts_symm as hparts⟩

theorem sameParts_symm [PartialEquivBEq ι] :
    ∀ (as : List (Instrumentation ι)) {bs}, sameParts as bs = true → sameParts bs as = true
  | [], _, h => by
    obtain rfl := sameParts_nil_iff.1 h
    exact h
  | a :: as, _, h => by
    obtain ⟨b, bs, rfl, hfirst, hrest⟩ := sameParts_cons_iff.1 h
    exact sameParts_cons_iff.2 ⟨a, as, rfl, same_symm a hfirst, sameParts_symm as hrest⟩

end

mutual

theorem same_trans [PartialEquivBEq ι] :
    ∀ (a : Instrumentation ι) {b c}, same a b = true → same b c = true → same a c = true
  | .single x, _, _, h, k => by
    obtain ⟨y, rfl, hxy⟩ := same_single_iff.1 h
    obtain ⟨z, rfl, hyz⟩ := same_single_iff.1 k
    exact same_single_iff.2 ⟨z, rfl, BEq.trans hxy hyz⟩
  | .compound as, _, _, h, k => by
    obtain ⟨bs, rfl, hparts⟩ := same_compound_iff.1 h
    obtain ⟨cs, rfl, hparts'⟩ := same_compound_iff.1 k
    exact same_compound_iff.2 ⟨cs, rfl, sameParts_trans as hparts hparts'⟩

theorem sameParts_trans [PartialEquivBEq ι] : ∀ (as : List (Instrumentation ι)) {bs cs},
    sameParts as bs = true → sameParts bs cs = true → sameParts as cs = true
  | [], _, _, h, k => by
    obtain rfl := sameParts_nil_iff.1 h
    exact k
  | a :: as, _, _, h, k => by
    obtain ⟨b, bs, rfl, hfirst, hrest⟩ := sameParts_cons_iff.1 h
    obtain ⟨c, cs, rfl, hfirst', hrest'⟩ := sameParts_cons_iff.1 k
    exact sameParts_cons_iff.2 ⟨c, cs, rfl, same_trans a hfirst hfirst', sameParts_trans as hrest hrest'⟩

end

/-! ### What is fed at every depth -/

variable [HashFeed ι]

mutual

theorem feedOf_congr [LawfulFeed ι] : ∀ (a : Instrumentation ι) {b}, same a b = true → feedOf a = feedOf b
  | .single x, _, h => by
    obtain ⟨y, rfl, hxy⟩ := same_single_iff.1 h
    rw [feedOf, feedOf, feed_congr hxy]
  | .compound as, _, h => by
    obtain ⟨bs, rfl, hparts⟩ := same_compound_iff.1 h
    obtain ⟨hlength, hfeed⟩ := feedOfParts_congr as hparts
    rw [feedOf, feedOf, hlength, hfeed]

theorem feedOfParts_congr [LawfulFeed ι] : ∀ (as : List (Instrumentation ι)) {bs}, sameParts as bs = true →
    as.length = bs.length ∧ feedOfParts as = feedOfParts bs
  | [], _, h => by
    obtain rfl := sameParts_nil_iff.1 h
    exact ⟨rfl, rfl⟩
  | a :: as, _, h => by
    obtain ⟨b, bs, rfl, hfirst, hrest⟩ := sameParts_cons_iff.1 h
    obtain ⟨hlength, hfeed⟩ := feedOfParts_congr as hrest
    rw [feedOfParts, feedOfParts, feedOf_congr a hfirst, hfeed]
    exact ⟨congrArg Nat.succ hlength, rfl⟩

end

instance [LawfulFeed ι] : LawfulFeed (Instrumentation ι) where
  rfl {a} := same_self a
  symm {a _} h := same_symm a h
  trans {a _ _} h k := same_trans a h k
  feed_congr {a _} h := feedOf_congr a h

/-- **Trees need of their leaves what they need to be kept by their hash**, and nothing else. -/
theorem lawfulFeed_iff : LawfulFeed (Instrumentation ι) ↔ LawfulFeed ι :=
  ⟨fun _ => .of_image single [.number 0] (fun _ _ => rfl) fun _ => rfl, fun _ => inferInstance⟩

end Instrumentation

/-! ## Collections -/

/-- the values that a collection keeps which hashes its keys, of all those it was given, whatever its hash is -/
structure KeptOnce {α : Type} [BEq α] [HashFeed α] (given kept : List α) : Prop where
  hashed : ∀ {H : Type} [DecidableEq H] (hash : List FeedItem → H), keysHashed hash given = kept
  unequal : kept.Pairwise fun a b => (a == b) = false

theorem keptOnce_eraseDups {α : Type} [BEq α] [HashFeed α] [LawfulFeed α] (as : List α) :
    KeptOnce as as.eraseDups where
  hashed _ := keysHashed_eq as
  unequal := by
    have hkept : (keysHashed id as).Pairwise fun a b => (a == b) = false := pairwise_keysHashed as
    rwa [keysHashed_eq] at hkept

/-- the keys of a table are the written ones, each where it was written first -/
theorem Table.keys_ofList {κ α : Type} [BEq κ] [PartialEquivBEq κ] (pairs : List (κ × α)) :
    (ofList pairs).keys = (pairs.map (·.1)).eraseDups := by
  induction pairs using List.reverseRecOn with
  | nil => rfl
  | append_singleton pairs p ih =>
    have hcomm : ∀ ks : List κ, ks.any (· == p.1) = ks.any (p.1 == ·) := fun ks => by simp only [BEq.comm]
    have hlast : ofList (pairs ++ [p]) = (ofList pairs).insert p.1 p.2 := List.foldl_concat _ _ _ _
    rw [hlast, keys_insert, ih, hcomm, List.map_append, List.map_singleton, eraseDups_concat]

theorem KnownType.keptOnce_defaultMethods (t : KnownType) : KeptOnce t.interfaces t.defaultMethods.keys := by
  have hkeys : t.defaultMethods.keys = t.interfaces.eraseDups := by
    rw [defaultMethods, Table.keys_ofList, List.map_map]
    exact congrArg List.eraseDups (List.map_id' _)
  exact hkeys ▸ keptOnce_eraseDups t.interfaces

theorem Registry.keptOnce_after {α : Type} [Auxiliary α] [HashFeed α] [LawfulFeed α] (instrumented : KnownType)
    (suffix : String) (requests : List α) : KeptOnce ((empty instrumented suffix).granted requests)
      ((empty instrumented suffix).after requests).registered.keys :=
  keys_after instrumented suffix requests ▸ keptOnce_eraseDups _

/-! ## Main result -/

section Main

variable {κ κ' : Type} [DecidableEq κ] [HashFeed κ] [DecidableEq κ'] [HashFeed κ'] (V : κ → Type) (W : κ' → Type)
  [∀ k, BEq (V k)] [∀ k, HashFeed (V k)] [∀ k, Auxiliary (W k)] [∀ k, HashFeed (W k)]

/-- **Equality and hashing agree.** On types, calls and planners equality is an equivalence, and equal values feed the
same to a hash. As dynamic values, and in trees of dynamic instrumentations, values do so iff those of every single type
do; values of different types are unequal, and so are a compound and any other value. Collections that hash these keep
no two equal keys: the default methods of a type and of its planners are kept once for each interface, a compound
without duplicates has each of its parts once, and a registry holds each of the granted values once. -/
theorem hash_contracts :
    (LawfulFeed KnownType ∧ LawfulFeed SpecialCall ∧ LawfulFeed Planner) ∧
    ((LawfulFeed (Instrumentation (Dynamic V)) ↔ ∀ k, LawfulFeed (V k)) ∧
      (LawfulFeed (Dynamic V) ↔ ∀ k, LawfulFeed (V k)) ∧ (LawfulFeed (Dynamic W) ↔ ∀ k, LawfulFeed (W k))) ∧
    ((∀ a b : Dynamic V, a.kind ≠ b.kind → (a == b) = false) ∧
      (∀ a b : Dynamic W, a.kind ≠ b.kind → (a == b) = false) ∧
      ∀ (d : Dynamic V) parts, (Instrumentation.single d == .compound parts) = false ∧
        (Instrumentation.compound parts == .single d) = false) ∧
    (∀ t : KnownType, KeptOnce t.interfaces t.defaultMethods.keys ∧
      ∀ strategy p, Planner.make strategy (.ofType t) = .ok p → p.defaults.keys = t.defaultMethods.keys) ∧
    ((∀ k, LawfulFeed (V k)) → ∀ parts : List (Instrumentation (Dynamic V)),
      KeptOnce parts (Instrumentation.distinctParts parts)) ∧
    ((∀ k, LawfulFeed (W k)) → ∀ instrumented suffix (requests : List (Dynamic W)),
      KeptOnce ((Registry.empty instrumented suffix).granted requests)
        ((Registry.empty instrumented suffix).after requests).registered.keys) := by
  refine ⟨⟨inferInstance, inferInstance, inferInstance⟩, ⟨?_, Dynamic.lawfulFeed_iff, Dynamic.lawfulFeed_iff⟩,
    ⟨fun a b => Dynamic.beq_eq_false, fun a b => Dynamic.beq_eq_false, fun d parts => ⟨rfl, rfl⟩⟩,
    fun t => ⟨t.keptOnce_defaultMethods, fun strategy p hp => ?_⟩, fun _ => keptOnce_eraseDups,
    fun _ => Registry.keptOnce_after⟩
  · exact Instrumentation.lawfulFeed_iff.trans Dynamic.lawfulFeed_iff
  · obtain ⟨resolver, -, hmk⟩ := bind_eq_ok.1 hp
    obtain rfl := Except.ok.inj hmk
    simp [Table.keys, Table.mapValues, Invokables.ofType]

end Main

/-! ### Samples -/

namespace Samples

/-- samples are equal as dynamic values when they are equal at all -/
theorem SampleInstrumentation.dynamic_beq (i j : SampleInstrumentation) : (i.dynamic == j.dynamic) = (i == j) := by
  rw [Bool.eq_iff_iff, Dynamic.beq_iff, beq_iff_eq]
  constructor
  · rintro ⟨k, v, w, hi, hj, hvw⟩
    rw [eq_of_beq hvw, ← hj] at hi
    cases i <;> cases j <;> cases hi <;> rfl
  · rintro rfl
    exact ⟨i.dynamic.kind, i.dynamic.value, i.dynamic.value, rfl, rfl, BEq.rfl⟩

instance : LawfulFeed SampleInstrumentation :=
  .of_image SampleInstrumentation.dynamic [] SampleInstrumentation.dynamic_beq fun _ => rfl

/-- a nested compound twice, and a leaf of it between them and at the end -/
def repeatedParts : List (Instrumentation (Dynamic SampleKind.Value)) :=
  let mark := .single (SampleInstrumentation.marker "mark" 0x01 2).dynamic
  let nested := .compound [mark, .compound [.single SampleInstrumentation.abstractMethod.dynamic]]
  [nested, mark, nested, .single SampleInstrumentation.abstractMethod.dynamic, mark]

def repeatedRequests : List (Dynamic AuxiliaryKind.Value) :=
  [⟨.tagged, "b"⟩, ⟨.missingSuper, ()⟩, ⟨.tagged, "a"⟩, ⟨.tagged, "b"⟩]

/-- of repeated samples every one is kept once -/
theorem sample_hash_contracts : LawfulFeed (Instrumentation SampleInstrumentation) ∧
    LawfulFeed (Instrumentation (Dynamic SampleKind.Value)) ∧ LawfulFeed (Dynamic AuxiliaryKind.Value) ∧
    ∃ t keys, (sources >>= (·.type readerName)) = .ok t ∧
      KeptOnce t.interfaces t.defaultMethods.keys ∧
      t.defaultMethods.keys.map (·.name) = [textSourceName, wordSourceName] ∧
      KeptOnce repeatedParts (Instrumentation.distinctParts repeatedParts) ∧
      (Instrumentation.distinctParts repeatedParts).length = 3 ∧
      KeptOnce ((Registry.empty t Registry.defaultSuffix).granted repeatedRequests) keys ∧
      keys.map (fun d => SampleAuxiliary.ofValue d.kind d.value) = [.tagged "b", .tagged "a"] := by
  obtain ⟨t, ht, htest⟩ := exists_ok_of_any (x := sources >>= (·.type readerName))
    (f := fun t => t.defaultMethods.keys.map (·.name) == [textSourceName, wordSourceName] &&
      ((Registry.empty t Registry.defaultSuffix).after repeatedRequests).registered.keys.map
        (fun d => SampleAuxiliary.ofValue d.kind d.value) == [.tagged "b", .tagged "a"]) (by decide +kernel)
  rw [Bool.and_eq_true, beq_iff_eq, beq_iff_eq] at htest
  have hinstrumentations : ∀ k, LawfulFeed (SampleKind.Value k) := fun _ => inferInstance
  have hauxiliaries : ∀ k, LawfulFeed (AuxiliaryKind.Value k) := fun _ => inferInstance
  obtain ⟨-, ⟨htrees, -, hdynamic⟩, -, htypes, hparts, hregistry⟩ :=
    hash_contracts SampleKind.Value AuxiliaryKind.Value
  exact ⟨inferInstance, htrees.2 hinstrumentations, hdynamic.2 hauxiliaries, t, _, ht, (htypes t).1, htest.1,
    hparts hinstrumentations repeatedParts, by decide +kernel,
    hregistry hauxiliaries t Registry.defaultSuffix repeatedRequests, htest.2⟩

end Samples

end CallPlan
