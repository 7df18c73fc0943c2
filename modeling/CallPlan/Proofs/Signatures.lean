/-
Unique signatures tell name and parameters.

A unique signature is the name of a method with the text of its parameters behind it, and no mark of its own between the
two. The parameters are read off their text in one way, whatever object names hold: the reader of parameter lists takes
the text and has one result. What is left is where the name ends. That is settled when both names are the same, and when
neither holds the parenthesis that opens the parameters.

- `renderParameters_inj`: parameter lists are told apart by their text;
- `uniqueSignature_eq_iff`: signatures are equal iff names and parameters are;
- `KeepsApart`, `keepsApart_invokable`, `keepsApart_defaults`: what this means for an index by signature;
- `signatures_identify`: the two together, for all the indexes of a planner.
-/
import CallPlan.Proofs.CallEmission
import CallPlan.Proofs.DefaultCalls

namespace CallPlan

/-! ## Texts of parameters -/

/-- **Parameter lists are told apart by their text.** -/
theorem MethodDescriptor.renderParameters_inj {d e : MethodDescriptor} (hd : d.WellNamed) (he : e.WellNamed) :
    d.renderParameters = e.renderParameters ↔ d.parameters = e.parameters := by
  constructor
  · intro h
    rw [← String.toList_inj, toList_renderParameters, toList_renderParameters, List.cons.injEq] at h
    have hfirst : readParameters [] (parameterChars d.parameters ++ [')']) = .ok (d.parameters, []) :=
      readParameters_eq_ok_iff.2 ⟨hd.parameters, rfl⟩
    have hsecond : readParameters [] (parameterChars d.parameters ++ [')']) = .ok (e.parameters, []) :=
      readParameters_eq_ok_iff.2 ⟨he.parameters, h.2⟩
    exact (Prod.mk.inj (Except.ok.inj (hfirst.symm.trans hsecond))).1
  · intro h
    rw [renderParameters, renderParameters, h]

/-! ## Unique signatures -/

namespace Method

variable {m n : Method}

/-- it is settled where the names end: they are the same, or hold no parenthesis -/
def NamesSettled (m n : Method) : Prop := m.name = n.name ∨ '(' ∉ m.name.toList ∧ '(' ∉ n.name.toList

theorem NamesSettled.symm (h : m.NamesSettled n) : n.NamesSettled m := h.imp Eq.symm And.symm

theorem toList_uniqueSignature (m : Method) :
    m.uniqueSignature.toList = m.name.toList ++ '(' :: (parameterChars m.parameters ++ [')']) := by
  rw [uniqueSignature, String.toList_append, MethodDescriptor.toList_renderParameters]
  rfl

/-- a name without a parenthesis is what stands in front of the first one of the signature -/
theorem takeWhile_uniqueSignature (h : '(' ∉ m.name.toList) :
    m.uniqueSignature.toList.takeWhile (· != '(') = m.name.toList :=
  (split_at_iff.2 ⟨toList_uniqueSignature m, h⟩).1

theorem name_eq_of_uniqueSignature (hnames : m.NamesSettled n) (h : m.uniqueSignature = n.uniqueSignature) :
    m.name = n.name := by
  rcases hnames with hsame | ⟨hm, hn⟩
  · exact hsame
  · rw [← String.toList_inj, ← takeWhile_uniqueSignature hm, h, takeWhile_uniqueSignature hn]

/-- **Unique signatures are equal iff names and parameters are.** -/
theorem uniqueSignature_eq_iff (hm : m.IsRead) (hn : n.IsRead) (hnames : m.NamesSettled n) :
    m.uniqueSignature = n.uniqueSignature ↔ m.name = n.name ∧ m.parameters = n.parameters := by
  have hparameters := MethodDescriptor.renderParameters_inj hm.wellNamed hn.wellNamed
  constructor
  · intro h
    have hname := name_eq_of_uniqueSignature hnames h
    rw [uniqueSignature, uniqueSignature, hname, String.append_right_inj] at h
    exact ⟨hname, hparameters.1 h⟩
  · rintro ⟨hname, hsame⟩
    rw [uniqueSignature, uniqueSignature, hname, hparameters.2 hsame]

end Method

/-! ## Indexes -/

namespace SignatureIndex

variable {index : SignatureIndex} {ms : List Method}

/-- an index of these methods merges no two that differ in name or parameters -/
structure KeepsApart (index : SignatureIndex) (ms : List Method) : Prop where
  /-- what is found has the name and the parameters that were asked for -/
  sound : ∀ m f : Method, index.find? m.uniqueSignature = some f →
    f ∈ ms ∧ (m.IsRead → f.IsRead → m.NamesSettled f → f.name = m.name ∧ f.parameters = m.parameters)
  /-- something is found for every method -/
  complete : ∀ m ∈ ms, ∃ f, index.find? m.uniqueSignature = some f
  /-- methods for which the same is found have one name and the same parameters -/
  apart : ∀ m ∈ ms, ∀ n ∈ ms, m.IsRead → n.IsRead → m.NamesSettled n →
    index.find? m.uniqueSignature = index.find? n.uniqueSignature → m.name = n.name ∧ m.parameters = n.parameters

/-- an index that finds a method of the signature asked for, and one for every method, merges no two -/
theorem keepsApart_of_find?
    (hsound : ∀ signature f, index.find? signature = some f → f ∈ ms ∧ f.uniqueSignature = signature)
    (hcomplete : ∀ m ∈ ms, ∃ f, index.find? m.uniqueSignature = some f) : index.KeepsApart ms where
  sound m f hfind := by
    obtain ⟨hmem, hsignature⟩ := hsound _ f hfind
    exact ⟨hmem, fun hm hf hnames =>
      (Method.uniqueSignature_eq_iff hf hm hnames.symm).1 hsignature⟩
  complete := hcomplete
  apart m hm n hn hread hread' hnames hsame := by
    obtain ⟨f, hfind⟩ := hcomplete m hm
    have hsignature := (hsound _ f hfind).2
    have hsignature' := (hsound _ f (hsame ▸ hfind)).2
    exact (Method.uniqueSignature_eq_iff hread hread' hnames).1 (hsignature.symm.trans hsignature')

/-- **The index for super calls merges no two methods** that differ in name or parameters. -/
theorem keepsApart_invokable (ms : List Method) : (invokable ms).KeepsApart ms := by
  refine keepsApart_of_find? (fun signature f hfind => ?_) fun m hm => ?_
  · rw [find?_invokable, Option.or_eq_some_iff] at hfind
    rcases hfind with hplain | ⟨-, hbridge⟩
    · exact ⟨(first?_eq_some hplain).1, (first?_eq_some hplain).2.1⟩
    · exact ⟨(first?_eq_some hbridge).1, (first?_eq_some hbridge).2.1⟩
  · rw [find?_invokable, ← Option.isSome_iff_exists, Option.isSome_iff_ne_none, ne_eq, Option.or_eq_none_iff]
    rintro ⟨hplain, hbridge⟩
    cases hkind : m.isBridge with
    | false => exact first?_eq_none.1 hplain m hm rfl hkind
    | true => exact first?_eq_none.1 hbridge m hm rfl hkind

/-- **The index of default methods merges no two methods** that differ in name or parameters. -/
theorem keepsApart_defaults (ms : List Method) : (defaults ms).KeepsApart ms := by
  refine keepsApart_of_find? (fun signature f hfind => ?_) fun m hm => ?_
  · rw [find?_defaults] at hfind
    simpa using List.mem_of_getLast? hfind
  · rw [find?_defaults, ← Option.isSome_iff_exists, Option.isSome_iff_ne_none, ne_eq, List.getLast?_eq_none_iff]
    exact List.ne_nil_of_mem (List.mem_filter.2 ⟨hm, BEq.rfl⟩)

end SignatureIndex

/-! ## Main result -/

/-- **Unique signatures identify name and parameters.** For two methods whose descriptors were read, and of which it is
settled where their names end, the unique signatures are equal iff the names are equal and the parameter types are;
results, flags and declaring types play no part. So neither the index of a planner for super calls nor any of its
indexes of default methods merges two such methods that differ in their name or their parameters. -/
theorem signatures_identify :
    (∀ m n : Method, m.IsRead → n.IsRead → m.NamesSettled n →
      (m.uniqueSignature = n.uniqueSignature ↔ m.name = n.name ∧ m.parameters = n.parameters)) ∧
    ∀ strategy i p, Planner.make strategy i = .ok p → p.invokable.KeepsApart i.methods ∧
      ∀ interface ms, (interface, ms) ∈ i.defaults.entries →
        ∃ index, p.defaults.find? interface = some index ∧ index.KeepsApart ms := by
  refine ⟨fun m n => Method.uniqueSignature_eq_iff, fun strategy i p hp => ?_⟩
  obtain ⟨resolver, -, hmk⟩ := bind_eq_ok.1 hp
  obtain rfl := Except.ok.inj hmk
  refine ⟨SignatureIndex.keepsApart_invokable _, fun interface ms hentry => ?_⟩
  refine ⟨.defaults ms, ?_, SignatureIndex.keepsApart_defaults ms⟩
  rw [Table.find?_mapValues, Table.find?_of_mem i.defaults hentry]
  rfl

/-- with a parenthesis in a name, the text of another method's parameters may begin in it -/
example : (Method.mk "c/Store" false "put(La" ⟨[.object "b"], .void⟩ .publicBit).uniqueSignature =
    (Method.mk "c/Store" false "put" ⟨[.object "a(Lb"], .void⟩ .publicBit).uniqueSignature := by
  decide

namespace Samples

/-- takes objects of a class whose name holds parentheses and letters of types, and an array -/
def fillMethod (element : BaseType) (result : ReturnType) : Method :=
  ⟨"c/Store", false, "fill", ⟨[.object "c/Box(I)[J", .array (.base element)], result⟩, .publicBit⟩

def fillMethods : List Method := [fillMethod .int .void, fillMethod .long .void, fillMethod .int (.value (.base .int))]

theorem isRead_fillMethod : ∀ m ∈ fillMethods, m.IsRead := by
  intro m hm
  simp only [fillMethods, List.mem_cons, List.not_mem_nil, or_false] at hm
  rcases hm with rfl | rfl | rfl
  · exact ⟨"(Lc/Box(I)[J;[I)V", by cbv⟩
  · exact ⟨"(Lc/Box(I)[J;[J)V", by cbv⟩
  · exact ⟨"(Lc/Box(I)[J;[I)I", by cbv⟩

/-- methods of one name are told apart by the elements of an array, and not by what they return -/
theorem fill_signatures_identify :
    (fillMethod .int .void).uniqueSignature ≠ (fillMethod .long .void).uniqueSignature ∧
    (fillMethod .int .void).uniqueSignature = (fillMethod .int (.value (.base .int))).uniqueSignature ∧
    ∃ t p, sources >>= (·.type readerName) = .ok t ∧
      Planner.make .leaveBridges ⟨t, fillMethods, .ofList [(t, fillMethods)]⟩ = .ok p ∧
      p.invokable.find? (fillMethod .int .void).uniqueSignature ≠
        p.invokable.find? (fillMethod .long .void).uniqueSignature ∧
      ∃ index, p.defaults.find? t = some index ∧ index.KeepsApart fillMethods := by
  obtain ⟨hsignatures, hindexes⟩ := signatures_identify
  have hints : fillMethod .int .void ∈ fillMethods := .head _
  have hlongs : fillMethod .long .void ∈ fillMethods := .tail _ (.head _)
  have hresult : fillMethod .int (.value (.base .int)) ∈ fillMethods := .tail _ (.tail _ (.head _))
  have hread := isRead_fillMethod _ hints
  have hread' := isRead_fillMethod _ hlongs
  refine ⟨fun h => ?_, ?_, ?_⟩
  · exact absurd ((hsignatures _ _ hread hread' (Or.inl rfl)).1 h).2 (by decide)
  · exact (hsignatures _ _ hread (isRead_fillMethod _ hresult) (Or.inl rfl)).2 ⟨rfl, rfl⟩
  · obtain ⟨t, ht⟩ := exists_ok_of_isOk (x := sources >>= (·.type readerName)) (by decide +kernel)
    obtain ⟨hcalls, hdefaults⟩ := hindexes .leaveBridges ⟨t, fillMethods, .ofList [(t, fillMethods)]⟩ _ rfl
    refine ⟨t, _, ht, rfl, fun h => ?_, hdefaults t fillMethods (.head _)⟩
    exact absurd (hcalls.apart _ hints _ hlongs hread hread' (Or.inl rfl) h).2 (by decide)

end Samples

end CallPlan
