/-
Internal names are segments between slashes, and convert without loss.

The check of an internal name tests its ends, its neighbouring slashes and its characters one after the other. Together
the tests say that the parts between the slashes are not empty and hold no delimiter (`isValid_iff_segments`). That
keeps out what the two other forms of a name could be misread for: the descriptor ends at the first semicolon, and the
dotted form has dots for slashes.

- `forall_segments_ne_nil_iff`: what it takes that no segment is empty, by cutting at the first slash;
- `ofDotted_dotted`: a valid name is read back from its dotted form;
- `internal_names_exact`: the check, and both conversions for all types of all pools that were built.
-/
import CallPlan.Proofs.DescriptorText
import CallPlan.Proofs.Flattening
import CallPlan.Proofs.Names

namespace CallPlan

namespace InternalName

/-! ## Segments -/

/-- the parts of a name between its slashes -/
def segments (name : String) : List (List Char) := name.toList.splitOn '/'

/-- behind a segment, slashes stand next to each other where they do so behind its slash -/
theorem hasEmptySegment_segment {segment rest : List Char} (h : '/' ∉ segment) :
    hasEmptySegment (segment ++ '/' :: rest) = (rest.head? == some '/' || hasEmptySegment rest) := by
  induction segment with
  | nil => rw [List.nil_append, hasEmptySegment_cons, beq_self_eq_true, Bool.true_and]
  | cons c cs ih =>
    have hc : c ≠ '/' := (List.ne_of_not_mem_cons h).symm
    rw [List.cons_append, hasEmptySegment_cons, beq_false_of_ne hc, Bool.false_and, Bool.false_or]
    exact ih (List.not_mem_of_not_mem_cons h)

/-- a text begins with a slash iff the segment in front of a slash is empty -/
theorem head?_segment_ne_iff {segment rest : List Char} (h : '/' ∉ segment) :
    (segment ++ '/' :: rest).head? ≠ some '/' ↔ segment ≠ [] := by
  cases segment with
  | nil => simp
  | cons c cs => simpa using (List.ne_of_not_mem_cons h).symm

/-- a text ends with a slash iff nothing stands behind a slash of it, or something that ends with one -/
theorem getLast?_segment_ne_iff {segment rest : List Char} :
    (segment ++ '/' :: rest).getLast? ≠ some '/' ↔ rest ≠ [] ∧ rest.getLast? ≠ some '/' := by
  rw [List.getLast?_append_cons, List.getLast?_cons]
  cases hend : rest.getLast? with
  | none => simp [List.getLast?_eq_none_iff.1 hend]
  | some c => simpa using fun _ => List.ne_nil_of_mem (List.mem_of_getLast? hend)

/-- **No segment is empty** iff there are characters, with no slash at either end and no two slashes in a row. -/
theorem forall_segments_ne_nil_iff (cs : List Char) : (∀ segment ∈ cs.splitOn '/', segment ≠ []) ↔
    cs ≠ [] ∧ cs.head? ≠ some '/' ∧ cs.getLast? ≠ some '/' ∧ hasEmptySegment cs = false := by
  by_cases hslash : '/' ∈ cs
  · -- cut at the first slash: the segment in front of it decides the left end, the rest everything else
    obtain ⟨segment, rest, hcut, hfree⟩ := List.eq_append_cons_of_mem hslash
    have hrest := forall_segments_ne_nil_iff rest
    subst hcut
    rw [List.splitOn_append_cons_self_of_not_mem hfree, List.forall_mem_cons, hrest, head?_segment_ne_iff hfree,
      getLast?_segment_ne_iff, hasEmptySegment_segment hfree, Bool.or_eq_false_iff, beq_eq_false_iff_ne]
    constructor
    · rintro ⟨hsegment, hne, hfirst, hend, hempty⟩
      exact ⟨by simp, hsegment, ⟨hne, hend⟩, hfirst, hempty⟩
    · rintro ⟨-, hsegment, ⟨hne, hend⟩, hfirst, hempty⟩
      exact ⟨hsegment, hne, hfirst, hend, hempty⟩
  · have hempty : hasEmptySegment cs = false := @hasEmptySegment_append [] cs hslash
    have hhead : cs.head? ≠ some '/' := fun h => hslash (List.mem_of_head? h)
    have hlast : cs.getLast? ≠ some '/' := fun h => hslash (List.mem_of_getLast? h)
    simp [List.splitOn_eq_singleton hslash, hempty, hhead, hlast]
termination_by cs.length
decreasing_by
  simp only [hcut, List.length_append, List.length_cons]
  omega

/-- **A valid name has no empty segment** and holds no delimiter; and so does no other name. -/
theorem isValid_iff_segments {name : String} : isValid name = true ↔
    (∀ segment ∈ segments name, segment ≠ []) ∧ ∀ c ∈ name.toList, isDelimiter c = false := by
  rw [isValid_iff, segments, forall_segments_ne_nil_iff]
  simp only [and_assoc]

/-- the delimiters one by one -/
theorem forall_isDelimiter_eq_false_iff {cs : List Char} :
    (∀ c ∈ cs, isDelimiter c = false) ↔ '.' ∉ cs ∧ ';' ∉ cs ∧ '[' ∉ cs := by
  constructor
  · intro h
    have hnot : ∀ c, isDelimiter c = true → c ∉ cs := fun c hc hmem => absurd (hc.symm.trans (h c hmem)) (by decide)
    exact ⟨hnot _ rfl, hnot _ rfl, hnot _ rfl⟩
  · rintro ⟨hdot, hsemicolon, hbracket⟩ c hc
    have hne : ∀ d, d ∉ cs → c ≠ d := fun d hd heq => hd (heq ▸ hc)
    simp [isDelimiter, hne _ hdot, hne _ hsemicolon, hne _ hbracket]

theorem not_delimiter_mem_of_isValid {name : String} (h : isValid name = true) :
    '.' ∉ name.toList ∧ ';' ∉ name.toList ∧ '[' ∉ name.toList :=
  forall_isDelimiter_eq_false_iff.1 (isValid_iff_segments.1 h).2

/-! ## The dotted form -/

/-- the name that source code writes with dots, with slashes for the dots -/
def ofDotted (name : String) : String := name.map fun c => if c == '.' then '/' else c

/-- **A valid name is read back from its dotted form.** -/
theorem ofDotted_dotted {name : String} (h : isValid name = true) : ofDotted (dotted name) = name := by
  have hdot : '.' ∉ name.toList := (not_delimiter_mem_of_isValid h).1
  rw [← String.toList_inj, ofDotted, dotted, String.toList_map, String.toList_map, List.map_map]
  refine (List.map_congr_left fun c hc => ?_).trans (List.map_id _)
  have hc : c ≠ '.' := fun heq => hdot (heq ▸ hc)
  by_cases hslash : c = '/'
  · simp [hslash]
  · simp [hslash, hc]

/-- **Valid names are told apart by their dotted forms.** -/
theorem dotted_inj {a b : String} (ha : isValid a = true) (hb : isValid b = true) :
    dotted a = dotted b ↔ a = b := by
  constructor
  · intro h
    rw [← ofDotted_dotted ha, h, ofDotted_dotted hb]
  · exact congrArg dotted

end InternalName

/-! ## Types of pools -/

/-- the types of a stack have valid names -/
theorem PoolBuilder.Stacked.isValid_name {b : PoolBuilder} (h : b.Stacked) {t : KnownType} (ht : t.pool = b.build) :
    InternalName.isValid t.name = true :=
  h.sound.namesValid t.decl (Pool.mem_of_find? (ht ▸ t.known))

/-- **The descriptor of a valid name is read back.** -/
theorem FieldType.parse_render_object {name : String} (h : InternalName.isValid name = true) :
    parse (object name).render = .ok (object name) := by
  have hne : name ≠ "" := fun heq => (InternalName.isValid_iff.1 h).1 (String.toList_eq_nil_iff.2 heq)
  exact parse_eq_ok_iff.2 ⟨⟨hne, (InternalName.not_delimiter_mem_of_isValid h).2.1⟩, rfl⟩

/-- **Internal names are exact.** The check takes exactly the names whose parts between slashes are not empty and that
hold no dot, no semicolon and no bracket. For every type of every pool that was built, the descriptor of the type is
read back as the type that it describes, and two such types have one dotted name iff they have one internal name. -/
theorem internal_names_exact :
    (∀ name, InternalName.check name = .ok () ↔ (∀ segment ∈ name.toList.splitOn '/', segment ≠ []) ∧
      '.' ∉ name.toList ∧ ';' ∉ name.toList ∧ '[' ∉ name.toList) ∧
    (∀ b : PoolBuilder, b.Stacked → ∀ t : KnownType, t.pool = b.build →
      FieldType.parse t.asFieldType.render = .ok t.asFieldType) ∧
    ∀ b b' : PoolBuilder, b.Stacked → b'.Stacked → ∀ t u : KnownType, t.pool = b.build → u.pool = b'.build →
      (InternalName.dotted t.name = InternalName.dotted u.name ↔ t.name = u.name) := by
  refine ⟨fun name => ?_, fun b hb t ht => ?_, fun b b' hb hb' t u ht hu => ?_⟩
  · rw [PoolBuilder.check_eq_ok_iff, InternalName.isValid_iff_segments, InternalName.segments,
      InternalName.forall_isDelimiter_eq_false_iff]
  · exact FieldType.parse_render_object (hb.isValid_name ht)
  · exact InternalName.dotted_inj (hb.isValid_name ht) (hb'.isValid_name hu)

/-- a class of one pool and the root class of the pool below it convert without loss; a name with two slashes in a row
is refused -/
theorem pets_internal_names : InternalName.check "pets//Cat" ≠ .ok () ∧
    ∃ cat root, PoolBuilder.pets.build.type? "pets/Cat" = some cat ∧
      PoolBuilder.minimalPlatform.build.type? PlatformName.object = some root ∧
      cat.asFieldType.render = "Lpets/Cat;" ∧ FieldType.parse cat.asFieldType.render = .ok cat.asFieldType ∧
      InternalName.dotted cat.name = "pets.Cat" ∧ InternalName.dotted cat.name ≠ InternalName.dotted root.name := by
  obtain ⟨hcheck, hread, hdotted⟩ := internal_names_exact
  have hpets : PoolBuilder.pets.Stacked := ⟨.minimalPlatform, _, Or.inr rfl, rfl⟩
  have hplatform : PoolBuilder.minimalPlatform.Stacked := ⟨.minimalPlatform, [], Or.inr rfl, rfl⟩
  obtain ⟨cat, hcat⟩ := Option.isSome_iff_exists.1
    (show (PoolBuilder.pets.build.type? "pets/Cat").isSome = true by decide +kernel)
  obtain ⟨root, hroot⟩ := Option.isSome_iff_exists.1
    (show (PoolBuilder.minimalPlatform.build.type? PlatformName.object).isSome = true by decide +kernel)
  obtain ⟨hpool, hfind⟩ := Pool.type?_eq_some_iff.1 hcat
  obtain ⟨hpool', hfind'⟩ := Pool.type?_eq_some_iff.1 hroot
  have hname : cat.name = "pets/Cat" := Pool.find?_name hfind
  have hname' : root.name = PlatformName.object := Pool.find?_name hfind'
  refine ⟨fun h => ?_, cat, root, hcat, hroot, ?_, hread _ hpets cat hpool, ?_, fun h => ?_⟩
  · exact absurd ((hcheck _).1 h).1 (by decide)
  · rw [KnownType.asFieldType, hname]
    rfl
  · rw [hname]
    cbv
  · have hsame := (hdotted _ _ hpets hplatform cat root hpool hpool').1 h
    rw [hname, hname'] at hsame
    exact absurd hsame (by decide)

end CallPlan
