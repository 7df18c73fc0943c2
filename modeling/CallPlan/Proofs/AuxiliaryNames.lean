/-
Names of auxiliary types under checked settings.

Settings are accepted only with a suffix that is not empty and holds neither a dollar sign nor a character that
delimits names. Such a suffix is plain text, so what stands behind the name of the instrumented type in an auxiliary
name keeps it valid. It also keeps the parts apart: the digits of the number hold no dollar sign and the suffix holds
none, so the last two dollar signs of the name are those around the suffix, whatever the name of the instrumented type
holds.

- `Settings.suffix_of_document`: what is known of an accepted suffix;
- `Registry.isValid_auxiliaryName`, `Registry.auxiliaryName_eq_iff`: validity and unique reading of auxiliary names;
- `Samples.SampleAuxiliary.fault_of_tagged`: the two ways in which a tagged type is refused under a valid name;
- `Settings.auxiliary_names_sound`: the three together, for accepted settings and every moment of a run. Settings are
  accepted from a document; those that a text writes are the ones of the document it is read as.
-/
import CallPlan.Settings
import CallPlan.Proofs.Flattening
import CallPlan.Proofs.Names
import CallPlan.Proofs.Registration

namespace CallPlan

/-! ## Accepted suffixes -/

namespace Settings

variable {s s' : Settings}

theorem check_eq_ok_iff : check s = .ok s' ↔ s' = s ∧ s.auxiliary.suffix.toList ≠ [] ∧
    ∀ c ∈ s.auxiliary.suffix.toList, isSuffixDelimiter c = false := by
  unfold check
  dsimp only
  split
  · rename_i hempty
    simp [List.isEmpty_iff.1 hempty]
  · rename_i hne
    have hne : s.auxiliary.suffix.toList ≠ [] := fun h => hne (by simp [h])
    split
    · rename_i c hc
      have hmem := List.mem_of_find?_eq_some hc
      have hdelimiter := List.find?_some hc
      constructor
      · intro h
        exact absurd h (by simp)
      · rintro ⟨-, -, hfree⟩
        exact absurd (hfree c hmem) (by simp [hdelimiter])
    · rename_i hnone
      have hfree : ∀ c ∈ s.auxiliary.suffix.toList, isSuffixDelimiter c = false := fun c hc => by
        simpa using List.find?_eq_none.1 hnone c hc
      constructor
      · intro h
        exact ⟨(Except.ok.inj h).symm, hne, hfree⟩
      · rintro ⟨rfl, -, -⟩
        rfl

/-- **An accepted suffix** is not empty and holds no delimiter. -/
theorem suffix_of_document {document : List (String × Toml.Value)} (h : ofDocument document = .ok s) :
    s.auxiliary.suffix.toList ≠ [] ∧ ∀ c ∈ s.auxiliary.suffix.toList, isSuffixDelimiter c = false := by
  obtain ⟨decoded, -, hcheck⟩ := bind_eq_ok.1 h
  obtain ⟨rfl, hsuffix⟩ := check_eq_ok_iff.1 hcheck
  exact hsuffix

/-- the settings that a text writes are those of the document it is read as -/
theorem load_eq_ok_iff_document {text : String} : load text = .ok s ↔
    ∃ document, Toml.parse? text = some document ∧ ofDocument document = .ok s := by
  unfold load
  cases Toml.parse? text with
  | none => simp
  | some document => simp

theorem isPlain_of_suffix {c : Char} (h : isSuffixDelimiter c = false) : InternalName.isPlain c = true := by
  simp only [isSuffixDelimiter, Bool.or_eq_false_iff, beq_eq_false_iff_ne] at h
  obtain ⟨⟨⟨⟨hslash, hdot⟩, hsemicolon⟩, hbracket⟩, -⟩ := h
  simp [InternalName.isPlain, InternalName.isDelimiter, hslash, hdot, hsemicolon, hbracket]

theorem dollar_not_mem_of_suffix {cs : List Char} (h : ∀ c ∈ cs, isSuffixDelimiter c = false) : '$' ∉ cs :=
  fun hmem => absurd (h _ hmem) (by decide)

end Settings

/-! ## Auxiliary names -/

/-- a text that holds no mark is cut nowhere -/
theorem eq_nil_of_mark {mark : Char} {ys as ys' : List Char} (h : mark :: ys = as ++ mark :: ys') (hys : mark ∉ ys) :
    as = [] := by
  cases as with
  | nil => rfl
  | cons a as =>
    obtain ⟨-, rfl⟩ := List.cons.inj h
    exact absurd (List.mem_append_right _ List.mem_cons_self) hys

/-- what stands on both sides of the last mark of a text is determined by the text -/
theorem append_mark_inj {mark : Char} {xs ys xs' ys' : List Char} (hys : mark ∉ ys) (hys' : mark ∉ ys') :
    xs ++ mark :: ys = xs' ++ mark :: ys' ↔ xs = xs' ∧ ys = ys' := by
  constructor
  · intro h
    rcases List.append_eq_append_iff.1 h with ⟨as, rfl, hrest⟩ | ⟨as, rfl, hrest⟩
    · obtain rfl := eq_nil_of_mark hrest hys
      exact ⟨(List.append_nil _).symm, (List.cons.inj hrest).2⟩
    · obtain rfl := eq_nil_of_mark hrest hys'
      exact ⟨List.append_nil _, (List.cons.inj hrest).2.symm⟩
  · rintro ⟨rfl, rfl⟩
    rfl

namespace Registry

variable {name name' suffix suffix' : String} {n n' : Nat}

theorem toList_auxiliaryName (name suffix : String) (n : Nat) : (auxiliaryName name suffix n).toList =
    (name.toList ++ '$' :: suffix.toList) ++ '$' :: (toString n).toList := by
  simp [auxiliaryName]

/-- **Auxiliary names of valid names are valid**, where the suffix is plain. -/
theorem isValid_auxiliaryName (hname : InternalName.isValid name = true)
    (hsuffix : ∀ c ∈ suffix.toList, InternalName.isPlain c = true) (n : Nat) :
    InternalName.isValid (auxiliaryName name suffix n) = true := by
  have hdollar : ∀ c ∈ "$".toList, InternalName.isPlain c = true := by
    intro c hc
    obtain rfl : c = '$' := List.mem_singleton.1 hc
    decide
  have hinfix := InternalName.isValid_append (InternalName.isValid_append hname hdollar) hsuffix
  exact InternalName.isValid_numbered (InternalName.isValid_append hinfix hdollar) n

/-- **An auxiliary name is read in one way**, where no suffix holds a dollar sign. -/
theorem auxiliaryName_eq_iff (hsuffix : '$' ∉ suffix.toList) (hsuffix' : '$' ∉ suffix'.toList) :
    auxiliaryName name suffix n = auxiliaryName name' suffix' n' ↔ name = name' ∧ suffix = suffix' ∧ n = n' := by
  have hdigits : ∀ k : Nat, '$' ∉ (toString k).toList := fun k hmem =>
    absurd (InternalName.isDigit_of_mem_toString hmem) (by decide)
  constructor
  · intro h
    have hchars := congrArg String.toList h
    rw [toList_auxiliaryName, toList_auxiliaryName, append_mark_inj (hdigits n) (hdigits n'),
      append_mark_inj hsuffix hsuffix'] at hchars
    obtain ⟨⟨hname, hsuffixes⟩, hnumber⟩ := hchars
    exact ⟨String.toList_inj.1 hname, String.toList_inj.1 hsuffixes,
      InternalName.eq_of_toString_eq (String.toList_inj.1 hnumber)⟩
  · rintro ⟨rfl, rfl, rfl⟩
    rfl

section Runs

variable {α : Type} [Auxiliary α]

theorem subject_request (r : Registry α) (aux : α) :
    (r.request aux).2.instrumented = r.instrumented ∧ (r.request aux).2.suffix = r.suffix := by
  rcases r.request_cases aux with ⟨made, -, heq⟩ | ⟨fault, -, heq⟩ | ⟨made, next, -, -, heq, hinst, hsuffix, -⟩
  · rw [heq]
    exact ⟨rfl, rfl⟩
  · rw [heq]
    exact ⟨rfl, rfl⟩
  · rw [heq]
    exact ⟨hinst, hsuffix⟩

/-- requests change neither the instrumented type nor the suffix -/
theorem subject_after (r : Registry α) (requests : List α) :
    (r.after requests).instrumented = r.instrumented ∧ (r.after requests).suffix = r.suffix := by
  induction requests generalizing r with
  | nil => exact ⟨rfl, rfl⟩
  | cons aux requests ih =>
    obtain ⟨hinst, hsuffix⟩ := subject_request r aux
    obtain ⟨hinst', hsuffix'⟩ := ih (r.request aux).2
    exact ⟨hinst'.trans hinst, hsuffix'.trans hsuffix⟩

/-- **The next name** is that of the instrumented type, the suffix and the number of the next type, at every moment. -/
theorem nextName_after (instrumented : KnownType) (suffix : String) (requests : List α) :
    ((empty instrumented suffix).after requests).nextName =
      auxiliaryName instrumented.name suffix (((empty instrumented suffix).after requests).size + 1) := by
  obtain ⟨hinst, hsuffix⟩ := subject_after (empty instrumented suffix) requests
  rw [nextName, hinst, hsuffix]
  rfl

/-- what is refused cannot be made under the next name -/
theorem make_of_refused {r : Registry α} {aux : α} {fault : Error} (h : (r.request aux).1 = .error fault) :
    Auxiliary.make aux r.nextName r.instrumented = .error fault := by
  cases hfind : r.registered.find? aux with
  | some made => rw [request_registered hfind] at h; exact absurd h (by simp)
  | none =>
    cases hmake : Auxiliary.make aux r.nextName r.instrumented with
    | ok made => rw [request_made hfind hmake] at h; exact absurd h (by simp)
    | error fault' =>
      rw [request_failed hfind hmake] at h
      exact congrArg Except.error (Except.error.inj h)

end Runs

end Registry

/-! ## Refusals -/

theorem Pool.fault_of_type {p : Pool} {name : String} {fault : Error} (h : p.type name = .error fault) :
    fault = .unknownType name := by
  unfold type at h
  split at h
  · exact absurd h (by simp)
  · exact (Except.error.inj h).symm

/-- a draft of a valid name is refused only where the name is taken -/
theorem TypeDraft.fault_of_typeAbove {d : TypeDraft} {pool : Pool} {fault : Error}
    (hname : InternalName.isValid d.name = true) (h : d.typeAbove pool = .error fault) :
    fault = .duplicateType d.name := by
  rcases bind_eq_error.1 h with hadd | ⟨builder, hadd, htype⟩
  · rw [PoolBuilder.add_eq, if_pos (show InternalName.isValid d.toDecl.name = true from hname)] at hadd
    split_ifs at hadd
    exact (Except.error.inj hadd).symm
  · have hfind : builder.build.find? d.name = some d.toDecl := by
      rw [PoolBuilder.find?_build_add hadd, if_pos (show d.name = d.toDecl.name from rfl)]
    have hknown : builder.build.type? d.name = some ⟨builder.build, d.toDecl, hfind⟩ :=
      Pool.type?_eq_some_iff.2 ⟨rfl, hfind⟩
    exact absurd ((Pool.type_eq_ok_iff.2 hknown).symm.trans htype) (by simp)

namespace Samples

/-- **A tagged type is refused** under a valid name only where there is no root class or the name is taken. -/
theorem SampleAuxiliary.fault_of_tagged {tag name : String} {t : KnownType} {fault : Error}
    (hname : InternalName.isValid name = true) (h : Auxiliary.make (tagged tag) name t = .error fault) :
    fault = .unknownType PlatformName.object ∨ fault = .duplicateType name := by
  have hcheck : InternalName.check name = .ok () := PoolBuilder.check_eq_ok_iff.2 hname
  rcases bind_eq_error.1 h with hdraft | ⟨d, hdraft, hmade⟩
  · rcases bind_eq_error.1 hdraft with hobject | ⟨object, -, hstart⟩
    · exact Or.inl (Pool.fault_of_type hobject)
    · -- the draft has the name that was checked, so it is started
      rw [TypeDraft.extending, hcheck] at hstart
      exact absurd hstart (by simp [bind, Except.bind, pure, Except.pure])
  · have hd : d.name = name := name_of_draft hdraft
    rcases bind_eq_error.1 hmade with habove | ⟨type, -, hdone⟩
    · exact Or.inr (hd ▸ TypeDraft.fault_of_typeAbove (hd ▸ hname) habove)
    · exact absurd hdone (by simp [pure, Except.pure])

end Samples

/-! ## Main result -/

namespace Settings

open Registry

/-- **Configured auxiliary names are valid and never clash.** A text writes the settings of the document it is read as.
Under the accepted settings of a document every auxiliary name of a type in a stack of layers is an internal name, at
every moment of a run the next type gets such a name, and a tagged type is refused only where its pool has no root class
or declares the name itself. Under the accepted settings of any two documents auxiliary names are equal only where the
names of the types, the suffixes and the numbers are. -/
theorem auxiliary_names_sound :
    (∀ text s, load text = .ok s ↔ ∃ document, Toml.parse? text = some document ∧ ofDocument document = .ok s) ∧
    ∀ document s, ofDocument document = .ok s → ∀ b : PoolBuilder, b.Stacked → ∀ t : KnownType, t.pool = b.build →
      (∀ n, InternalName.check (auxiliaryName t.name s.auxiliary.suffix n) = .ok ()) ∧
      (∀ (α : Type) [Auxiliary α] (requests : List α), ((s.registryFor t).after requests).nextName =
        auxiliaryName t.name s.auxiliary.suffix (((s.registryFor t).after requests).size + 1)) ∧
      (∀ (requests : List Samples.SampleAuxiliary) tag fault,
        (((s.registryFor t).after requests).request (.tagged tag)).1 = .error fault →
        fault = .unknownType PlatformName.object ∨
        fault = .duplicateType ((s.registryFor t).after requests).nextName) ∧
      ∀ document' s' (t' : KnownType) n n', ofDocument document' = .ok s' →
        (auxiliaryName t.name s.auxiliary.suffix n = auxiliaryName t'.name s'.auxiliary.suffix n' ↔
          t.name = t'.name ∧ s.auxiliary.suffix = s'.auxiliary.suffix ∧ n = n') := by
  refine ⟨fun _ _ => load_eq_ok_iff_document, fun document s hs b hb t ht => ?_⟩
  obtain ⟨-, hsuffix⟩ := suffix_of_document hs
  have hname : InternalName.isValid t.name = true :=
    hb.sound.namesValid t.decl (ht ▸ Pool.mem_of_find? t.known)
  have hplain : ∀ c ∈ s.auxiliary.suffix.toList, InternalName.isPlain c = true := fun c hc =>
    isPlain_of_suffix (hsuffix c hc)
  have hvalid := isValid_auxiliaryName hname hplain
  refine ⟨fun n => PoolBuilder.check_eq_ok_iff.2 (hvalid n), fun α _ requests => nextName_after _ _ requests, ?_, ?_⟩
  · intro requests tag fault hfault
    have hmake := make_of_refused hfault
    rw [(subject_after _ requests).1] at hmake
    exact Samples.SampleAuxiliary.fault_of_tagged (nextName_after t _ requests ▸ hvalid _) hmake
  · intro document' s' t' n n' hs'
    obtain ⟨-, hsuffix'⟩ := suffix_of_document hs'
    exact auxiliaryName_eq_iff (dollar_not_mem_of_suffix hsuffix) (dollar_not_mem_of_suffix hsuffix')

/-- a class next to another whose name could have been made for it -/
def kittens : PoolBuilder := PoolBuilder.minimalPlatform.run [
  .declare (.ofClass "pets/Cat" PlatformName.object), .declare (.ofClass "pets/Cat$proxy$1" "pets/Cat")]

/-- a type whose own name looks like an auxiliary one gets valid names that are not those of the other type -/
theorem kittens_auxiliary_names : ∃ s s' t t', load "auxiliary.suffix = \"proxy\"" = .ok s ∧ load "" = .ok s' ∧
    kittens.Stacked ∧ kittens.build.type "pets/Cat$proxy$1" = .ok t ∧ kittens.build.type "pets/Cat" = .ok t' ∧
    s.auxiliary.suffix = "proxy" ∧ s'.auxiliary.suffix = "auxiliary" ∧
    InternalName.check (auxiliaryName t.name s.auxiliary.suffix 1) = .ok () ∧
    auxiliaryName t.name s.auxiliary.suffix 1 ≠ auxiliaryName t'.name s'.auxiliary.suffix 1 ∧
    auxiliaryName t.name s.auxiliary.suffix 1 ≠ auxiliaryName t.name s.auxiliary.suffix 11 := by
  obtain ⟨s, hs, hsuffix⟩ := exists_ok_of_any (x := load "auxiliary.suffix = \"proxy\"")
    (f := fun s => s.auxiliary.suffix == "proxy") (by decide +kernel)
  obtain ⟨s', hs', hsuffix'⟩ := exists_ok_of_any (x := load "")
    (f := fun s => s.auxiliary.suffix == "auxiliary") (by decide +kernel)
  obtain ⟨t, ht⟩ := exists_ok_of_isOk (x := kittens.build.type "pets/Cat$proxy$1") (by decide +kernel)
  obtain ⟨t', ht'⟩ := exists_ok_of_isOk (x := kittens.build.type "pets/Cat") (by decide +kernel)
  obtain ⟨hpool, -⟩ := Pool.type?_eq_some_iff.1 (Pool.type_eq_ok_iff.1 ht)
  have hstacked : kittens.Stacked := ⟨.minimalPlatform, _, Or.inr rfl, rfl⟩
  obtain ⟨hload, hsound⟩ := auxiliary_names_sound
  obtain ⟨document, -, hdocument⟩ := (hload _ s).1 hs
  obtain ⟨document', -, hdocument'⟩ := (hload _ s').1 hs'
  obtain ⟨hvalid, -, -, hread⟩ := hsound document s hdocument kittens hstacked t hpool
  refine ⟨s, s', t, t', hs, hs', hstacked, ht, ht', eq_of_beq hsuffix, eq_of_beq hsuffix', hvalid 1, fun h => ?_,
    fun h => ?_⟩
  · obtain ⟨-, hequal, -⟩ := (hread document' s' t' 1 1 hdocument').1 h
    rw [eq_of_beq hsuffix, eq_of_beq hsuffix'] at hequal
    exact absurd hequal (by decide)
  · obtain ⟨-, -, hequal⟩ := (hread document s t 1 11 hdocument).1 h
    exact absurd hequal (by decide)

end Settings

end CallPlan
