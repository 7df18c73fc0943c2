/-
Settings as an overlay of a document over the defaults.

What a document gives for a key stands in the section of the key, under its name in a table and at its place in an
array. A document is accepted iff nothing else stands in it, all that it gives has the types of its keys and the suffix
is one for names; it is then loaded as the default settings with exactly the given keys replaced. So what is loaded
depends on nothing else: not on the order of sections and keys, and not on the form in which a section is written.

- `Settings.decode_eq_ok_iff`: documents that decode, and what each key then holds;
- `Settings.ofDocument_eq_ok_iff`: accepted documents and the settings they are loaded as;
- `Settings.sameResult_of_sameDocument`: rearranged documents;
- `Settings.overlay_exact`: the laws together, with a document as a sample;
- `Settings.policy_of_emptyArray`: a policy over an empty array;
- `Settings.load_eq_ok_iff`: accepted texts.
-/
import CallPlan.Proofs.AuxiliaryNames
import CallPlan.Proofs.DescriptorText
import CallPlan.Proofs.SettingsKeys

namespace CallPlan

namespace Settings

open Toml (Value DistinctKeys)

/-! ## What a document gives -/

/-- the value that a document gives for a key: it stands in the section of the key, under its name in a table and at
its place in an array -/
def given (document : List (String × Value)) (key : Key) : Option Value := do
  let written ← document.lookup key.title
  let entries ← sectionEntries? (names key.title) written
  entries.lookup key.field.name

/-- a value is a table with keys of the section only, or an array -/
def IsSection (title : String) (v : Value) : Prop :=
  ∃ entries, sectionEntries? (names title) v = some entries ∧ ∀ e ∈ entries, e.1 ∈ names title

/-- a document whose sections have distinct titles, each with distinct keys -/
structure Distinct (document : List (String × Value)) : Prop where
  titles : DistinctKeys document
  keys : ∀ e ∈ document, ∀ entries, e.2 = .table entries → DistinctKeys entries

variable {document : List (String × Value)} {s : Settings}

/-- one section of a document over its defaults, key by key -/
theorem overlays_sectionField {α : Type} {format : SectionFormat α} {title : String} {wrap : α → Settings}
    {part : Settings → α} (h : format.HasFields (sectionFields title wrap))
    (hwrap : ∀ key ∈ Key.under title, ∀ s, key.field.get (wrap (part s)) = key.field.get s)
    (hdistinct : Distinct document) :
    (sectionField title format (part {}) part).Overlays (document.lookup title) {} s ↔
      (∀ v, document.lookup title = some v → IsSection title v) ∧
        ∀ key ∈ Key.under title, key.field.Overlays (given document key) {} s := by
  have hnames : (sectionFields title wrap).map (·.name) = names title := by
    simp [sectionFields, names, Field.comap]
  have hgiven : ∀ key ∈ Key.under title, given document key = (document.lookup title).bind fun v =>
      (sectionEntries? (names title) v).bind (·.lookup key.field.name) := fun key hkey => by
    rw [given, Key.mem_under.1 hkey]
    rfl
  -- a key of the section is the same key of the settings that the section makes
  have hcomap : ∀ key ∈ Key.under title, ∀ found, (key.field.comap wrap).Overlays found (part {}) (part s) ↔
      key.field.Overlays found {} s := fun key hkey found => by
    unfold Field.Overlays Field.comap
    cases found with
    | none => simp only [hwrap key hkey]
    | some v => simp only [hwrap key hkey]
  cases hlookup : document.lookup title with
  | none =>
    constructor
    · intro hsame
      refine ⟨by simp, fun key hkey => ?_⟩
      rw [hgiven key hkey, hlookup]
      exact (hcomap key hkey none).1 (congrArg (key.field.comap wrap).get hsame)
    · rintro ⟨-, hsame⟩
      refine h.ext _ _ fun f hf => ?_
      obtain ⟨key, hkey, rfl⟩ := List.mem_map.1 hf
      have hheld := hsame key hkey
      rw [hgiven key hkey, hlookup] at hheld
      exact (hcomap key hkey none).2 hheld
  | some v =>
    have hread : (sectionField title format (part {}) part).Overlays (some v) {} s ↔
        decodeSection format (part {}) v = .ok (part s) := toOption_decodeSection.symm
    rw [hread, decodeSection_eq_ok_iff h (hdistinct.keys _ (Toml.lookup_mem hlookup)), hnames]
    constructor
    · rintro ⟨entries, hentries, hknown, hover⟩
      refine ⟨fun w hw => Option.some.inj hw ▸ ⟨entries, hentries, hknown⟩, fun key hkey => ?_⟩
      rw [hgiven key hkey, hlookup, Option.bind_some, hentries, Option.bind_some]
      exact (hcomap key hkey _).1 (hover _ (List.mem_map_of_mem hkey))
    · rintro ⟨hsection, hover⟩
      obtain ⟨entries, hentries, hknown⟩ := hsection v rfl
      refine ⟨entries, hentries, hknown, fun f hf => ?_⟩
      obtain ⟨key, hkey, rfl⟩ := List.mem_map.1 hf
      have hheld := hover key hkey
      rw [hgiven key hkey, hlookup, Option.bind_some, hentries, Option.bind_some] at hheld
      exact (hcomap key hkey _).2 hheld

/-- **Decoding a document** succeeds iff its titles and sections are known and what it gives has the types of the keys;
then each key holds what is given for it, or its default. -/
theorem decode_eq_ok_iff (h : Distinct document) : decode document = .ok s ↔
    (∀ e ∈ document, e.1 ∈ titles ∧ IsSection e.1 e.2) ∧ ∀ key : Key, key.field.Overlays (given document key) {} s := by
  have hsections : (∀ f ∈ documentFields, f.Overlays (document.lookup f.name) {} s) ↔
      ∀ title ∈ titles, (∀ v, document.lookup title = some v → IsSection title v) ∧
        ∀ key ∈ Key.under title, key.field.Overlays (given document key) {} s := by
    rw [documentFields, titles, List.forall_mem_cons, List.forall_mem_cons, List.forall_mem_singleton,
      List.forall_mem_cons, List.forall_mem_cons, List.forall_mem_singleton]
    refine and_congr ?bridges (and_congr ?auxiliary ?logging)
    case bridges =>
      exact overlays_sectionField bridgeFormat_hasFields
        (List.forall_mem_cons.2 ⟨fun _ => rfl, List.forall_mem_singleton.2 fun _ => rfl⟩) h
    case auxiliary =>
      exact overlays_sectionField auxiliaryFormat_hasFields (List.forall_mem_singleton.2 fun _ => rfl) h
    case logging =>
      exact overlays_sectionField logFormat_hasFields (List.forall_mem_cons.2 ⟨fun _ => rfl,
        List.forall_mem_cons.2 ⟨fun _ => rfl, List.forall_mem_singleton.2 fun _ => rfl⟩⟩) h
  rw [decode, decodeEntries_eq_ok_iff documentFormat_hasFields h.titles, hsections]
  constructor
  · rintro ⟨hknown, hover⟩
    refine ⟨fun e he => ⟨hknown e he, (hover _ (hknown e he)).1 _ ((Toml.lookup_eq_some_iff h.titles).2 he)⟩,
      fun key => (hover key.title (by cases key <;> decide)).2 key (Key.mem_under.2 rfl)⟩
  · rintro ⟨hknown, hover⟩
    exact ⟨fun e he => (hknown e he).1, fun title _ =>
      ⟨fun v hv => (hknown _ (Toml.lookup_mem hv)).2, fun key _ => hover key⟩⟩

/-! ## The overlay -/

/-- what a key holds: what the document gives for it, or its default -/
def setting (document : List (String × Value)) (key : Key) : key.field.Content :=
  ((given document key).bind key.field.read?).getD (key.field.get {})

/-- the default settings with the keys that the document gives replaced -/
def overlay (document : List (String × Value)) : Settings where
  bridges := { resolve := setting document .resolve, conflictPolicy := setting document .conflictPolicy }
  auxiliary := { suffix := setting document .suffix }
  logging := {
    level := setting document .level
    json := setting document .json
    stderr := setting document .stderr }

theorem get_overlay (document : List (String × Value)) (key : Key) :
    key.field.get (overlay document) = setting document key := by
  cases key <;> rfl

/-- what a document has to be to be accepted -/
structure Admissible (document : List (String × Value)) : Prop where
  titles : ∀ e ∈ document, e.1 ∈ titles
  sections : ∀ e ∈ document, IsSection e.1 e.2
  contents : ∀ key v, given document key = some v → (key.field.read? v).isSome
  suffix : (overlay document).auxiliary.suffix ≠ "" ∧
    ∀ c ∈ (overlay document).auxiliary.suffix.toList, c ∉ ['/', '.', ';', '[', '$']

theorem isSuffixDelimiter_eq_false_iff {c : Char} :
    isSuffixDelimiter c = false ↔ c ∉ ['/', '.', ';', '[', '$'] := by
  simp [isSuffixDelimiter, and_assoc]

/-- a key is overlaid iff what is given can be read, and is then held -/
theorem overlays_given_iff {key : Key} : key.field.Overlays (given document key) {} s ↔
    (∀ v, given document key = some v → (key.field.read? v).isSome) ∧ key.field.get s = setting document key := by
  unfold setting Field.Overlays
  cases given document key with
  | none => simp
  | some v =>
    cases hread : key.field.read? v with
    | none => simp [hread]
    | some x =>
      have hreads : ∀ w, some v = some w → (key.field.read? w).isSome := fun w hw => by
        rw [← Option.some.inj hw, hread]
        rfl
      simp only [Option.bind_some, hread, Option.getD_some]
      exact ⟨fun h => ⟨hreads, (Option.some.inj h).symm⟩, fun h => congrArg some h.2.symm⟩

/-- **Accepted documents** are the admissible ones, loaded as the overlay. -/
theorem ofDocument_eq_ok_iff (h : Distinct document) :
    ofDocument document = .ok s ↔ Admissible document ∧ s = overlay document := by
  have hdecoded : ofDocument document = .ok s ↔ decode document = .ok s ∧ s.auxiliary.suffix.toList ≠ [] ∧
      ∀ c ∈ s.auxiliary.suffix.toList, isSuffixDelimiter c = false := by
    rw [ofDocument, bind_eq_ok]
    simp only [mapError_eq_ok_iff, check_eq_ok_iff]
    constructor
    · rintro ⟨_, hdecode, rfl, hsuffix⟩
      exact ⟨hdecode, hsuffix⟩
    · rintro ⟨hdecode, hsuffix⟩
      exact ⟨s, hdecode, rfl, hsuffix⟩
  simp only [hdecoded, decode_eq_ok_iff h, overlays_given_iff, isSuffixDelimiter_eq_false_iff, ne_eq,
    String.toList_eq_nil_iff]
  constructor
  · rintro ⟨⟨hknown, hkeys⟩, hsuffix⟩
    obtain rfl : s = overlay document := ext_keys fun key => (hkeys key).2.trans (get_overlay document key).symm
    exact ⟨⟨fun e he => (hknown e he).1, fun e he => (hknown e he).2, fun key => (hkeys key).1, hsuffix⟩, rfl⟩
  · rintro ⟨hadmissible, rfl⟩
    exact ⟨⟨fun e he => ⟨hadmissible.titles e he, hadmissible.sections e he⟩,
      fun key => ⟨hadmissible.contents key, get_overlay document key⟩⟩, hadmissible.suffix⟩

/-! ## Order and form -/

/-- two values with the same entries for a section, in any order, each as a table or as an array; values of neither
form are not told apart -/
def SameSection (title : String) (v w : Value) : Prop :=
  Option.Rel List.Perm (sectionEntries? (names title) v) (sectionEntries? (names title) w)

/-- two results that differ in the reported fault of a document at most -/
def SameResult : Except SettingsError Settings → Except SettingsError Settings → Prop
  | .error (.undecodable _), .error (.undecodable _) => True
  | r, r' => r = r'

theorem SameResult.refl (r : Except SettingsError Settings) : SameResult r r := by
  unfold SameResult
  split
  · trivial
  · rfl

theorem nodup_names (title : String) : (names title).Nodup :=
  (show (Key.all.map (·.field.name)).Nodup by decide).sublist (List.filter_sublist.map _)

/-- in a distinct document, what a section writes has distinct keys in either form -/
theorem distinct_iff : Distinct document ↔ DistinctKeys document ∧
    ∀ e ∈ document, ∀ entries, sectionEntries? (names e.1) e.2 = some entries → DistinctKeys entries := by
  constructor
  · intro h
    refine ⟨h.titles, fun e he entries hentries => ?_⟩
    obtain ⟨title, v⟩ := e
    cases v with
    | table entries' => exact Option.some.inj hentries ▸ h.keys _ he entries' rfl
    | array items => exact Option.some.inj hentries ▸ distinctKeys_zip (nodup_names title) items
    | _ => exact absurd hentries (by simp [sectionEntries?])
  · rintro ⟨htitles, hentries⟩
    refine ⟨htitles, fun e he entries htable => hentries e he entries ?_⟩
    rw [htable, sectionEntries?]

namespace SameSection

variable {title : String} {v w : Value}

/-- both values have entries, the same in some order, or neither has -/
theorem cases_entries (h : SameSection title v w) :
    (sectionEntries? (names title) v = none ∧ sectionEntries? (names title) w = none) ∨
      ∃ es es', sectionEntries? (names title) v = some es ∧ sectionEntries? (names title) w = some es' ∧
        es.Perm es' := by
  unfold SameSection at h
  generalize sectionEntries? (names title) v = entries at h
  generalize sectionEntries? (names title) w = entries' at h
  obtain ⟨hperm⟩ | _ := h
  · exact Or.inr ⟨_, _, rfl, rfl, hperm⟩
  · exact Or.inl ⟨rfl, rfl⟩

theorem isSection_iff (h : SameSection title v w) : IsSection title v ↔ IsSection title w := by
  unfold IsSection
  rcases h.cases_entries with ⟨hv, hw⟩ | ⟨es, es', hv, hw, hperm⟩
  · rw [hv, hw]
  · simp [hv, hw, hperm.mem_iff]

theorem distinct_iff (h : SameSection title v w) :
    (∀ entries, sectionEntries? (names title) v = some entries → DistinctKeys entries) ↔
      ∀ entries, sectionEntries? (names title) w = some entries → DistinctKeys entries := by
  rcases h.cases_entries with ⟨hv, hw⟩ | ⟨es, es', hv, hw, hperm⟩
  · rw [hv, hw]
  · simpa [hv, hw] using ⟨fun hkeys => hkeys.perm hperm, fun hkeys => hkeys.perm hperm.symm⟩

/-- a key is given the same value in both forms -/
theorem lookup_eq (h : SameSection title v w)
    (hkeys : ∀ entries, sectionEntries? (names title) v = some entries → DistinctKeys entries) (name : String) :
    (sectionEntries? (names title) v).bind (·.lookup name) =
      (sectionEntries? (names title) w).bind (·.lookup name) := by
  rcases h.cases_entries with ⟨hv, hw⟩ | ⟨es, es', hv, hw, hperm⟩
  · rw [hv, hw]
  · rw [hv, hw, Option.bind_some, Option.bind_some]
    exact Toml.lookup_perm (hkeys es hv) hperm name

end SameSection

theorem forall_mem_iff_of_forall₂ {α β : Type} {R : α → β → Prop} {P : α → Prop} {Q : β → Prop}
    (hR : ∀ a b, R a b → (P a ↔ Q b)) {as : List α} {bs : List β} (h : List.Forall₂ R as bs) :
    (∀ a ∈ as, P a) ↔ ∀ b ∈ bs, Q b := by
  induction h with
  | nil => simp
  | cons hab _ ih => rw [List.forall_mem_cons, List.forall_mem_cons, hR _ _ hab, ih]

/-- two entries of a document that are the same section, in either form -/
def SameEntry (e e' : String × Value) : Prop := e.1 = e'.1 ∧ SameSection e.1 e.2 e'.2

/-- two documents with the same sections, in any order -/
def SameDocument (document other : List (String × Value)) : Prop :=
  ∃ reordered, document.Perm reordered ∧ List.Forall₂ SameEntry reordered other

variable {other : List (String × Value)}

/-- a section is found again in its other form -/
theorem rel_lookup (h : List.Forall₂ SameEntry document other) (title : String) :
    Option.Rel (SameSection title) (document.lookup title) (other.lookup title) := by
  induction h with
  | nil => exact .none
  | @cons e e' _ _ hsame _ ih =>
    obtain ⟨name, v⟩ := e
    obtain ⟨_, w⟩ := e'
    obtain ⟨rfl, hsame⟩ := hsame
    by_cases hname : title = name
    · subst hname
      rw [List.lookup_cons_self, List.lookup_cons_self]
      exact .some hsame
    · rw [List.lookup_cons, List.lookup_cons, beq_false_of_ne hname]
      exact ih

/-- all that the decoding of a document depends on is the same in the other document -/
structure GivesSame (document other : List (String × Value)) : Prop where
  distinct : Distinct other
  known : (∀ e ∈ document, e.1 ∈ titles ∧ IsSection e.1 e.2) ↔ ∀ e ∈ other, e.1 ∈ titles ∧ IsSection e.1 e.2
  given : ∀ key, given document key = given other key

theorem GivesSame.of_perm (h : Distinct document) (hperm : document.Perm other) : GivesSame document other where
  distinct := ⟨h.titles.perm hperm, fun e he => h.keys e (hperm.mem_iff.2 he)⟩
  known := by simp only [hperm.mem_iff]
  given key := by
    unfold Settings.given
    rw [Toml.lookup_perm h.titles hperm]

theorem map_fst_of_forall₂ (h : List.Forall₂ SameEntry document other) : document.map (·.1) = other.map (·.1) := by
  induction h with
  | nil => rfl
  | cons hsame _ ih => rw [List.map_cons, List.map_cons, hsame.1, ih]

theorem GivesSame.of_forms (h : Distinct document) (hforms : List.Forall₂ SameEntry document other) :
    GivesSame document other where
  distinct := by
    obtain ⟨htitles, hentries⟩ := distinct_iff.1 h
    rw [DistinctKeys, map_fst_of_forall₂ hforms] at htitles
    refine distinct_iff.2 ⟨htitles, (forall_mem_iff_of_forall₂ (fun e e' he => ?_) hforms).1 hentries⟩
    rw [← he.1]
    exact he.2.distinct_iff
  known := by
    refine forall_mem_iff_of_forall₂ (fun e e' he => ?_) hforms
    rw [← he.1, he.2.isSection_iff]
  given key := by
    have hkeys := (distinct_iff.1 h).2
    have hsections := rel_lookup hforms key.title
    unfold Settings.given
    generalize hfound : document.lookup key.title = found at hsections
    generalize other.lookup key.title = found' at hsections
    obtain ⟨hsame⟩ | _ := hsections
    · exact hsame.lookup_eq (hkeys _ (Toml.lookup_mem hfound)) key.field.name
    · rfl

/-! ## Laws -/

theorem decode_eq_ok_of_sameDocument (h : Distinct document) (hsame : SameDocument document other) :
    decode document = .ok s ↔ decode other = .ok s := by
  obtain ⟨reordered, hperm, hforms⟩ := hsame
  have hreordered := GivesSame.of_perm h hperm
  have hother := GivesSame.of_forms hreordered.distinct hforms
  rw [decode_eq_ok_iff h, decode_eq_ok_iff hother.distinct, hreordered.known, hother.known]
  simp only [hreordered.given, hother.given]

/-- **Neither the order of sections and keys nor the form of a section matters** to what a document is loaded as, nor
to whether its decoding or its suffix is at fault. -/
theorem sameResult_of_sameDocument (h : Distinct document) (hsame : SameDocument document other) :
    SameResult (ofDocument document) (ofDocument other) := by
  cases hdecode : decode document with
  | ok s =>
    have hother := (decode_eq_ok_of_sameDocument h hsame).1 hdecode
    rw [ofDocument, ofDocument, hdecode, hother]
    exact SameResult.refl _
  | error fault =>
    cases hother : decode other with
    | ok s =>
      rw [(decode_eq_ok_of_sameDocument h hsame).2 hother] at hdecode
      exact absurd hdecode (by simp)
    | error fault' =>
      rw [ofDocument, ofDocument, hdecode, hother]
      trivial

/-- the laws of a document of settings -/
structure OverlayLaws (document : List (String × Value)) : Prop where
  /-- the document is accepted iff it is admissible, and loaded as the overlay -/
  accepted : ∀ s, ofDocument document = .ok s ↔ Admissible document ∧ s = overlay document
  /-- so is each text that writes it -/
  loaded : ∀ text, Toml.parse? text = some document → ∀ s,
    load text = .ok s ↔ Admissible document ∧ s = overlay document
  /-- a policy is written by its name, or by its name over an empty table or an empty array -/
  policies : ∀ v policy, Key.conflictPolicy.field.read? v = some policy ↔
    v = .string policy.label ∨ v = .table [(policy.label, .table [])] ∨ v = .table [(policy.label, .array [])]
  /-- a key that is given is replaced -/
  replaced : ∀ key v x, given document key = some v → key.field.read? v = some x → key.field.get (overlay document) = x
  /-- every other key keeps its default -/
  kept : ∀ key, given document key = none → key.field.get (overlay document) = key.field.get {}
  /-- the result does not depend on the order of sections or keys, nor on the form of a section -/
  rearranged : ∀ other, SameDocument document other → SameResult (ofDocument document) (ofDocument other)

/-- **Settings overlay exactly the given keys on the defaults**, for every document whose tables have distinct keys. -/
theorem overlay_exact (h : Distinct document) : OverlayLaws document where
  accepted s := ofDocument_eq_ok_iff h
  loaded text hparse s := by
    rw [load, hparse]
    exact ofDocument_eq_ok_iff h
  policies _ _ := policy?_eq_some_iff
  replaced key v x hgiven hread := by
    rw [get_overlay, setting, hgiven, Option.bind_some, hread, Option.getD_some]
  kept key hgiven := by
    rw [get_overlay, setting, hgiven, Option.bind_none, Option.getD_none]
  rearranged other hsame := sameResult_of_sameDocument h hsame

/-- sections out of order, one of them as an array, with keys out of order and keys left out -/
def shuffledDocument : List (String × Value) := [
  ("logging", .table [("json", .boolean true), ("level", .string "debug")]),
  ("bridges", .array [.boolean false, .table [("call-bridge", .table [])]])]

/-- the same with all in order and both sections as tables -/
def orderedDocument : List (String × Value) := [
  ("bridges", .table [("resolve", .boolean false), ("conflict_policy", .table [("call-bridge", .table [])])]),
  ("logging", .table [("level", .string "debug"), ("json", .boolean true)])]

theorem shuffledDocument_overlay : Distinct shuffledDocument ∧ OverlayLaws shuffledDocument ∧
    SameDocument shuffledDocument orderedDocument ∧ ofDocument shuffledDocument = .ok {
      bridges := { resolve := false, conflictPolicy := .callBridge }
      logging := { level := "debug", json := true } } := by
  have hdistinct : Distinct shuffledDocument := by
    refine ⟨show (shuffledDocument.map (·.1)).Nodup by decide, fun e he entries hentries => ?_⟩
    obtain rfl | rfl : e = _ ∨ e = _ := by simpa [shuffledDocument] using he
    · obtain rfl := Value.table.inj hentries
      exact show (["json", "level"] : List String).Nodup by decide
    · exact absurd hentries (by simp)
  have hsame : SameDocument shuffledDocument orderedDocument :=
    ⟨_, .swap _ _ _, .cons ⟨rfl, .some (.refl _)⟩ (.cons ⟨rfl, .some (.swap _ _ _)⟩ .nil)⟩
  exact ⟨hdistinct, overlay_exact hdistinct, hsame, rfl⟩

/-- a policy over an empty array -/
def emptyArrayDocument : List (String × Value) :=
  [("bridges", .table [("conflict_policy", .table [("call-bridge", .array [])])])]

/-- **A policy may stand over an empty array**, not over an empty table only. -/
theorem policy_of_emptyArray : ofDocument emptyArrayDocument = .ok { bridges := { conflictPolicy := .callBridge } } ∧
    given emptyArrayDocument .conflictPolicy = some (.table [("call-bridge", .array [])]) ∧
    ∀ policy : ConflictPolicy, Value.table [("call-bridge", .array [])] ≠ .string policy.label ∧
      Value.table [("call-bridge", .array [])] ≠ .table [(policy.label, .table [])] := by
  refine ⟨rfl, rfl, fun policy => ⟨?_, ?_⟩⟩
  · simp
  · simp

theorem Distinct.of_wellKeyed (h : (Value.table document).WellKeyed) : Distinct document := by
  obtain _ | _ | _ | _ | _ | _ | ⟨hkeys, hvalues⟩ := h
  refine ⟨hkeys, fun e he entries htable => ?_⟩
  have hvalue := hvalues e he
  rw [htable] at hvalue
  obtain _ | _ | _ | _ | _ | _ | ⟨hkeys, -⟩ := hvalue
  exact hkeys

/-- **Accepted texts** are those that write an admissible document. -/
theorem load_eq_ok_iff {text : String} : load text = .ok s ↔
    ∃ document, Toml.parse? text = some document ∧ Admissible document ∧ s = overlay document := by
  rw [load_eq_ok_iff_document]
  refine exists_congr fun document => and_congr_right fun hparse => ?_
  exact ofDocument_eq_ok_iff (Distinct.of_wellKeyed (Toml.wellKeyed_of_parse hparse))

end Settings

end CallPlan
