/-
The effective log filter as what two texts write.

A text between whose commas every part can be read writes a level for each target that it names, that of the last
directive for it. Joining two texts by a comma joins their parts, so the joined text can be read iff both can, and what
it writes for a target is what the second writes for it, or else the first. Nothing here depends on how a single
directive is read: the reader is a parameter, and so is the type of targets.

The effective filter falls back twice, from the joined text to the environment and from there to the configured level,
and in the end to the single level `info`. Which of these it is depends only on which of the two texts can be read.

- `pieces_join`, `valid_join_iff`, `written_join`: the parts, the validity and the levels of a joined text;
- `trimmed_trimmed`, `directives_directives`: what was put in order stays as it is;
- `effective_filter_merges`: the effective filter in all cases;
- `render_congr`: what is written of a filter shows what it finds and nothing else.
-/
import CallPlan.LogFilter
import CallPlan.Proofs.DocumentKeys
import Mathlib.Data.List.DropRight

namespace CallPlan

/-! ## White space -/

namespace Text

theorem dropWhile_eq_self_of_head? {p : Char → Bool} {cs : List Char} (h : ∀ c, cs.head? = some c → p c = false) :
    cs.dropWhile p = cs := by
  cases cs with
  | nil => rfl
  | cons c cs => rw [List.dropWhile_cons_of_neg (by simp [h c rfl])]

/-- **A trimmed text stays as it is.** -/
theorem trimmed_trimmed (cs : List Char) : trimmed (trimmed cs) = trimmed cs := by
  have htrimmed : ∀ ds, trimmed ds = (ds.dropWhile isBlank).rdropWhile isBlank := fun _ => rfl
  have hhead : ∀ c, ((cs.dropWhile isBlank).rdropWhile isBlank).head? = some c → isBlank c = false := by
    intro c hc
    obtain ⟨rest, hrest⟩ := List.rdropWhile_prefix isBlank (cs.dropWhile isBlank)
    have hfirst : (cs.dropWhile isBlank).head? = some c := by rw [← hrest, List.head?_append, hc, Option.some_or]
    have hnot := List.head?_dropWhile_not isBlank cs
    rwa [hfirst] at hnot
  rw [htrimmed (trimmed cs), htrimmed cs, dropWhile_eq_self_of_head? hhead, List.rdropWhile_idempotent]

end Text

/-! ## Texts of directives -/

namespace LogFilter

variable {τ : Type} {read : DirectiveReader τ} {a b text : List Char}

/-- every part of the text can be read -/
def Valid (read : DirectiveReader τ) (text : List Char) : Prop := ∀ piece ∈ pieces text, (read piece).isSome = true

instance : Decidable (Valid read text) := List.decidableBAll _ _

/-- the level that a text writes for a target: that of the last directive for it -/
def written [BEq τ] (read : DirectiveReader τ) (text : List Char) (target : Option τ) : Option LogLevel :=
  (((pieces text).filterMap read).filter (·.1 == target)).getLast?.map (·.2)

/-- **The parts of a joined text** are those of the one and then those of the other. -/
theorem pieces_join (a b : List Char) : pieces (a ++ ',' :: b) = pieces a ++ pieces b := by
  rw [pieces, List.splitOn_append_cons_self, List.filter_append]
  rfl

/-- **A joined text can be read iff both texts can.** -/
theorem valid_join_iff : Valid read (a ++ ',' :: b) ↔ Valid read a ∧ Valid read b := by
  simp only [Valid, pieces_join, List.forall_mem_append]

/-- **A joined text writes what the second text writes**, and for other targets what the first does. -/
theorem written_join [BEq τ] (target : Option τ) :
    written read (a ++ ',' :: b) target = (written read b target).or (written read a target) := by
  simp only [written, pieces_join, List.filterMap_append, List.filter_append, List.getLast?_append, Option.map_or]

/-- the parts of a text are read all or not at all -/
theorem mapM_eq (read : DirectiveReader τ) (parts : List (List Char)) : parts.mapM read =
    if parts.all fun piece => (read piece).isSome then some (parts.filterMap read) else none := by
  induction parts with
  | nil => rfl
  | cons piece parts ih =>
    rw [List.mapM_cons, ih, List.all_cons]
    cases hpiece : read piece with
    | none => rfl
    | some d =>
      rw [List.filterMap_cons_some hpiece, Option.isSome_some, Bool.true_and]
      split_ifs <;> rfl

section Parse

variable [BEq τ]

theorem parse?_eq (h : Valid read text) : parse? read text = some (.ofList ((pieces text).filterMap read)) := by
  rw [parse?, mapM_eq, if_pos (List.all_eq_true.2 h)]
  rfl

theorem parse?_eq_none (h : ¬ Valid read text) : parse? read text = none := by
  rw [parse?, mapM_eq, if_neg fun hall => h (List.all_eq_true.1 hall)]
  rfl

/-- **The filter of a text finds what the text writes.** -/
theorem find?_ofPieces [LawfulBEq τ] (text : List Char) (target : Option τ) :
    (Table.ofList ((pieces text).filterMap read)).find? target = written read text target := Table.find?_ofList _ _

end Parse

end LogFilter

/-! ## Configured levels -/

namespace LogSettings

/-- the written forms stand for themselves -/
theorem directives_written {written : String} (h : written ∈ simpleLevels.map (·.2)) :
    directives written.toList = written.toList := by
  have hall : ∀ w ∈ simpleLevels.map (·.2), directives w.toList = w.toList := by decide +kernel
  exact hall written h

/-- **Directives in order stay as they are.** -/
theorem directives_directives (level : List Char) : directives (directives level) = directives level := by
  generalize hdirectives : directives level = ds
  unfold directives at hdirectives
  dsimp only at hdirectives
  split at hdirectives
  · have hinfo : "info" ∈ simpleLevels.map (·.2) := by decide
    exact hdirectives ▸ directives_written hinfo
  · rename_i hfilled
    split at hdirectives
    · rename_i written hlookup
      obtain ⟨before, after, hsplit, -⟩ := List.lookup_eq_some_iff.1 hlookup
      have hwritten : written ∈ simpleLevels.map (·.2) :=
        List.mem_map.2 ⟨_, hsplit ▸ List.mem_append_right before (.head after), rfl⟩
      exact hdirectives ▸ directives_written hwritten
    · rename_i hnone
      subst hdirectives
      rw [directives, Text.trimmed_trimmed]
      simp [hfilled, hnone]

/-! ## The effective filter -/

variable {τ : Type} [BEq τ] {read : DirectiveReader τ}

open LogFilter

/-- `f` is what the directives of a configured level and those of the environment come to -/
structure Merges (read : DirectiveReader τ) (configured environment : List Char) (f : LogFilter τ) : Prop where
  /-- target by target, what the environment writes goes before what the level writes -/
  both : environment ≠ [] → Valid read environment → Valid read configured →
    ∀ target, f.find? target = (written read environment target).or (written read configured target)
  environmentAlone : environment ≠ [] → Valid read environment → ¬ Valid read configured →
    ∀ target, f.find? target = written read environment target
  configuredAlone : ¬ (environment ≠ [] ∧ Valid read environment) → Valid read configured →
    ∀ target, f.find? target = written read configured target
  /-- the level `info` for everything, and no directive for any target -/
  neither : ¬ (environment ≠ [] ∧ Valid read environment) → ¬ Valid read configured → f.entries = [(none, .info)]

theorem configuredFilter_eq {level : List Char} (h : Valid read (directives level)) :
    configuredFilter read level = .ofList ((pieces (directives level)).filterMap read) := by
  rw [configuredFilter, parse?_eq h, Option.getD_some]

theorem configuredFilter_eq_infoOnly {level : List Char} (h : ¬ Valid read (directives level)) :
    configuredFilter read level = .infoOnly := by
  rw [configuredFilter, parse?_eq_none h, Option.getD_none]

/-- the environment counts if something is left of it once it is trimmed -/
theorem givenDirectives_eq (environment : Option (List Char)) :
    givenDirectives environment =
      if Text.trimmed (environment.getD []) = [] then none else some (Text.trimmed (environment.getD [])) := by
  cases environment with
  | none => rfl
  | some value =>
    rw [givenDirectives, Option.map_some, Option.filter_some, Option.getD_some]
    by_cases hblank : Text.trimmed value = [] <;> simp [hblank]

/-- without an environment that can be read, the configured level is all there is -/
theorem effectiveFilter_eq_configured {level : List Char} {environment : Option (List Char)}
    (h : ¬ (Text.trimmed (environment.getD []) ≠ [] ∧ Valid read (Text.trimmed (environment.getD [])))) :
    effectiveFilter read level environment = configuredFilter read level := by
  rw [effectiveFilter, givenDirectives_eq]
  split_ifs with hblank
  · rfl
  · have hinvalid : ¬ Valid read (Text.trimmed (environment.getD [])) := fun hvalid => h ⟨hblank, hvalid⟩
    have hjoined : ¬ Valid read (directives level ++ ',' :: Text.trimmed (environment.getD [])) :=
      fun hvalid => hinvalid (valid_join_iff.1 hvalid).2
    dsimp only
    rw [parse?_eq_none hjoined, parse?_eq_none hinvalid]
    rfl

variable [LawfulBEq τ]

/-- **The effective filter.** For every reader of single directives, every configured level and every environment,
unset, blank or any text: where what is left of the environment can be read, its directives go before those of the level
target by target, and stand alone where the level cannot be read; where it is unset or blank or cannot be read, the
directives of the level stand alone, or the single level `info` where the level cannot be read either. There is a filter
in all of these cases, and putting a level in order that is in order changes nothing. -/
theorem effective_filter_merges (read : DirectiveReader τ) (level : List Char) (environment : Option (List Char)) :
    Merges read (directives level) (Text.trimmed (environment.getD [])) (effectiveFilter read level environment) ∧
      directives (directives level) = directives level := by
  refine ⟨⟨fun hfilled henv hlevel target => ?_, fun hfilled henv hlevel target => ?_,
    fun hnone hlevel target => ?_, fun hnone hlevel => ?_⟩, directives_directives level⟩
  · have hjoined := valid_join_iff.2 ⟨hlevel, henv⟩
    rw [effectiveFilter, givenDirectives_eq, if_neg hfilled]
    dsimp only
    rw [parse?_eq hjoined]
    exact (find?_ofPieces _ target).trans (written_join target)
  · have hjoined : ¬ Valid read (directives level ++ ',' :: Text.trimmed (environment.getD [])) :=
      fun hvalid => hlevel (valid_join_iff.1 hvalid).1
    rw [effectiveFilter, givenDirectives_eq, if_neg hfilled]
    dsimp only
    rw [parse?_eq_none hjoined, parse?_eq henv]
    exact find?_ofPieces _ target
  · rw [effectiveFilter_eq_configured hnone, configuredFilter_eq hlevel]
    exact find?_ofPieces _ target
  · rw [effectiveFilter_eq_configured hnone, configuredFilter_eq_infoOnly hlevel]
    rfl

/-- a level for everything, and another for one target -/
def bridgeSettings : LogSettings := { level := " Warn,loom.bridge=trace " }

/-- the environment replaces the level of one target and adds another; where it cannot be read the level stands alone;
where neither can, there is one level -/
theorem bridgeSettings_merges :
    (bridgeSettings.filter (some " loom.bridge=off,,loom.config\n")).find? (some "loom.bridge") = some .off ∧
    (bridgeSettings.filter (some " loom.bridge=off,,loom.config\n")).find? none = some .warn ∧
    (bridgeSettings.filter (some "loom.bridge=off,loom=6")).find? (some "loom.bridge") = some .trace ∧
    (({ bridgeSettings with level := "warn,!" } : LogSettings).filter (some "debug")).find? none = some .debug ∧
    (({ bridgeSettings with level := "warn,!" } : LogSettings).filter (some "\t")).entries = [(none, .info)] := by
  have hmerges : ∀ level environment : String, Merges readDirective (directives level.toList)
      (Text.trimmed environment.toList) (({ bridgeSettings with level } : LogSettings).filter (some environment)) :=
    fun level environment => (effective_filter_merges readDirective level.toList (some environment.toList)).1
  have hboth := (hmerges bridgeSettings.level " loom.bridge=off,,loom.config\n").both (by decide +kernel)
    (by decide +kernel) (by decide +kernel)
  have hlevel := (hmerges bridgeSettings.level "loom.bridge=off,loom=6").configuredAlone (by decide +kernel)
    (by decide +kernel)
  have henvironment := (hmerges "warn,!" "debug").environmentAlone (by decide +kernel) (by decide +kernel)
    (by decide +kernel)
  refine ⟨(hboth _).trans (by decide +kernel), (hboth _).trans (by decide +kernel),
    (hlevel _).trans (by decide +kernel), (henvironment _).trans (by decide +kernel), ?_⟩
  exact (hmerges "warn,!" "\t").neither (by decide +kernel) (by decide +kernel)

end LogSettings

/-! ## The written form -/

namespace Table

variable {κ α : Type} [BEq κ] [LawfulBEq κ]

theorem mem_entries_iff {t : Table κ α} {e : κ × α} : e ∈ t.entries ↔ t.find? e.1 = some e.2 := by
  constructor
  · exact find?_of_mem t
  · intro h
    obtain ⟨⟨k, v⟩, hmem, hkey, hvalue⟩ := exists_entry_of_find? h
    rwa [show (k, v) = e from Prod.ext (eq_of_beq hkey) hvalue] at hmem

theorem nodup_entries (t : Table κ α) : t.entries.Nodup :=
  t.distinct.imp fun hab heq => by
    rw [heq, beq_self_eq_true] at hab
    exact Bool.noConfusion hab

/-- tables with the same look-ups have the same entries, in some order -/
theorem perm_entries {f g : Table κ α} (h : ∀ k, f.find? k = g.find? k) : f.entries.Perm g.entries := by
  refine (List.perm_ext_iff_of_nodup f.nodup_entries g.nodup_entries).2 fun e => ?_
  rw [mem_entries_iff, mem_entries_iff, h]

end Table

namespace LogFilter

theorem precedes_some_iff {a b : String} : precedes (some a) (some b) = true ↔
    b.utf8ByteSize < a.utf8ByteSize ∨ b.utf8ByteSize = a.utf8ByteSize ∧ b ≤ a := by
  simp [precedes]

theorem precedes_total (a b : Option String) : (precedes a b || precedes b a) = true := by
  cases a with
  | none => cases b <;> rfl
  | some a =>
    cases b with
    | none => rfl
    | some b =>
      rw [Bool.or_eq_true, precedes_some_iff, precedes_some_iff]
      rcases Nat.lt_trichotomy a.utf8ByteSize b.utf8ByteSize with hlt | heq | hgt
      · exact Or.inr (Or.inl hlt)
      · rcases String.le_total a b with hab | hba
        · exact Or.inr (Or.inr ⟨heq, hab⟩)
        · exact Or.inl (Or.inr ⟨heq.symm, hba⟩)
      · exact Or.inl (Or.inl hgt)

theorem precedes_trans {a b c : Option String} (h : precedes a b = true) (h' : precedes b c = true) :
    precedes a c = true := by
  cases c with
  | none => cases a <;> rfl
  | some c =>
    cases b with
    | none => exact absurd h' (by simp [precedes])
    | some b =>
      cases a with
      | none => exact absurd h (by simp [precedes])
      | some a =>
        rw [precedes_some_iff] at h h' ⊢
        rcases h with hlt | ⟨heq, hle⟩ <;> rcases h' with hlt' | ⟨heq', hle'⟩
        · exact Or.inl (Nat.lt_trans hlt' hlt)
        · exact Or.inl (heq' ▸ hlt)
        · exact Or.inl (heq ▸ hlt')
        · exact Or.inr ⟨heq'.trans heq, String.le_trans hle' hle⟩

theorem precedes_antisymm {a b : Option String} (h : precedes a b = true) (h' : precedes b a = true) : a = b := by
  cases a with
  | none =>
    cases b with
    | none => rfl
    | some b => exact absurd h (by simp [precedes])
  | some a =>
    cases b with
    | none => exact absurd h' (by simp [precedes])
    | some b =>
      rw [precedes_some_iff] at h h'
      rcases h with hlt | ⟨heq, hle⟩ <;> rcases h' with hlt' | ⟨heq', hle'⟩
      · exact absurd hlt' (Nat.lt_asymm hlt)
      · exact absurd heq' (Nat.ne_of_gt hlt)
      · exact absurd heq (Nat.ne_of_gt hlt')
      · rw [String.le_antisymm hle' hle]

theorem pairwise_precedes (f : LogFilter String) :
    (f.entries.mergeSort fun a b => precedes a.1 b.1).Pairwise fun a b => precedes a.1 b.1 = true := by
  apply List.pairwise_mergeSort
  · exact fun _ _ _ => precedes_trans
  · exact fun a b => precedes_total a.1 b.1

/-- **What is written of a filter shows what it finds** and nothing else. -/
theorem render_congr {f g : LogFilter String} (h : ∀ target, f.find? target = g.find? target) :
    f.render = g.render := by
  have hperm : (f.entries.mergeSort fun a b => precedes a.1 b.1).Perm
      (g.entries.mergeSort fun a b => precedes a.1 b.1) :=
    (List.mergeSort_perm _ _).trans ((Table.perm_entries h).trans (List.mergeSort_perm _ _).symm)
  -- the order tells any two entries apart, so that there is one sorted list of them only
  have hsame := hperm.eq_of_pairwise (fun a b ha hb hab hba => ?_) (pairwise_precedes f) (pairwise_precedes g)
  · rw [render, render, hsame]
  · have hkey := precedes_antisymm hab hba
    rw [List.mem_mergeSort, Table.mem_entries_iff] at ha hb
    rw [← hkey, ← h, ha] at hb
    exact Prod.ext hkey (Option.some.inj hb)

end LogFilter

end CallPlan
