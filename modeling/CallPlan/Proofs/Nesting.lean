/-
Compounds are transparent to nesting.

What a tree of instrumentations does depends on its leaves from left to right and on nothing else: it prepares a draft
by one leaf after the other (`prepare_eq`), and its appender is the sequence of the appenders of its leaves
(`appender_eq`). For the appenders this rests on two laws of `Appender.sequence`: one appender alone is its own
sequence, and a sequence of sequences is the sequence of all their parts, because the larger of two frames is
associative and the empty frame changes nothing.

A sequence runs its appenders one after the other, each at the site that the one before left (`RunsThrough`). It comes
to the end with the largest stack and the most locals of all, or stops at the first failure with the site as that left
it.

- `sequence_runAt_ok_iff`, `sequence_runAt_error_iff`: the outcome of a sequence at any site;
- `compound_transparent`: a compound of any depth acts as the flat compound of its leaves.
-/
import CallPlan.Samples.Auxiliaries
import CallPlan.Samples.Pools
import CallPlan.Proofs.BridgeIndex

namespace CallPlan

/-! ## Frames -/

namespace FrameSize

theorem merge_zero (a : FrameSize) : a.merge zero = a := by simp [merge, zero]

theorem zero_merge (a : FrameSize) : zero.merge a = a := by simp [merge, zero]

theorem merge_assoc (a b c : FrameSize) : (a.merge b).merge c = a.merge (b.merge c) := by
  simp [merge, Nat.max_assoc]

/-- the largest operand stack and the most locals, none where there are no frames -/
def largest (sizes : List FrameSize) : FrameSize :=
  ⟨(sizes.map (·.operandStack)).foldr max 0, (sizes.map (·.locals)).foldr max 0⟩

theorem largest_cons (a : FrameSize) (sizes : List FrameSize) : largest (a :: sizes) = a.merge (largest sizes) := rfl

end FrameSize

variable {α : Type} [Auxiliary α]

/-! ## Emission at a site -/

namespace Emission

variable {β γ : Type}

/-- the outcome at a site, and the site afterwards -/
def runAt (e : Emission α β) (s : Site α) : Except Error β × Site α := (ExceptT.run e).run s

theorem runAt_pure (b : β) (s : Site α) : (pure b : Emission α β).runAt s = (.ok b, s) := rfl

theorem runAt_bind (e : Emission α β) (f : β → Emission α γ) (s : Site α) : (e >>= f).runAt s =
    match e.runAt s with
    | (.ok b, t) => (f b).runAt t
    | (.error fault, t) => (.error fault, t) := by
  simp only [runAt, ExceptT.run_bind, StateT.run_bind]
  show (match (StateT.run (ExceptT.run e) s : Except Error β × Site α) with | (a, t) => _) = _
  rcases StateT.run (ExceptT.run e) s with ⟨_ | _, t⟩ <;> rfl

theorem runAt_bind_of_ok {e : Emission α β} {f : β → Emission α γ} {s t : Site α} {b : β}
    (h : e.runAt s = (.ok b, t)) : (e >>= f).runAt s = (f b).runAt t := by
  rw [runAt_bind, h]

theorem runAt_bind_of_error {e : Emission α β} {f : β → Emission α γ} {s t : Site α} {fault : Error}
    (h : e.runAt s = (.error fault, t)) : (e >>= f).runAt s = (.error fault, t) := by
  rw [runAt_bind, h]

end Emission

/-! ## Sequences of appenders -/

attribute [ext] Appender

namespace Appender

open FrameSize

variable {m : Method} {a : Appender α} {as : List (Appender α)} {s t : Site α} {start total : FrameSize} {fault : Error}

/-- the appenders in order, with room for `start` and the largest of their frames -/
def emitAll (m : Method) (start : FrameSize) (as : List (Appender α)) : Emission α FrameSize :=
  as.foldlM (fun size a => return size.merge (← a.apply m)) start

theorem sequence_apply (as : List (Appender α)) (m : Method) : (sequence as).apply m = emitAll m .zero as := rfl

theorem emitAll_cons (m : Method) (start : FrameSize) (a : Appender α) (as : List (Appender α)) :
    emitAll m start (a :: as) = a.apply m >>= fun size => emitAll m (start.merge size) as := by
  simp [emitAll]

/-- where emission starts from does not matter to what is emitted -/
theorem emitAll_eq (m : Method) (start : FrameSize) (as : List (Appender α)) :
    emitAll m start as = start.merge <$> emitAll m .zero as := by
  induction as generalizing start with
  | nil => simp [emitAll, merge_zero]
  | cons a as ih =>
    rw [emitAll_cons, emitAll_cons, map_bind]
    refine congrArg _ (funext fun size => ?_)
    rw [ih (start.merge size), ih (zero.merge size), zero_merge, funext (merge_assoc start size)]
    simp

/-- first one appender, then the other -/
def andThen (a b : Appender α) : Appender α := sequence [a, b]

theorem andThen_apply (a b : Appender α) (m : Method) :
    (a.andThen b).apply m = a.apply m >>= fun size => size.merge <$> b.apply m := by
  simp [andThen, sequence_apply, emitAll, zero_merge]

/-- an appender alone is its own sequence -/
theorem sequence_singleton (a : Appender α) : sequence [a] = a := by
  refine Appender.ext (by simp [sequence]) (funext fun m => ?_)
  simp [sequence_apply, emitAll, funext zero_merge]

/-- **A sequence in two parts** is the first part followed by the second. -/
theorem sequence_append (as bs : List (Appender α)) : sequence (as ++ bs) = (sequence as).andThen (sequence bs) := by
  refine Appender.ext (by simp [sequence, andThen]) (funext fun m => ?_)
  rw [andThen_apply, sequence_apply, sequence_apply, sequence_apply, emitAll, List.foldlM_append]
  exact congrArg _ (funext fun size => emitAll_eq m size bs)

theorem sequence_cons (a : Appender α) (as : List (Appender α)) : sequence (a :: as) = a.andThen (sequence as) := by
  rw [← List.singleton_append, sequence_append, sequence_singleton]

/-! ## The outcome of a sequence -/

/-- the appenders succeed one after the other, each at the site that the one before left -/
inductive RunsThrough (m : Method) : List (Appender α) → Site α → List FrameSize → Site α → Prop where
  | nil (s : Site α) : RunsThrough m [] s [] s
  | cons {a : Appender α} {as : List (Appender α)} {s mid t : Site α} {size : FrameSize} {sizes : List FrameSize}
      (first : (a.apply m).runAt s = (.ok size, mid)) (rest : RunsThrough m as mid sizes t) :
      RunsThrough m (a :: as) s (size :: sizes) t

/-- the first of the appenders that fails does so with this fault and leaves this site -/
def FailsWith (m : Method) (as : List (Appender α)) (s : Site α) (fault : Error) (t : Site α) : Prop :=
  ∃ before failing later sizes reached, as = before ++ failing :: later ∧ RunsThrough m before s sizes reached ∧
    (failing.apply m).runAt reached = (.error fault, t)

theorem emitAll_ok_iff : (emitAll m start as).runAt s = (.ok total, t) ↔
    ∃ sizes, RunsThrough m as s sizes t ∧ total = start.merge (largest sizes) := by
  induction as generalizing start s with
  | nil =>
    constructor
    · intro h
      obtain ⟨rfl, rfl⟩ : start = total ∧ s = t := by simpa [emitAll, Emission.runAt_pure] using h
      exact ⟨[], .nil s, (merge_zero start).symm⟩
    · rintro ⟨sizes, hruns, rfl⟩
      cases hruns
      rw [show largest [] = zero from rfl, merge_zero]
      rfl
  | cons a as ih =>
    rw [emitAll_cons]
    constructor
    · intro h
      rcases hfirst : (a.apply m).runAt s with ⟨fault | size, mid⟩
      · rw [Emission.runAt_bind_of_error hfirst] at h
        exact absurd h (by simp)
      · rw [Emission.runAt_bind_of_ok hfirst] at h
        obtain ⟨sizes, hruns, rfl⟩ := ih.1 h
        exact ⟨size :: sizes, .cons hfirst hruns, by rw [largest_cons, merge_assoc]⟩
    · rintro ⟨_, hruns, rfl⟩
      cases hruns with
      | cons first rest =>
        rw [Emission.runAt_bind_of_ok first]
        exact ih.2 ⟨_, rest, by rw [largest_cons, merge_assoc]⟩

theorem failsWith_cons_of_ok {size : FrameSize} {mid : Site α} (h : (a.apply m).runAt s = (.ok size, mid)) :
    FailsWith m (a :: as) s fault t ↔ FailsWith m as mid fault t := by
  constructor
  · rintro ⟨before, failing, later, sizes, reached, heq, hruns, hfail⟩
    cases hruns with
    | nil =>
      obtain ⟨rfl, -⟩ := List.cons.inj heq
      exact absurd (h.symm.trans hfail) (by simp)
    | cons first rest =>
      obtain ⟨rfl, hrest⟩ := List.cons.inj heq
      obtain ⟨-, rfl⟩ := Prod.mk.inj (h.symm.trans first)
      exact ⟨_, failing, later, _, reached, hrest, rest, hfail⟩
  · rintro ⟨before, failing, later, sizes, reached, rfl, hruns, hfail⟩
    exact ⟨a :: before, failing, later, size :: sizes, reached, rfl, .cons h hruns, hfail⟩

theorem failsWith_cons_of_error {fault' : Error} {mid : Site α} (h : (a.apply m).runAt s = (.error fault', mid)) :
    FailsWith m (a :: as) s fault t ↔ fault' = fault ∧ mid = t := by
  constructor
  · rintro ⟨before, failing, later, sizes, reached, heq, hruns, hfail⟩
    cases hruns with
    | nil =>
      obtain ⟨rfl, -⟩ := List.cons.inj heq
      simpa using h.symm.trans hfail
    | cons first rest =>
      obtain ⟨rfl, -⟩ := List.cons.inj heq
      exact absurd (h.symm.trans first) (by simp)
  · rintro ⟨rfl, rfl⟩
    exact ⟨[], a, as, [], s, rfl, .nil s, h⟩

theorem emitAll_error_iff : (emitAll m start as).runAt s = (.error fault, t) ↔ FailsWith m as s fault t := by
  induction as generalizing start s with
  | nil =>
    constructor
    · intro h
      exact absurd h (by simp [emitAll, Emission.runAt_pure])
    · rintro ⟨before, failing, later, sizes, reached, heq, -, -⟩
      exact absurd heq (by simp)
  | cons a as ih =>
    rw [emitAll_cons]
    rcases hfirst : (a.apply m).runAt s with ⟨fault' | size, mid⟩
    · rw [Emission.runAt_bind_of_error hfirst, failsWith_cons_of_error hfirst]
      simp
    · rw [Emission.runAt_bind_of_ok hfirst, failsWith_cons_of_ok hfirst]
      exact ih

/-- **A sequence succeeds** when all its appenders do, with the largest of their frames. -/
theorem sequence_runAt_ok_iff : ((sequence as).apply m).runAt s = (.ok total, t) ↔
    ∃ sizes, RunsThrough m as s sizes t ∧ total = largest sizes := by
  rw [sequence_apply, emitAll_ok_iff]
  simp only [zero_merge]

/-- **A sequence fails** as the first of its appenders that does. -/
theorem sequence_runAt_error_iff : ((sequence as).apply m).runAt s = (.error fault, t) ↔ FailsWith m as s fault t :=
  emitAll_error_iff

end Appender

/-! ## Trees and their leaves -/

namespace Instrumentation

variable {ι : Type} [Instrument ι α]

/-- the compound of these leaves, without nesting -/
def flat (leaves : List ι) : Instrumentation ι := .compound (leaves.map .single)

theorem leaves_flat (leaves : List ι) : (flat leaves).leaves = leaves := by
  show leavesOfParts (leaves.map .single) = leaves
  induction leaves with
  | nil => rfl
  | cons leaf leaves ih => rw [List.map_cons, leavesOfParts, ih, Instrumentation.leaves, List.singleton_append]

mutual

/-- **A tree prepares a draft by its leaves in order.** -/
theorem prepare_eq : ∀ (i : Instrumentation ι) (draft : TypeDraft),
    i.prepare draft = i.leaves.foldlM (fun d leaf => Instrument.prepare leaf d) draft
  | .single leaf, draft => by simp [prepare, leaves]
  | .compound parts, draft => prepareParts_eq parts draft

theorem prepareParts_eq : ∀ (parts : List (Instrumentation ι)) (draft : TypeDraft),
    prepareParts parts draft = (leavesOfParts parts).foldlM (fun d leaf => Instrument.prepare leaf d) draft
  | [], _ => rfl
  | p :: ps, draft => by
    rw [prepareParts, leavesOfParts, List.foldlM_append, prepare_eq p draft]
    exact congrArg _ (funext fun next => prepareParts_eq ps next)

end

/-- the appenders of these leaves, or the first leaf's failure to provide one -/
def leafAppenders (leaves : List ι) (planner : Planner) : Except Error (List (Appender α)) :=
  leaves.mapM (Instrument.appender · planner)

mutual

/-- **The appender of a tree is the sequence of the appenders of its leaves.** -/
theorem appender_eq : ∀ (i : Instrumentation ι) (planner : Planner),
    i.appender planner = Appender.sequence <$> leafAppenders i.leaves planner
  | .single leaf, planner => by simp [appender, leaves, leafAppenders, Appender.sequence_singleton]
  | .compound parts, planner => by
    rw [leaves, ← appenders_eq parts planner, appender]
    simp

theorem appenders_eq : ∀ (parts : List (Instrumentation ι)) (planner : Planner),
    Appender.sequence <$> appenders parts planner = Appender.sequence <$> leafAppenders (leavesOfParts parts) planner
  | [], _ => rfl
  | p :: ps, planner =>
    calc Appender.sequence <$> appenders (p :: ps) planner
        = (do
            let a ← p.appender planner
            let b ← Appender.sequence <$> appenders ps planner
            return a.andThen b) := by simp [appenders, Appender.sequence_cons]
      _ = (do
            let a ← Appender.sequence <$> leafAppenders p.leaves planner
            let b ← Appender.sequence <$> leafAppenders (leavesOfParts ps) planner
            return a.andThen b) := by rw [appender_eq p planner, appenders_eq ps planner]
      _ = Appender.sequence <$> leafAppenders (leavesOfParts (p :: ps)) planner := by
          simp [leafAppenders, leavesOfParts, List.mapM_append, Appender.sequence_append]

end

end Instrumentation

/-! ## Failing samples -/

namespace Samples.SampleInstrumentation

variable {i : SampleInstrumentation} {planner : Planner} {a : Appender α} {m : Method} {s t : Site α} {fault : Error}

/-- a marker always emits its instruction -/
theorem markerAppender_runAt (opcode : UInt8) (operandStack : Nat) (m : Method) (s : Site α) :
    ((markerAppender opcode operandStack).apply m).runAt s =
      (.ok ⟨operandStack, 1⟩, { s with emitted := s.emitted ++ [.plain opcode] }) := rfl

/-- a legal super call is always emitted, between its receiver and its return -/
theorem superCallAppender_runAt (found : Method) (on : KnownType) (m : Method) (s : Site α) :
    ((superCallAppender (.legal found on)).apply m).runAt s =
      (.ok ⟨max 1 (1 + ((found.result.slots : Int) - (found.descriptor.parameterSlots + 1))).toNat,
          1 + found.descriptor.parameterSlots⟩,
        { s with emitted := s.emitted ++ [.plain Opcode.loadThis] ++
          [.call Opcode.invokeSpecial on.name found.name found.descriptor.render on.isInterface] ++
          [.plain (returnOpcode found.result)] }) := rfl

/-- **A sample that fails emits nothing** and registers nothing. -/
theorem site_of_failure (h : i.appender planner = .ok a) (hfail : (a.apply m).runAt s = (.error fault, t)) : t = s := by
  have hnoCode : Appender.noCode = a → t = s := by
    rintro rfl
    exact (Prod.mk.inj hfail).2.symm
  cases i with
  | marker label opcode operandStack =>
    obtain rfl := Except.ok.inj h
    rw [markerAppender_runAt] at hfail
    exact absurd hfail (by simp)
  | superCall method lookup =>
    obtain ⟨call, -, hcall⟩ := bind_eq_ok.1 h
    obtain rfl := Except.ok.inj hcall
    cases call with
    | illegal => exact (Prod.mk.inj hfail).2.symm
    | legal found on =>
      rw [superCallAppender_runAt] at hfail
      exact absurd hfail (by simp)
  | abstractMethod => exact hnoCode (Except.ok.inj h)
  | addField field => exact hnoCode (Except.ok.inj h)

end Samples.SampleInstrumentation

/-! ## Main result -/

namespace Instrumentation

open Appender Samples

/-- how the appender of a compound with these leaves runs, at any site -/
structure RunsAsLeaves (a : Appender α) (as : List (Appender α)) : Prop where
  code : a.appendsCode = as.any (·.appendsCode)
  completed : ∀ m s total t, (a.apply m).runAt s = (.ok total, t) ↔
    ∃ sizes, RunsThrough m as s sizes t ∧ total = FrameSize.largest sizes
  stopped : ∀ m s fault t, (a.apply m).runAt s = (.error fault, t) ↔ FailsWith m as s fault t

theorem runsAsLeaves_sequence (as : List (Appender α)) : RunsAsLeaves (sequence as) as :=
  ⟨rfl, fun _ _ _ _ => sequence_runAt_ok_iff, fun _ _ _ _ => sequence_runAt_error_iff⟩

theorem exists_leafAppenders {ι : Type} [Instrument ι α] {i : Instrumentation ι} {planner : Planner} {a : Appender α}
    (h : i.appender planner = .ok a) : ∃ as, leafAppenders i.leaves planner = .ok as ∧ a = sequence as := by
  rw [appender_eq] at h
  cases has : leafAppenders i.leaves planner with
  | error fault => rw [has] at h; exact absurd h (by simp)
  | ok as =>
    rw [has] at h
    exact ⟨as, rfl, (Except.ok.inj h).symm⟩

theorem appender_of_mem_leafAppenders {ι : Type} [Instrument ι α] {leaves : List ι} {planner : Planner}
    {as : List (Appender α)} (h : leafAppenders leaves planner = .ok as) {a : Appender α} (ha : a ∈ as) :
    ∃ leaf ∈ leaves, Instrument.appender leaf planner = .ok a := by
  induction leaves generalizing as with
  | nil =>
    obtain rfl : [] = as := Except.ok.inj h
    exact absurd ha List.not_mem_nil
  | cons leaf leaves ih =>
    rw [leafAppenders, List.mapM_cons] at h
    obtain ⟨first, hfirst, h⟩ := bind_eq_ok.1 h
    obtain ⟨rest, hrest, h⟩ := bind_eq_ok.1 h
    obtain rfl := Except.ok.inj h
    rcases List.mem_cons.1 ha with rfl | ha
    · exact ⟨leaf, List.mem_cons_self, hfirst⟩
    · obtain ⟨other, hother, happender⟩ := ih hrest ha
      exact ⟨other, List.mem_cons_of_mem _ hother, happender⟩

/-- **Compounds are transparent to nesting.** A compound prepares every draft and provides appenders as the flat
compound of its leaves does, failures included. At every site its appender runs those of the leaves from left to right:
it succeeds with the largest of their frames when all do, and otherwise fails as the first that does, after what the
ones before emitted and registered, the rest not being run. Where the leaves are samples, the one that fails adds
nothing of its own. -/
theorem compound_transparent {ι : Type} [Instrument ι α] (parts : List (Instrumentation ι)) :
    (∀ draft, (compound parts).prepare draft = (flat (leavesOfParts parts)).prepare draft) ∧
    (∀ planner, (compound parts).appender planner = (flat (leavesOfParts parts)).appender planner) ∧
    (∀ planner a, (compound parts).appender planner = .ok a →
      ∃ as, leafAppenders (leavesOfParts parts) planner = .ok as ∧ RunsAsLeaves a as) ∧
    ∀ (samples : List (Instrumentation SampleInstrumentation)) planner a, (compound samples).appender planner = .ok a →
      ∃ as, leafAppenders (leavesOfParts samples) planner = .ok as ∧
        ∀ m s fault t, (a.apply m).runAt s = (.error fault, t) → ∃ before failing later sizes,
          as = before ++ failing :: later ∧ RunsThrough m before s sizes t ∧
          (failing.apply m).runAt t = (.error fault, t) := by
  have hleaves : (flat (leavesOfParts parts)).leaves = (compound parts).leaves := leaves_flat _
  refine ⟨fun draft => ?_, fun planner => ?_, fun planner a h => ?_, fun samples planner a h => ?_⟩
  · rw [prepare_eq, prepare_eq, hleaves]
  · rw [appender_eq, appender_eq, hleaves]
  · obtain ⟨as, has, rfl⟩ := exists_leafAppenders h
    exact ⟨as, has, runsAsLeaves_sequence as⟩
  · obtain ⟨as, has, rfl⟩ := exists_leafAppenders h
    refine ⟨as, has, fun m s fault t hfail => ?_⟩
    obtain ⟨before, failing, later, sizes, reached, heq, hruns, hstop⟩ := sequence_runAt_error_iff.1 hfail
    obtain ⟨leaf, -, hleaf⟩ := appender_of_mem_leafAppenders has (a := failing) (by simp [heq])
    obtain rfl := SampleInstrumentation.site_of_failure hleaf hstop
    exact ⟨before, failing, later, sizes, heq, hruns, hstop⟩

/-- a mark and a super call in compounds of their own, then a failing leaf and another mark in a third -/
def nestedSamples : List (Instrumentation SampleInstrumentation) := [
  .compound [.single (.marker "first" 0x01 3), .compound [.single (.superCall baseGet .superType)]],
  .compound [],
  .compound [.compound [.single .abstractMethod], .single (.marker "last" 0x02 1)]]

/-- what the nested samples emit before they fail -/
def nestedEmissions : List Instruction := [
  .plain 0x01,
  .plain Opcode.loadThis,
  .call Opcode.invokeSpecial childName "get" "()Ljava/lang/String;" false,
  .plain Opcode.returnReference]

/-- nested samples emit what stands before the failing leaf, and nothing of what comes after it -/
theorem nested_samples_transparent : ∃ t p a as u,
    (covariant >>= fun pool => generatedSubclass pool childName) = .ok t ∧ Planner.make .default (.ofType t) = .ok p ∧
    (compound nestedSamples).appender p = .ok a ∧ (flat (leavesOfParts nestedSamples)).appender p = .ok a ∧
    leafAppenders (leavesOfParts nestedSamples) p = .ok as ∧
    (a.apply baseGet).runAt ⟨[], .empty t Registry.defaultSuffix⟩ = (.error (.abstractMethod baseGet.render), u) ∧
    u.emitted = nestedEmissions ∧ ∃ before failing later sizes, as = before ++ failing :: later ∧
      RunsThrough baseGet before ⟨[], .empty t Registry.defaultSuffix⟩ sizes u := by
  obtain ⟨t, ht, htest⟩ := exists_ok_of_any (x := covariant >>= fun pool => generatedSubclass pool childName)
    (f := fun t => (Planner.make .default (.ofType t)).toOption.any fun p =>
      ((compound nestedSamples).appender p).toOption.any fun a =>
        match (a.apply baseGet).runAt ⟨[], .empty t Registry.defaultSuffix⟩ with
        | (.error fault, u) => fault == .abstractMethod baseGet.render && u.emitted == nestedEmissions
        | (.ok _, _) => false) (by decide +kernel)
  obtain ⟨p, hp, htest⟩ := exists_ok_of_any htest
  obtain ⟨a, ha, htest⟩ := exists_ok_of_any htest
  rcases hrun : (a.apply baseGet).runAt ⟨[], .empty t Registry.defaultSuffix⟩ with ⟨fault | size, u⟩
  · rw [hrun, Bool.and_eq_true, beq_iff_eq, beq_iff_eq] at htest
    obtain ⟨rfl, hemitted⟩ := htest
    obtain ⟨-, hflat, -, hsamples⟩ := compound_transparent nestedSamples
    obtain ⟨as, has, hstop⟩ := hsamples nestedSamples p a ha
    obtain ⟨before, failing, later, sizes, heq, hruns, -⟩ := hstop _ _ _ _ hrun
    exact ⟨t, p, a, as, u, ht, hp, ha, (hflat p).symm.trans ha, has, hrun, hemitted, before, failing, later, sizes, heq,
      hruns⟩
  · rw [hrun] at htest
    exact absurd htest (by simp)

end Instrumentation

end CallPlan
