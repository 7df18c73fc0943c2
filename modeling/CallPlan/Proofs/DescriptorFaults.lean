/-
Where reading a descriptor gives up.

Reading a field type fails iff no complete field type stands in front, and it fails at the text behind the brackets
(`readFrom_eq_error_iff`). A field descriptor that begins with a complete type but goes on is blamed as a whole. A
method descriptor is blamed as a whole when the fault lies between its parts (`BlamedWhole`), and otherwise at the
text that follows some complete parameters, perhaps their closing parenthesis, and brackets. No field type is the
beginning of another one or begins with a parenthesis, so there is only one such place (`FaultSplit.Splits.unique`).

- `descriptor_faults_exact`: what is rejected, and the text that is reported.
-/
import CallPlan.Proofs.DescriptorText

namespace CallPlan

variable {cs fault rest rest' whole : List Char} {ts ts' : List FieldType}

/-! ## Field types -/

/-- a complete field type stands at the front -/
def BeginsWithType (cs : List Char) : Prop := ∃ (t : FieldType) (rest : List Char), t.WellNamed ∧ cs = t.chars ++ rest

theorem beginsWithType_iff : BeginsWithType cs ↔ ∃ read, FieldType.readFrom cs = .ok read := by
  constructor
  · rintro ⟨t, rest, hnamed, rfl⟩
    exact ⟨_, FieldType.readFrom_chars hnamed rest⟩
  · rintro ⟨⟨t, rest⟩, hread⟩
    exact ⟨t, rest, FieldType.readFrom_eq_ok_iff.1 hread⟩

theorem beginsWithType_bracket : BeginsWithType ('[' :: cs) ↔ BeginsWithType cs := by
  rw [beginsWithType_iff, beginsWithType_iff, FieldType.readFrom]
  cases FieldType.readFrom cs with
  | error fault => simp
  | ok read => simp

theorem beginsWithType_brackets (n : Nat) : BeginsWithType (List.replicate n '[' ++ cs) ↔ BeginsWithType cs := by
  induction n with
  | zero => rfl
  | succ n ih => rw [List.replicate_succ, List.cons_append, beginsWithType_bracket, ih]

theorem not_beginsWithType_end (rest : List Char) : ¬ BeginsWithType (')' :: rest) := by
  rw [beginsWithType_iff]
  rintro ⟨read, hread⟩
  exact FieldType.readFrom_ne_ok (Or.inl rfl) rest read hread

/-- a failure is reported at the text behind the brackets -/
theorem fault_of_readFrom (h : FieldType.readFrom cs = .error fault) : fault = cs.dropWhile (· == '[') := by
  fun_induction FieldType.readFrom cs generalizing fault with
  | case1 => exact (Except.error.inj h).symm
  | case2 => exact absurd h (by simp)
  | case3 rest inner hread ih =>
    obtain rfl := Except.error.inj h
    rw [ih hread, List.dropWhile_cons_of_pos (by rfl)]
  | case4 => exact absurd h (by simp)
  | case5 rest =>
    obtain rfl := Except.error.inj h
    rfl
  | case6 => exact absurd h (by simp)
  | case7 c rest hbracket =>
    obtain rfl := Except.error.inj h
    rw [List.dropWhile_cons_of_neg (by simpa using hbracket)]

/-- **Reading a field type fails** iff none stands in front, and then at the text behind the brackets. -/
theorem readFrom_eq_error_iff :
    FieldType.readFrom cs = .error fault ↔ ¬ BeginsWithType cs ∧ fault = cs.dropWhile (· == '[') := by
  rw [beginsWithType_iff]
  constructor
  · intro h
    exact ⟨fun ⟨read, hread⟩ => absurd (h.symm.trans hread) (by simp), fault_of_readFrom h⟩
  · rintro ⟨hnone, rfl⟩
    cases hread : FieldType.readFrom cs with
    | ok read => exact absurd ⟨read, hread⟩ hnone
    | error inner => rw [fault_of_readFrom hread]

/-- what a failed text is: brackets and then the place of the failure, which is no bracket and no type either -/
theorem brackets_of_readFrom (h : FieldType.readFrom cs = .error fault) :
    ∃ n, cs = List.replicate n '[' ++ fault ∧ fault.head? ≠ some '[' ∧ ¬ BeginsWithType fault := by
  obtain ⟨hnone, rfl⟩ := readFrom_eq_error_iff.1 h
  have hbrackets : cs.takeWhile (· == '[') = List.replicate (cs.takeWhile (· == '[')).length '[' :=
    List.eq_replicate_iff.2 ⟨rfl, fun c hc => by simpa using List.mem_takeWhile_imp hc⟩
  have hcs : cs = List.replicate (cs.takeWhile (· == '[')).length '[' ++ cs.dropWhile (· == '[') := by
    rw [← hbrackets, List.takeWhile_append_dropWhile]
  refine ⟨_, hcs, ?_, ?_⟩
  · intro hhead
    have hstop := List.head?_dropWhile_not (· == '[') cs
    rw [hhead] at hstop
    simp at hstop
  · rwa [hcs, beginsWithType_brackets] at hnone

namespace FieldType

/-- a complete field type and more stand in the text -/
def GoesOn (cs : List Char) : Prop :=
  ∃ (t : FieldType) (c : Char) (more : List Char), t.WellNamed ∧ cs = t.chars ++ c :: more

/-- where a rejected field descriptor is blamed: as a whole if it goes on after a type, else behind its brackets -/
structure FaultAt (cs fault : List Char) : Prop where
  goesOn : GoesOn cs → fault = cs
  noType : ¬ GoesOn cs → fault = cs.dropWhile (· == '[')

theorem GoesOn.beginsWithType (h : GoesOn cs) : BeginsWithType cs := by
  obtain ⟨t, c, more, hnamed, hcs⟩ := h
  exact ⟨t, c :: more, hnamed, hcs⟩

theorem faultAt_of_read (h : read cs = .error fault) : FaultAt cs fault := by
  unfold read at h
  cases hread : readFrom cs with
  | error inner =>
    rw [hread] at h
    obtain rfl := Except.error.inj h
    obtain ⟨hnone, rfl⟩ := readFrom_eq_error_iff.1 hread
    exact ⟨fun hmore => absurd hmore.beginsWithType hnone, fun _ => rfl⟩
  | ok result =>
    obtain ⟨t, _ | ⟨c, more⟩⟩ := result
    · rw [hread] at h
      exact absurd h (by simp)
    · rw [hread] at h
      obtain rfl := Except.error.inj h
      obtain ⟨hnamed, hcs⟩ := readFrom_eq_ok_iff.1 hread
      exact ⟨fun _ => rfl, fun hnone => absurd ⟨t, c, more, hnamed, hcs⟩ hnone⟩

theorem FaultAt.isSuffix (h : FaultAt cs fault) : fault <:+ cs := by
  by_cases hmore : GoesOn cs
  · exact (h.goesOn hmore).symm ▸ List.suffix_refl cs
  · rw [h.noType hmore]
    exact List.dropWhile_suffix _

theorem FaultAt.eq {fault' : List Char} (h : FaultAt cs fault) (h' : FaultAt cs fault') : fault = fault' := by
  by_cases hmore : GoesOn cs
  · rw [h.goesOn hmore, h'.goesOn hmore]
  · rw [h.noType hmore, h'.noType hmore]

end FieldType

/-! ## Parameters and results -/

/-- **Parameters fail** where the text just ends, or at one that cannot be read. -/
theorem readParameters_eq_error (h : readParameters whole cs = .error fault) :
    ∃ ts rest, (∀ t ∈ ts, t.WellNamed) ∧ cs = parameterChars ts ++ rest ∧
      (rest = [] ∧ fault = whole ∨ rest.head? ≠ some ')' ∧ FieldType.readFrom rest = .error fault) := by
  fun_induction readParameters whole cs generalizing fault with
  | case1 => exact ⟨[], [], by simp, rfl, Or.inl ⟨rfl, (Except.error.inj h).symm⟩⟩
  | case2 => exact absurd h (by simp)
  | case3 c tail hend inner hread =>
    obtain rfl := Except.error.inj h
    exact ⟨[], c :: tail, by simp, rfl, Or.inr ⟨by simpa using hend, hread⟩⟩
  | case4 c tail hend t after hread inner hrest ih =>
    obtain rfl := Except.error.inj h
    obtain ⟨hnamed, hcs⟩ := FieldType.readFrom_eq_ok_iff.1 hread
    obtain ⟨ts, rest, hall, rfl, hfault⟩ := ih hrest
    refine ⟨t :: ts, rest, List.forall_mem_cons.2 ⟨hnamed, hall⟩, ?_, hfault⟩
    rw [hcs, parameterChars_cons, List.append_assoc]
  | case5 => exact absurd h (by simp)

/-- parameters that the text ends after are not closed -/
theorem readParameters_of_unclosed (hall : ∀ t ∈ ts, t.WellNamed) :
    readParameters whole (parameterChars ts) = .error whole := by
  induction ts with
  | nil => rw [parameterChars, List.flatMap_nil, readParameters]
  | cons t ts ih =>
    obtain ⟨hnamed, hall⟩ := List.forall_mem_cons.1 hall
    rw [parameterChars_cons, readParameters_of_readFrom (FieldType.readFrom_chars hnamed _), ih hall]
    rfl

/-- **A result fails** where none is there, where it goes on, or where it cannot be read. -/
theorem readResult_eq_error (h : readResult whole cs = .error fault) :
    cs = [] ∧ fault = whole ∨
      (∃ (r : ReturnType) (c : Char) (more : List Char), r.WellNamed ∧ cs = r.chars ++ c :: more ∧ fault = whole) ∨
      FieldType.readFrom cs = .error fault := by
  unfold readResult at h
  split at h
  · exact Or.inl ⟨rfl, (Except.error.inj h).symm⟩
  · exact absurd h (by simp)
  · rename_i more hmore
    obtain ⟨c, more, rfl⟩ := List.exists_cons_of_ne_nil hmore
    exact Or.inr (Or.inl ⟨.void, c, more, trivial, rfl, (Except.error.inj h).symm⟩)
  · cases hread : FieldType.readFrom cs with
    | error inner =>
      rw [hread] at h
      obtain rfl := Except.error.inj h
      exact Or.inr (Or.inr rfl)
    | ok result =>
      obtain ⟨t, _ | ⟨c, more⟩⟩ := result
      · rw [hread] at h
        exact absurd h (by simp)
      · rw [hread] at h
        obtain ⟨hnamed, hcs⟩ := FieldType.readFrom_eq_ok_iff.1 hread
        exact Or.inr (Or.inl ⟨.value t, c, more, hnamed, hcs, (Except.error.inj h).symm⟩)

/-- a result that goes on is none -/
theorem readResult_of_surplus {r : ReturnType} (hr : r.WellNamed) (c : Char) (more : List Char) :
    readResult whole (r.chars ++ c :: more) = .error whole := by
  cases r with
  | void => rfl
  | value t =>
    have hread := FieldType.readFrom_chars hr (c :: more)
    rw [ReturnType.chars_value]
    generalize t.chars ++ c :: more = text at hread
    unfold readResult
    split
    · rfl
    · exact absurd hread (FieldType.readFrom_ne_ok (Or.inr rfl) _ _)
    · rfl
    · simp only [hread]

namespace MethodDescriptor

/-! ## Faults between the parts -/

/-- the fault lies between the parts of a method descriptor -/
inductive BlamedWhole : List Char → Prop where
  /-- no opening parenthesis -/
  | unopened {cs : List Char} (missing : cs.head? ≠ some '(') : BlamedWhole cs
  /-- the text ends among the parameters, behind a complete one -/
  | unclosed {ts : List FieldType} (complete : ∀ t ∈ ts, t.WellNamed) : BlamedWhole ('(' :: parameterChars ts)
  /-- nothing stands behind the parameters -/
  | noResult {ts : List FieldType} (complete : ∀ t ∈ ts, t.WellNamed) :
    BlamedWhole ('(' :: (parameterChars ts ++ [')']))
  /-- something stands behind the result -/
  | surplus {ts : List FieldType} {r : ReturnType} (complete : ∀ t ∈ ts, t.WellNamed) (result : r.WellNamed) (c : Char)
    (more : List Char) : BlamedWhole ('(' :: (parameterChars ts ++ ')' :: (r.chars ++ c :: more)))

/-- **A fault between the parts is reported with the whole text.** -/
theorem read_of_blamedWhole (h : BlamedWhole cs) : read cs = .error cs := by
  cases h with
  | unopened missing =>
    unfold read
    split
    · exact absurd rfl missing
    · rfl
  | unclosed complete => rw [read, readParameters_of_unclosed complete]
  | noResult complete =>
    rw [read, readParameters_eq_ok_iff.2 ⟨complete, rfl⟩]
    rfl
  | surplus complete result c more =>
    rw [read, readParameters_eq_ok_iff.2 ⟨complete, rfl⟩]
    simp only [readResult_of_surplus result]
    rfl

/-! ## Faults inside a type -/

/-- a text as complete parameters, perhaps their closing parenthesis, brackets, and what follows -/
structure FaultSplit where
  parameters : List FieldType
  closed : Bool
  brackets : Nat
  rest : List Char

namespace FaultSplit

/-- what stands behind the parameters -/
def tail (s : FaultSplit) : List Char :=
  (if s.closed then [')'] else []) ++ (List.replicate s.brackets '[' ++ s.rest)

/-- the text is split where no type can be read and no other part begins -/
structure Splits (s : FaultSplit) (cs : List Char) : Prop where
  text : cs = '(' :: (parameterChars s.parameters ++ s.tail)
  complete : ∀ t ∈ s.parameters, t.WellNamed
  noBracket : s.rest.head? ≠ some '['
  noType : ¬ BeginsWithType s.rest
  noEnd : s.closed = false → s.brackets = 0 → s.rest.head? ≠ some ')'

variable {s s' : FaultSplit}

theorem Splits.isSuffix (h : s.Splits cs) : s.rest <:+ cs := by
  refine ⟨'(' :: (parameterChars s.parameters ++
    ((if s.closed then [')'] else []) ++ List.replicate s.brackets '[')), ?_⟩
  rw [h.text, tail]
  simp only [List.cons_append, List.append_assoc]

/-- no further parameter can be read -/
theorem Splits.not_beginsWithType (h : s.Splits cs) : ¬ BeginsWithType s.tail := by
  unfold tail
  cases s.closed with
  | true => exact not_beginsWithType_end _
  | false =>
    rw [if_neg (by decide), List.nil_append, beginsWithType_brackets]
    exact h.noType

end FaultSplit

/-- complete parameters are read off a text in one way -/
theorem parameterChars_append_inj (hall : ∀ t ∈ ts, t.WellNamed) (hall' : ∀ t ∈ ts', t.WellNamed)
    (hrest : ¬ BeginsWithType rest) (hrest' : ¬ BeginsWithType rest')
    (h : parameterChars ts ++ rest = parameterChars ts' ++ rest') : ts = ts' ∧ rest = rest' := by
  induction ts generalizing ts' with
  | nil =>
    cases ts' with
    | nil => exact ⟨rfl, h⟩
    | cons t' ts' =>
      rw [parameterChars_cons, List.append_assoc] at h
      exact absurd ⟨t', _, (List.forall_mem_cons.1 hall').1, h⟩ hrest
  | cons t ts ih =>
    obtain ⟨hnamed, hmembers⟩ := List.forall_mem_cons.1 hall
    rw [parameterChars_cons, List.append_assoc] at h
    cases ts' with
    | nil => exact absurd ⟨t, _, hnamed, h.symm⟩ hrest'
    | cons t' ts' =>
      obtain ⟨hnamed', hmembers'⟩ := List.forall_mem_cons.1 hall'
      rw [parameterChars_cons, List.append_assoc] at h
      -- both begin with a type, and what is read off the front of a text is one type
      have hread := FieldType.readFrom_chars hnamed (parameterChars ts ++ rest)
      rw [h, FieldType.readFrom_chars hnamed'] at hread
      obtain ⟨rfl, hmore⟩ := Prod.mk.inj (Except.ok.inj hread)
      obtain ⟨rfl, rfl⟩ := ih hmembers hmembers' hmore.symm
      exact ⟨rfl, rfl⟩

/-- brackets in front of a text that begins with none are counted by the whole -/
theorem brackets_append_inj {m n : Nat} (hrest : rest.head? ≠ some '[') (hrest' : rest'.head? ≠ some '[')
    (h : List.replicate m '[' ++ rest = List.replicate n '[' ++ rest') : m = n ∧ rest = rest' := by
  induction m generalizing n with
  | zero =>
    cases n with
    | zero => exact ⟨rfl, h⟩
    | succ n => exact absurd (by rw [← List.nil_append rest]; exact congrArg List.head? h) hrest
  | succ m ih =>
    cases n with
    | zero => exact absurd (by rw [← List.nil_append rest']; exact congrArg List.head? h.symm) hrest'
    | succ n =>
      obtain ⟨-, h⟩ := List.cons.inj h
      obtain ⟨rfl, rfl⟩ := ih h
      exact ⟨rfl, rfl⟩

/-- an open list of parameters does not end where it is split -/
theorem FaultSplit.Splits.head?_tail {s : FaultSplit} (h : s.Splits cs) :
    s.tail.head? = some ')' ↔ s.closed = true := by
  unfold FaultSplit.tail
  cases hclosed : s.closed with
  | true => simp
  | false =>
    cases hbrackets : s.brackets with
    | zero => simpa using h.noEnd hclosed hbrackets
    | succ n => simp [List.replicate_succ]

/-- **There is one such split.** -/
theorem FaultSplit.Splits.unique {s s' : FaultSplit} (h : s.Splits cs) (h' : s'.Splits cs) : s = s' := by
  have htext := h.text.symm.trans h'.text
  obtain ⟨hparameters, htail⟩ := parameterChars_append_inj h.complete h'.complete h.not_beginsWithType
    h'.not_beginsWithType (List.cons.inj htext).2
  have hclosed : s.closed = s'.closed := by
    rw [Bool.eq_iff_iff, ← h.head?_tail, ← h'.head?_tail, htail]
  rw [FaultSplit.tail, FaultSplit.tail, hclosed] at htail
  obtain ⟨hbrackets, hrest⟩ := brackets_append_inj h.noBracket h'.noBracket (List.append_cancel_left htail)
  cases s
  cases s'
  simp only [FaultSplit.mk.injEq]
  exact ⟨hparameters, hclosed, hbrackets, hrest⟩

/-! ## Both kinds -/

theorem read_eq_error (h : read cs = .error fault) :
    BlamedWhole cs ∧ fault = cs ∨ ∃ s : FaultSplit, s.Splits cs ∧ s.rest = fault := by
  unfold read at h
  split at h
  · rename_i rest
    split at h
    · rename_i inner hparameters
      obtain rfl := Except.error.inj h
      obtain ⟨ts, tail, hall, rfl, ⟨rfl, rfl⟩ | ⟨hend, hread⟩⟩ := readParameters_eq_error hparameters
      · rw [List.append_nil]
        exact Or.inl ⟨.unclosed hall, rfl⟩
      · obtain ⟨n, rfl, hbracket, hnone⟩ := brackets_of_readFrom hread
        refine Or.inr ⟨⟨ts, false, n, inner⟩, ⟨rfl, hall, hbracket, hnone, fun _ hn => ?_⟩, rfl⟩
        subst hn
        exact hend
    · rename_i ts tail hparameters
      obtain ⟨hall, rfl⟩ := readParameters_eq_ok_iff.1 hparameters
      cases hresult : readResult ('(' :: (parameterChars ts ++ ')' :: tail)) tail with
      | ok r =>
        rw [hresult] at h
        exact absurd h (by simp [Except.map])
      | error inner =>
        rw [hresult] at h
        obtain rfl := Except.error.inj h
        rcases readResult_eq_error hresult with ⟨rfl, rfl⟩ | ⟨r, c, more, hr, rfl, rfl⟩ | hread
        · exact Or.inl ⟨.noResult hall, rfl⟩
        · exact Or.inl ⟨.surplus hall hr c more, rfl⟩
        · obtain ⟨n, rfl, hbracket, hnone⟩ := brackets_of_readFrom hread
          exact Or.inr ⟨⟨ts, true, n, inner⟩, ⟨rfl, hall, hbracket, hnone, fun hopen => absurd hopen (by simp)⟩, rfl⟩
  · rename_i hopen
    obtain rfl := Except.error.inj h
    refine Or.inl ⟨.unopened fun hhead => ?_, rfl⟩
    obtain ⟨rest, hcs⟩ := List.head?_eq_some_iff.1 hhead
    exact hopen rest hcs

/-- where a rejected method descriptor is blamed: as a whole if the fault lies between its parts, else at the end of
its only split -/
structure FaultAt (cs fault : List Char) : Prop where
  between : BlamedWhole cs → fault = cs
  inside : ¬ BlamedWhole cs → ∃ s : FaultSplit, s.Splits cs ∧ s.rest = fault ∧ ∀ s', s'.Splits cs → s' = s

theorem faultAt_of_read (h : read cs = .error fault) : FaultAt cs fault := by
  constructor
  · intro hwhole
    exact Except.error.inj (h.symm.trans (read_of_blamedWhole hwhole))
  · intro hinside
    rcases read_eq_error h with ⟨hwhole, -⟩ | ⟨s, hs, hrest⟩
    · exact absurd hwhole hinside
    · exact ⟨s, hs, hrest, fun s' hs' => hs'.unique hs⟩

theorem FaultAt.isSuffix (h : FaultAt cs fault) : fault <:+ cs := by
  by_cases hwhole : BlamedWhole cs
  · exact (h.between hwhole).symm ▸ List.suffix_refl cs
  · obtain ⟨s, hs, rfl, -⟩ := h.inside hwhole
    exact hs.isSuffix

theorem FaultAt.eq {fault' : List Char} (h : FaultAt cs fault) (h' : FaultAt cs fault') : fault = fault' := by
  by_cases hwhole : BlamedWhole cs
  · rw [h.between hwhole, h'.between hwhole]
  · obtain ⟨s, hs, rfl, -⟩ := h.inside hwhole
    obtain ⟨s', hs', rfl, -⟩ := h'.inside hwhole
    rw [hs.unique hs']

end MethodDescriptor

/-! ## Rejected texts -/

/-- the texts that are rejected are those outside a format, each with the text at which reading gave up -/
def RejectsAt {α : Type} (parse : String → Except Error α) (IsText : List Char → Prop)
    (FaultAt : List Char → List Char → Prop) : Prop :=
  ∀ (text : String) (e : Error), parse text = .error e ↔
    ¬ IsText text.toList ∧ ∃ p : String, e = .invalidDescriptor p ∧ p.toList <:+ text.toList ∧
      FaultAt text.toList p.toList

/-- a reader that blames one place of a text, which is at its end, rejects with that place -/
theorem RejectsAt.of_read {α : Type} {parse : String → Except Error α} {read : List Char → Except (List Char) α}
    {IsText : List Char → Prop} {FaultAt : List Char → List Char → Prop}
    (hparse : ∀ text, parse text = (read text.toList).mapError Error.ofDescriptorFault)
    (haccepted : ∀ cs, (∃ x, read cs = .ok x) ↔ IsText cs)
    (hfault : ∀ {cs fault}, read cs = .error fault → FaultAt cs fault)
    (hsuffix : ∀ {cs fault}, FaultAt cs fault → fault <:+ cs)
    (hunique : ∀ {cs fault fault'}, FaultAt cs fault → FaultAt cs fault' → fault = fault') :
    RejectsAt parse IsText FaultAt := by
  intro text e
  rw [hparse, ← haccepted]
  cases hread : read text.toList with
  | ok x => simp [Except.mapError]
  | error fault =>
    have hat := hfault hread
    have hnone : ¬ ∃ x, (.error fault : Except (List Char) α) = .ok x := by simp
    constructor
    · intro h
      refine ⟨hnone, String.ofList fault, (Except.error.inj h).symm, ?_, ?_⟩
      · rw [String.toList_ofList]
        exact hsuffix hat
      · rwa [String.toList_ofList]
    · rintro ⟨-, p, rfl, -, hp⟩
      have hreported : Error.ofDescriptorFault fault = .invalidDescriptor p := by
        rw [Error.ofDescriptorFault, hunique hat hp, String.ofList_toList]
      exact congrArg Except.error hreported

/-- **A rejected descriptor names exactly where reading gave up.** -/
theorem descriptor_faults_exact :
    RejectsAt FieldType.parse FieldType.IsText FieldType.FaultAt ∧
      RejectsAt MethodDescriptor.parse MethodDescriptor.IsText MethodDescriptor.FaultAt := by
  constructor
  · refine .of_read (fun _ => rfl) (fun cs => ?_) FieldType.faultAt_of_read FieldType.FaultAt.isSuffix
      FieldType.FaultAt.eq
    simp only [FieldType.read_eq_ok_iff, FieldType.isText_iff]
  · refine .of_read (fun _ => rfl) (fun cs => ?_) MethodDescriptor.faultAt_of_read MethodDescriptor.FaultAt.isSuffix
      MethodDescriptor.FaultAt.eq
    simp only [MethodDescriptor.read_eq_ok_iff, MethodDescriptor.isText_iff]

/-- reading gives up behind the brackets of the second parameter, where the closing parenthesis is no type -/
example : MethodDescriptor.read "(I[[)V".toList = .error ")V".toList := by cbv

end CallPlan
