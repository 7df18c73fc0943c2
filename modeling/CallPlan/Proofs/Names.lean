/-
Internal names that grow at their end.

A valid name stays valid whatever is put behind it, as long as that holds no slash and no delimiter: then no slash
comes to stand at an end or next to another one. Decimal numbers are such text, so names can be numbered.

- `isValid_append`: plain text behind a valid name gives a valid name;
- `isValid_numbered`, `numbered_inj`: numbered names are valid, and differ when their numbers do.
-/
import CallPlan.InternalName

namespace CallPlan.InternalName

/-! ## Appending -/

/-- a character that may stand anywhere in an internal name -/
def isPlain (c : Char) : Bool := c != '/' && !isDelimiter c

theorem isPlain_iff {c : Char} : isPlain c = true ↔ c ≠ '/' ∧ isDelimiter c = false := by simp [isPlain]

theorem hasEmptySegment_cons (c : Char) (cs : List Char) :
    hasEmptySegment (c :: cs) = (c == '/' && cs.head? == some '/' || hasEmptySegment cs) := by
  rw [hasEmptySegment.eq_def]
  split
  · rename_i heq
    obtain ⟨rfl, rfl⟩ := List.cons.inj heq
    rfl
  · rename_i x xs hne heq
    obtain ⟨rfl, rfl⟩ := List.cons.inj heq
    have hfirst : (c == '/' && cs.head? == some '/') = false := by
      rw [Bool.eq_false_iff, ne_eq, Bool.and_eq_true, beq_iff_eq, beq_iff_eq, List.head?_eq_some_iff]
      rintro ⟨rfl, ds, rfl⟩
      exact hne ds rfl rfl
    rw [hfirst, Bool.false_or]
  · rename_i heq
    exact absurd heq (by simp)

theorem hasEmptySegment_append {cs ds : List Char} (h : '/' ∉ ds) :
    hasEmptySegment (cs ++ ds) = hasEmptySegment cs := by
  induction cs with
  | nil =>
    induction ds with
    | nil => rfl
    | cons d ds ih =>
      have hd : d ≠ '/' := (List.ne_of_not_mem_cons h).symm
      rw [List.nil_append, hasEmptySegment_cons, beq_false_of_ne hd, Bool.false_and, Bool.false_or]
      exact ih (List.not_mem_of_not_mem_cons h)
  | cons c cs ih =>
    rw [List.cons_append, hasEmptySegment_cons, hasEmptySegment_cons, ih, List.head?_append]
    cases cs with
    | nil =>
      have hhead : ds.head? ≠ some '/' := fun heq => h (List.mem_of_head? heq)
      simp [hhead]
    | cons x xs => rfl

theorem isValid_iff {name : String} : isValid name = true ↔ name.toList ≠ [] ∧ name.toList.head? ≠ some '/' ∧
    name.toList.getLast? ≠ some '/' ∧ hasEmptySegment name.toList = false ∧
    ∀ c ∈ name.toList, isDelimiter c = false := by
  simp [isValid, and_assoc]

/-- **A valid name stays valid** when plain text is put behind it. -/
theorem isValid_append {name text : String} (h : isValid name = true) (htext : ∀ c ∈ text.toList, isPlain c = true) :
    isValid (name ++ text) = true := by
  obtain ⟨hne, hhead, hlast, hsegments, hdelimiters⟩ := isValid_iff.1 h
  have hslash : '/' ∉ text.toList := fun hmem => absurd (htext _ hmem) (by decide)
  rw [isValid_iff, String.toList_append]
  refine ⟨by simp [hne], ?_, ?_, by rw [hasEmptySegment_append hslash, hsegments], ?_⟩
  · obtain ⟨c, cs, hname⟩ := List.exists_cons_of_ne_nil hne
    rw [hname] at hhead ⊢
    exact hhead
  · rw [List.getLast?_append]
    cases htail : text.toList.getLast? with
    | none => exact hlast
    | some c =>
      have hc : isPlain c = true := htext c (List.mem_of_getLast? htail)
      simpa using (isPlain_iff.1 hc).1
  · intro c hc
    rcases List.mem_append.1 hc with hc | hc
    · exact hdelimiters c hc
    · exact (isPlain_iff.1 (htext c hc)).2

/-! ## Numbering -/

theorem toList_toString (n : Nat) : (toString n).toList = Nat.toDigits 10 n := Nat.toList_repr

theorem isPlain_of_isDigit {c : Char} (h : c.isDigit = true) : isPlain c = true := by
  have hne : ∀ d : Char, d.isDigit = false → c ≠ d := fun d hd heq => absurd (heq ▸ h) (by simp [hd])
  simp [isPlain, isDelimiter, hne _ (show '/'.isDigit = false by decide), hne _ (show '.'.isDigit = false by decide),
    hne _ (show ';'.isDigit = false by decide), hne _ (show '['.isDigit = false by decide)]

/-- a number in decimal digits -/
theorem isDigit_of_mem_toString {n : Nat} {c : Char} (h : c ∈ (toString n).toList) : c.isDigit = true :=
  Nat.isDigit_of_mem_toDigits (by decide) (by decide) (toList_toString n ▸ h)

/-- **Numbered names are valid.** -/
theorem isValid_numbered {name : String} (h : isValid name = true) (n : Nat) : isValid (name ++ toString n) = true :=
  isValid_append h fun _ hc => isPlain_of_isDigit (isDigit_of_mem_toString hc)

/-- numbers are told apart by their digits -/
theorem eq_of_toString_eq {m n : Nat} (h : toString m = toString n) : m = n := by
  have hdigits : Nat.toDigits 10 m = Nat.toDigits 10 n := by rw [← toList_toString, ← toList_toString, h]
  calc m = Nat.ofDigitChars 10 (Nat.toDigits 10 m) 0 := Nat.ofDigitChars_ten_toDigits.symm
    _ = n := by rw [hdigits, Nat.ofDigitChars_ten_toDigits]

/-- **Numbered names differ** when their numbers do. -/
theorem numbered_inj {name : String} {m n : Nat} (h : name ++ toString m = name ++ toString n) : m = n :=
  eq_of_toString_eq ((String.append_right_inj _).1 h)

end CallPlan.InternalName
