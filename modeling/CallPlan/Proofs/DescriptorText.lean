/-
Reading and writing descriptors are inverse to each other.

`FieldType.IsText` and `MethodDescriptor.IsText` spell out the format. A type is well named when no object name in it
is empty or holds the semicolon that ends it; these are the types whose written form is a text of the format. Every
reader of a part takes exactly the written form of a well named part off the front of a text, and leaves the rest:
`readFrom_eq_ok_iff`, `readParameters_eq_ok_iff` and `readResult_eq_ok_iff` say so one part at a time, and the two
descriptors follow (`FieldType.parse_eq_ok_iff`, `MethodDescriptor.parse_eq_ok_iff`).

- `descriptor_text_inverse`: what is accepted is the format, what was read is written as it was, and what was written
  is read back.
-/
import CallPlan.Descriptor
import Mathlib.Data.List.TakeWhile

namespace CallPlan

/-- the first character that stops a scan, and the text on both sides of it -/
theorem split_at_iff {stop : Char} {cs name after : List Char} :
    cs.takeWhile (· != stop) = name ∧ cs.dropWhile (· != stop) = stop :: after ↔
      cs = name ++ stop :: after ∧ stop ∉ name := by
  constructor
  · rintro ⟨htake, hdrop⟩
    refine ⟨by rw [← htake, ← hdrop, List.takeWhile_append_dropWhile], fun hmem => ?_⟩
    rw [← htake] at hmem
    exact absurd (List.mem_takeWhile_imp hmem) (by simp)
  · rintro ⟨rfl, hfree⟩
    have hpass : ∀ c ∈ name, (c != stop) = true := by
      intro c hc
      simpa using fun heq : c = stop => hfree (heq ▸ hc)
    rw [List.takeWhile_append_of_pos hpass, List.dropWhile_append_of_pos hpass]
    simp

/-- what ends a scan is the character that stops it -/
theorem eq_of_dropWhile {stop x : Char} {cs after : List Char} (h : cs.dropWhile (· != stop) = x :: after) :
    x = stop := by
  have hhead := List.head?_dropWhile_not (· != stop) cs
  rw [h] at hhead
  simpa using hhead

namespace FieldType

/-! ## Field types -/

/-- the texts of field types -/
inductive IsText : List Char → Prop
  | base {c : Char} (letter : c ∈ ['B', 'C', 'D', 'F', 'I', 'J', 'S', 'Z']) : IsText [c]
  | object {name : List Char} (filled : name ≠ []) (free : ';' ∉ name) : IsText ('L' :: (name ++ [';']))
  | array {cs : List Char} (component : IsText cs) : IsText ('[' :: cs)

/-- no object name in the type is empty or holds a semicolon -/
def WellNamed : FieldType → Prop
  | .base _ => True
  | .object name => name ≠ "" ∧ ';' ∉ name.toList
  | .array component => component.WellNamed

/-- the written form as a list of characters -/
def chars (t : FieldType) : List Char := t.render.toList

@[simp] theorem chars_base (b : BaseType) : (base b).chars = [b.letter] := String.toList_singleton _

@[simp] theorem chars_object (name : String) : (object name).chars = 'L' :: (name.toList ++ [';']) := by
  simp [chars, render]

@[simp] theorem chars_array (component : FieldType) : (array component).chars = '[' :: component.chars := by
  simp [chars, render]

theorem mem_letters_iff {c : Char} :
    c ∈ ['B', 'C', 'D', 'F', 'I', 'J', 'S', 'Z'] ↔ ∃ b : BaseType, c = b.letter := by
  constructor
  · intro h
    have hletters : ∀ c ∈ ['B', 'C', 'D', 'F', 'I', 'J', 'S', 'Z'], (BaseType.ofLetter? c).isSome = true := by
      simp [BaseType.ofLetter?]
    obtain ⟨b, hb⟩ := Option.isSome_iff_exists.1 (hletters c h)
    exact ⟨b, BaseType.ofLetter?_eq_some_iff.1 hb⟩
  · rintro ⟨b, rfl⟩
    cases b <;> simp [BaseType.letter]

/-- **The format is what well named types are written as.** -/
theorem isText_iff {cs : List Char} : IsText cs ↔ ∃ t : FieldType, t.WellNamed ∧ cs = t.chars := by
  constructor
  · intro h
    induction h with
    | base letter =>
      obtain ⟨b, rfl⟩ := mem_letters_iff.1 letter
      exact ⟨.base b, trivial, (chars_base b).symm⟩
    | @object name filled free =>
      refine ⟨.object (String.ofList name), ⟨?_, ?_⟩, ?_⟩
      · simpa using filled
      · simpa using free
      · simp
    | array _ ih =>
      obtain ⟨t, ht, rfl⟩ := ih
      exact ⟨.array t, ht, (chars_array t).symm⟩
  · rintro ⟨t, ht, rfl⟩
    induction t with
    | base b =>
      rw [chars_base]
      exact .base (mem_letters_iff.2 ⟨b, rfl⟩)
    | object name =>
      rw [chars_object]
      exact .object (by simpa using ht.1) ht.2
    | array component ih =>
      rw [chars_array]
      exact .array (ih ht)

/-! ### Reading a field type -/

/-- a well named type is read off the front of its written form, whatever follows -/
theorem readFrom_chars {t : FieldType} (h : t.WellNamed) (rest : List Char) :
    readFrom (t.chars ++ rest) = .ok (t, rest) := by
  induction t with
  | base b => cases b <;> rfl
  | object name =>
    obtain ⟨c, cs, hname⟩ := List.exists_cons_of_ne_nil (show name.toList ≠ [] by simpa using h.1)
    have hsplit : name.toList ++ ';' :: rest = name.toList ++ ';' :: rest ∧ ';' ∉ name.toList := ⟨rfl, h.2⟩
    obtain ⟨htake, hdrop⟩ := split_at_iff.2 hsplit
    rw [chars_object, List.cons_append, List.append_assoc, List.singleton_append, readFrom, htake, hdrop, hname]
    simp [← hname]
  | array component ih =>
    rw [chars_array, List.cons_append, readFrom, ih h]

/-- what is read off the front is a well named type as it is written -/
theorem eq_chars_of_readFrom {cs rest : List Char} {t : FieldType} (h : readFrom cs = .ok (t, rest)) :
    t.WellNamed ∧ cs = t.chars ++ rest := by
  fun_induction readFrom cs generalizing t with
  | case1 => exact absurd h (by simp)
  | case2 tail component after hr ih =>
    obtain ⟨rfl, rfl⟩ := Prod.mk.inj (Except.ok.inj h)
    obtain ⟨hnamed, htail⟩ := ih hr
    exact ⟨hnamed, by rw [htail, chars_array]; rfl⟩
  | case3 => exact absurd h (by simp)
  | case4 tail c name x after hdrop htake =>
    -- the scan stops at the first semicolon, so the name in front of it holds none
    obtain ⟨rfl, rfl⟩ := Prod.mk.inj (Except.ok.inj h)
    obtain rfl := eq_of_dropWhile hdrop
    obtain ⟨htail, hfree⟩ := split_at_iff.1 ⟨htake, hdrop⟩
    refine ⟨⟨by simp, by simpa using hfree⟩, ?_⟩
    rw [htail, chars_object, String.toList_ofList]
    simp
  | case5 => exact absurd h (by simp)
  | case6 c tail _ _ b hb =>
    obtain ⟨rfl, rfl⟩ := Prod.mk.inj (Except.ok.inj h)
    exact ⟨trivial, by rw [chars_base, BaseType.ofLetter?_eq_some_iff.1 hb]; rfl⟩
  | case7 => exact absurd h (by simp)

/-- **A field type is read off the front of a text** iff its written form stands there. -/
theorem readFrom_eq_ok_iff {cs rest : List Char} {t : FieldType} :
    readFrom cs = .ok (t, rest) ↔ t.WellNamed ∧ cs = t.chars ++ rest := by
  constructor
  · exact eq_chars_of_readFrom
  · rintro ⟨hnamed, rfl⟩
    exact readFrom_chars hnamed rest

theorem read_eq_ok_iff {cs : List Char} {t : FieldType} : read cs = .ok t ↔ t.WellNamed ∧ cs = t.chars := by
  have hread : read cs = .ok t ↔ readFrom cs = .ok (t, []) := by
    unfold read
    split <;> simp_all
  rw [hread, readFrom_eq_ok_iff, List.append_nil]

end FieldType

/-! ## Parameters and results -/

/-- the texts of parameter lists, without their parentheses -/
def parameterChars (ts : List FieldType) : List Char := ts.flatMap FieldType.chars

theorem parameterChars_cons (t : FieldType) (ts : List FieldType) :
    parameterChars (t :: ts) = t.chars ++ parameterChars ts := List.flatMap_cons

/-- no field type begins with a closing parenthesis or with the letter of the empty result -/
theorem FieldType.readFrom_ne_ok {c : Char} (hc : c = ')' ∨ c = 'V') (rest : List Char) (read : FieldType × List Char) :
    FieldType.readFrom (c :: rest) ≠ .ok read := by
  rcases hc with rfl | rfl
  · simp [FieldType.readFrom, BaseType.ofLetter?]
  · simp [FieldType.readFrom, BaseType.ofLetter?]

/-- a parameter that stands in front is read first -/
theorem readParameters_of_readFrom {whole cs after : List Char} {t : FieldType}
    (h : FieldType.readFrom cs = .ok (t, after)) :
    readParameters whole cs = (readParameters whole after).map fun (ts, tail) => (t :: ts, tail) := by
  cases cs with
  | nil => exact absurd h (by simp [FieldType.readFrom])
  | cons c rest =>
    have hc : c ≠ ')' := fun heq => FieldType.readFrom_ne_ok (Or.inl heq) rest _ h
    rw [readParameters]
    · split
      · rename_i fault hfault
        exact absurd (h.symm.trans hfault) (by simp)
      · rename_i t' after' hread
        obtain ⟨rfl, rfl⟩ := Prod.mk.inj (Except.ok.inj (h.symm.trans hread))
        cases readParameters whole after <;> rfl
    · exact hc

/-- **A parameter list is read up to its closing parenthesis.** -/
theorem readParameters_eq_ok_iff {whole cs rest : List Char} {ts : List FieldType} :
    readParameters whole cs = .ok (ts, rest) ↔
      (∀ t ∈ ts, t.WellNamed) ∧ cs = parameterChars ts ++ ')' :: rest := by
  constructor
  · intro h
    fun_induction readParameters whole cs generalizing ts with
    | case1 => exact absurd h (by simp)
    | case2 tail =>
      obtain ⟨rfl, rfl⟩ := Prod.mk.inj (Except.ok.inj h)
      exact ⟨by simp, rfl⟩
    | case3 => exact absurd h (by simp)
    | case4 => exact absurd h (by simp)
    | case5 c tail _ t after hread ts' tail' hrest ih =>
      obtain ⟨rfl, rfl⟩ := Prod.mk.inj (Except.ok.inj h)
      obtain ⟨hnamed, hcs⟩ := FieldType.readFrom_eq_ok_iff.1 hread
      obtain ⟨hall, hafter⟩ := ih hrest
      refine ⟨List.forall_mem_cons.2 ⟨hnamed, hall⟩, ?_⟩
      rw [hcs, hafter, parameterChars_cons, List.append_assoc]
  · -- a parameter never begins like the end of the list, so the loop takes them one by one
    rintro ⟨hall, rfl⟩
    induction ts with
    | nil => rw [parameterChars, List.flatMap_nil, List.nil_append, readParameters]
    | cons t ts ih =>
      obtain ⟨hnamed, hall⟩ := List.forall_mem_cons.1 hall
      rw [parameterChars_cons, List.append_assoc, readParameters_of_readFrom (FieldType.readFrom_chars hnamed _),
        ih hall]
      rfl

namespace ReturnType

def WellNamed : ReturnType → Prop
  | .void => True
  | .value t => t.WellNamed

/-- the written form as a list of characters -/
def chars (r : ReturnType) : List Char := r.render.toList

@[simp] theorem chars_value (t : FieldType) : (value t).chars = t.chars := rfl

end ReturnType

theorem readResult_of_readFrom {whole cs : List Char} {t : FieldType} (h : FieldType.readFrom cs = .ok (t, [])) :
    readResult whole cs = .ok (.value t) := by
  cases cs with
  | nil => exact absurd h (by simp [FieldType.readFrom])
  | cons c rest =>
    have hc : c ≠ 'V' := fun heq => FieldType.readFrom_ne_ok (Or.inr heq) rest _ h
    unfold readResult
    split <;> simp_all

/-- **A result is read iff it is all that is left.** -/
theorem readResult_eq_ok_iff {whole cs : List Char} {r : ReturnType} :
    readResult whole cs = .ok r ↔ r.WellNamed ∧ cs = r.chars := by
  constructor
  · intro h
    unfold readResult at h
    split at h
    · exact absurd h (by simp)
    · obtain rfl := Except.ok.inj h
      exact ⟨trivial, rfl⟩
    · exact absurd h (by simp)
    · split at h
      · rename_i t hread
        obtain rfl := Except.ok.inj h
        have hwhole := FieldType.readFrom_eq_ok_iff.1 hread
        rw [List.append_nil] at hwhole
        exact hwhole
      · exact absurd h (by simp)
      · exact absurd h (by simp)
  · rintro ⟨hnamed, rfl⟩
    cases r with
    | void => rfl
    | value t =>
      refine readResult_of_readFrom (FieldType.readFrom_eq_ok_iff.2 ⟨hnamed, ?_⟩)
      rw [ReturnType.chars_value, List.append_nil]

/-! ## Method descriptors -/

/-- the texts of results -/
def ReturnType.IsText (cs : List Char) : Prop := cs = ['V'] ∨ FieldType.IsText cs

theorem ReturnType.isText_iff {cs : List Char} : IsText cs ↔ ∃ r : ReturnType, r.WellNamed ∧ cs = r.chars := by
  constructor
  · rintro (rfl | htext)
    · exact ⟨.void, trivial, rfl⟩
    · obtain ⟨t, hnamed, rfl⟩ := FieldType.isText_iff.1 htext
      exact ⟨.value t, hnamed, rfl⟩
  · rintro ⟨r, hnamed, rfl⟩
    cases r with
    | void => exact Or.inl rfl
    | value t => exact Or.inr (FieldType.isText_iff.2 ⟨t, hnamed, rfl⟩)

/-- texts of field types one after another are a parameter list -/
theorem exists_parameters {texts : List (List Char)} (h : ∀ cs ∈ texts, FieldType.IsText cs) :
    ∃ ts : List FieldType, (∀ t ∈ ts, t.WellNamed) ∧ texts.flatten = parameterChars ts := by
  induction texts with
  | nil => exact ⟨[], by simp, rfl⟩
  | cons cs texts ih =>
    obtain ⟨hcs, htexts⟩ := List.forall_mem_cons.1 h
    obtain ⟨t, hnamed, rfl⟩ := FieldType.isText_iff.1 hcs
    obtain ⟨ts, hall, hflat⟩ := ih htexts
    refine ⟨t :: ts, List.forall_mem_cons.2 ⟨hnamed, hall⟩, ?_⟩
    rw [List.flatten_cons, hflat, parameterChars_cons]

namespace MethodDescriptor

/-- the texts of method descriptors -/
def IsText (cs : List Char) : Prop :=
  ∃ (parameters : List (List Char)) (result : List Char),
    (∀ text ∈ parameters, FieldType.IsText text) ∧ ReturnType.IsText result ∧
      cs = '(' :: (parameters.flatten ++ ')' :: result)

/-- no object name in the descriptor is empty or holds a semicolon -/
structure WellNamed (d : MethodDescriptor) : Prop where
  parameters : ∀ t ∈ d.parameters, t.WellNamed
  result : d.result.WellNamed

theorem toList_renderParameters (d : MethodDescriptor) :
    d.renderParameters.toList = '(' :: (parameterChars d.parameters ++ [')']) := by
  have hjoin : (String.join (d.parameters.map FieldType.render)).toList = parameterChars d.parameters := by
    rw [String.toList_join, List.flatMap_map]
    rfl
  rw [renderParameters, String.toList_append, String.toList_append, hjoin]
  rfl

theorem toList_render (d : MethodDescriptor) :
    d.render.toList = '(' :: (parameterChars d.parameters ++ ')' :: d.result.chars) := by
  rw [render, String.toList_append, toList_renderParameters]
  simp [ReturnType.chars]

/-- **The format is what well named descriptors are written as.** -/
theorem isText_iff {cs : List Char} : IsText cs ↔ ∃ d : MethodDescriptor, d.WellNamed ∧ cs = d.render.toList := by
  constructor
  · rintro ⟨texts, result, htexts, hresult, rfl⟩
    obtain ⟨ts, hall, hflat⟩ := exists_parameters htexts
    obtain ⟨r, hnamed, rfl⟩ := ReturnType.isText_iff.1 hresult
    exact ⟨⟨ts, r⟩, ⟨hall, hnamed⟩, by rw [toList_render, hflat]⟩
  · rintro ⟨d, hnamed, rfl⟩
    refine ⟨d.parameters.map FieldType.chars, d.result.chars, ?_, ?_, ?_⟩
    · rintro cs hcs
      obtain ⟨t, ht, rfl⟩ := List.mem_map.1 hcs
      exact FieldType.isText_iff.2 ⟨t, hnamed.parameters t ht, rfl⟩
    · exact ReturnType.isText_iff.2 ⟨d.result, hnamed.result, rfl⟩
    · rw [toList_render, ← List.flatMap_def, parameterChars]

/-- **A method descriptor is read iff the text is its written form.** -/
theorem read_eq_ok_iff {cs : List Char} {d : MethodDescriptor} :
    read cs = .ok d ↔ d.WellNamed ∧ cs = d.render.toList := by
  rw [toList_render]
  constructor
  · intro h
    unfold read at h
    split at h
    · rename_i rest
      split at h
      · exact absurd h (by simp)
      · rename_i ts tail hparameters
        cases hresult : readResult ('(' :: rest) tail with
        | error fault => exact absurd (hresult ▸ h) (by simp [Except.map])
        | ok r =>
          rw [hresult] at h
          obtain rfl := Except.ok.inj h
          obtain ⟨hall, rfl⟩ := readParameters_eq_ok_iff.1 hparameters
          obtain ⟨hnamed, rfl⟩ := readResult_eq_ok_iff.1 hresult
          exact ⟨⟨hall, hnamed⟩, rfl⟩
    · exact absurd h (by simp)
  · rintro ⟨hnamed, rfl⟩
    have hparameters : ∀ whole, readParameters whole (parameterChars d.parameters ++ ')' :: d.result.chars) =
        .ok (d.parameters, d.result.chars) := fun _ => readParameters_eq_ok_iff.2 ⟨hnamed.parameters, rfl⟩
    have hresult : ∀ whole, readResult whole d.result.chars = .ok d.result :=
      fun _ => readResult_eq_ok_iff.2 ⟨hnamed.result, rfl⟩
    rw [read, hparameters]
    simp only [hresult]
    rfl

end MethodDescriptor

/-! ## Both directions -/

theorem mapError_eq_ok_iff {α ε ε' : Type} {f : ε → ε'} {e : Except ε α} {x : α} :
    e.mapError f = .ok x ↔ e = .ok x := by
  cases e <;> simp [Except.mapError]

theorem FieldType.parse_eq_ok_iff {text : String} {t : FieldType} :
    parse text = .ok t ↔ t.WellNamed ∧ text = t.render := by
  rw [parse, mapError_eq_ok_iff, read_eq_ok_iff, chars, String.toList_inj]

theorem MethodDescriptor.parse_eq_ok_iff {text : String} {d : MethodDescriptor} :
    parse text = .ok d ↔ d.WellNamed ∧ text = d.render := by
  rw [parse, mapError_eq_ok_iff, read_eq_ok_iff, String.toList_inj]

/-- a reader and a writer are inverse to each other on a format -/
structure TextInverse {α : Type} (parse : String → Except Error α) (render : α → String) (IsText : List Char → Prop)
    (WellNamed : α → Prop) : Prop where
  /-- the texts that are read are the texts of the format -/
  accepted : ∀ text, (∃ x, parse text = .ok x) ↔ IsText text.toList
  /-- what was read is written as it was -/
  written : ∀ text x, parse text = .ok x → render x = text
  /-- what was written is read as it was -/
  read_back : ∀ x, WellNamed x → parse (render x) = .ok x

/-- a reader that takes exactly the written forms is inverse to the writer -/
theorem TextInverse.of_iff {α : Type} {parse : String → Except Error α} {render : α → String}
    {IsText : List Char → Prop} {WellNamed : α → Prop}
    (hparse : ∀ text x, parse text = .ok x ↔ WellNamed x ∧ text = render x)
    (htext : ∀ cs, IsText cs ↔ ∃ x, WellNamed x ∧ cs = (render x).toList) :
    TextInverse parse render IsText WellNamed where
  accepted text := by
    rw [htext]
    simp only [hparse, String.toList_inj]
  written text x h := ((hparse text x).1 h).2.symm
  read_back x h := (hparse (render x) x).2 ⟨h, rfl⟩

/-- **Reading and writing descriptors are inverse to each other on the whole format.** -/
theorem descriptor_text_inverse :
    TextInverse FieldType.parse FieldType.render FieldType.IsText FieldType.WellNamed ∧
      TextInverse MethodDescriptor.parse MethodDescriptor.render MethodDescriptor.IsText MethodDescriptor.WellNamed :=
  ⟨.of_iff (fun _ _ => FieldType.parse_eq_ok_iff) (fun _ => FieldType.isText_iff),
    .of_iff (fun _ _ => MethodDescriptor.parse_eq_ok_iff) (fun _ => MethodDescriptor.isText_iff)⟩

/-- parentheses, brackets and the letter of the empty result may stand in a name -/
example : (MethodDescriptor.parse "(La(V)[b;[[J)V").toOption =
    some ⟨[.object "a(V)[b", .array (.array (.base .long))], .void⟩ := by
  cbv

end CallPlan
