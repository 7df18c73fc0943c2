/-
Type descriptors of the class file format, as data and as text.

A field type is a base type, an object type named by its internal name, or an array of a field type; a method
descriptor is a list of parameter types and a return type. `render` writes the text, `parse` reads it. Reading works
on the list of characters and, when it fails, keeps the text at which it gave up: the remaining text from the nested
field type that could not be read, or the whole descriptor when the fault lies between the parts.

`readFrom_length` is what makes reading a parameter list end: a field type takes at least one character.
-/
import CallPlan.Error

namespace CallPlan

/-! ## Types -/

inductive BaseType where
  | byte
  | char
  | double
  | float
  | int
  | long
  | short
  | boolean
deriving DecidableEq, Repr

inductive FieldType where
  | base (type : BaseType)
  | object (name : String)
  | array (component : FieldType)
deriving DecidableEq, Repr

inductive ReturnType where
  | void
  | value (type : FieldType)
deriving DecidableEq, Repr

structure MethodDescriptor where
  parameters : List FieldType
  result : ReturnType
deriving DecidableEq, Repr

/-- the letter that stands for a base type -/
def BaseType.letter : BaseType → Char
  | .byte => 'B'
  | .char => 'C'
  | .double => 'D'
  | .float => 'F'
  | .int => 'I'
  | .long => 'J'
  | .short => 'S'
  | .boolean => 'Z'

/-- the base type that a letter stands for -/
def BaseType.ofLetter? : Char → Option BaseType
  | 'B' => some .byte
  | 'C' => some .char
  | 'D' => some .double
  | 'F' => some .float
  | 'I' => some .int
  | 'J' => some .long
  | 'S' => some .short
  | 'Z' => some .boolean
  | _ => none

/-- letters and base types determine each other -/
theorem BaseType.ofLetter?_eq_some_iff {c : Char} {b : BaseType} : ofLetter? c = some b ↔ c = b.letter := by
  constructor
  · intro h
    unfold ofLetter? at h
    split at h <;> simp_all [letter] <;> subst h <;> rfl
  · rintro rfl
    cases b <;> rfl

namespace FieldType

/-- slots that a value of this type takes on the operand stack and among the local variables -/
def slots : FieldType → Nat
  | .base .long | .base .double => 2
  | _ => 1

def isReference : FieldType → Bool
  | .base _ => false
  | _ => true

/-- the internal name of an object type; base types and arrays have none -/
def internalName? : FieldType → Option String
  | .object name => some name
  | _ => none

/-- the number of array brackets in front of the element type -/
def dimensions : FieldType → Nat
  | .array component => component.dimensions + 1
  | _ => 0

/-- what is left of a type once its array brackets are taken away -/
def element : FieldType → FieldType
  | .array component => component.element
  | other => other

/-- the type with `n` more array brackets -/
def nested (n : Nat) (t : FieldType) : FieldType := n.repeat .array t

def render : FieldType → String
  | .base b => String.singleton b.letter
  | .object name => "L" ++ name ++ ";"
  | .array component => "[" ++ component.render

end FieldType

namespace ReturnType

def slots : ReturnType → Nat
  | .void => 0
  | .value t => t.slots

def render : ReturnType → String
  | .void => "V"
  | .value t => t.render

end ReturnType

namespace MethodDescriptor

/-- the part of the text that overload resolution looks at: the parameters in their parentheses -/
def renderParameters (d : MethodDescriptor) : String :=
  "(" ++ String.join (d.parameters.map FieldType.render) ++ ")"

def render (d : MethodDescriptor) : String := d.renderParameters ++ d.result.render

/-- slots that the arguments take, the receiver not counted. The sum is exact; that a 16-bit count overflows beyond
65535 slots is not modelled -/
def parameterSlots (d : MethodDescriptor) : Nat := d.parameters.foldr (fun t n => t.slots + n) 0

end MethodDescriptor

/-! ## Reading -/

/-- reads one field type off the front of a text; on failure, the text at which it gave up -/
def FieldType.readFrom : List Char → Except (List Char) (FieldType × List Char)
  | [] => .error []
  | '[' :: rest =>
    match readFrom rest with
    | .ok (component, after) => .ok (.array component, after)
    | .error fault => .error fault
  | 'L' :: rest =>
    match rest.takeWhile (· != ';'), rest.dropWhile (· != ';') with
    | c :: name, _ :: after => .ok (.object (String.ofList (c :: name)), after)
    | _, _ => .error ('L' :: rest)
  | c :: rest =>
    match BaseType.ofLetter? c with
    | some b => .ok (.base b, rest)
    | none => .error (c :: rest)

/-- a field type takes at least one character -/
theorem FieldType.readFrom_length {cs after : List Char} {t : FieldType} (h : readFrom cs = .ok (t, after)) :
    after.length < cs.length := by
  fun_induction readFrom cs generalizing t with
  | case1 => simp at h
  | case2 rest component tail hr ih =>
    simp only [Except.ok.injEq, Prod.mk.injEq] at h
    obtain ⟨-, rfl⟩ := h
    have := ih hr
    simp only [List.length_cons]
    omega
  | case3 => simp at h
  | case4 rest c name x tail hd =>
    simp only [Except.ok.injEq, Prod.mk.injEq] at h
    obtain ⟨-, rfl⟩ := h
    have : (rest.dropWhile (· != ';')).length ≤ rest.length := (List.dropWhile_suffix _).length_le
    simp only [hd, List.length_cons] at this ⊢
    omega
  | case5 => simp at h
  | case6 =>
    simp only [Except.ok.injEq, Prod.mk.injEq] at h
    obtain ⟨-, rfl⟩ := h
    simp
  | case7 => simp at h

/-- reads parameter types up to and including the closing parenthesis; `whole` is blamed when the text just ends -/
def readParameters (whole cs : List Char) : Except (List Char) (List FieldType × List Char) :=
  match cs with
  | [] => .error whole
  | ')' :: rest => .ok ([], rest)
  | c :: rest =>
    match _h : FieldType.readFrom (c :: rest) with
    | .error fault => .error fault
    | .ok (t, after) =>
      match readParameters whole after with
      | .error fault => .error fault
      | .ok (ts, tail) => .ok (t :: ts, tail)
termination_by cs.length
decreasing_by exact FieldType.readFrom_length ‹_›

/-- reads what stands after the parameters, which has to be the whole rest; `whole` is blamed when it is not -/
def readResult (whole : List Char) : List Char → Except (List Char) ReturnType
  | [] => .error whole
  | ['V'] => .ok .void
  | 'V' :: _ => .error whole
  | cs =>
    match FieldType.readFrom cs with
    | .ok (t, []) => .ok (.value t)
    | .ok _ => .error whole
    | .error fault => .error fault

/-- reads a whole text as one field type -/
def FieldType.read (cs : List Char) : Except (List Char) FieldType :=
  match readFrom cs with
  | .ok (t, []) => .ok t
  | .ok _ => .error cs
  | .error fault => .error fault

/-- reads a whole text as a method descriptor -/
def MethodDescriptor.read : List Char → Except (List Char) MethodDescriptor
  | '(' :: rest =>
    match readParameters ('(' :: rest) rest with
    | .error fault => .error fault
    | .ok (parameters, tail) => (readResult ('(' :: rest) tail).map fun result => ⟨parameters, result⟩
  | cs => .error cs

/-- the error that reports the text at which reading gave up -/
def Error.ofDescriptorFault (fault : List Char) : Error := .invalidDescriptor (String.ofList fault)

def FieldType.parse (text : String) : Except Error FieldType :=
  (read text.toList).mapError Error.ofDescriptorFault

def MethodDescriptor.parse (text : String) : Except Error MethodDescriptor :=
  (read text.toList).mapError Error.ofDescriptorFault

end CallPlan
