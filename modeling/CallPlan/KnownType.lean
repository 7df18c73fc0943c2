/-
Types as a pool describes them: their super types, the methods they answer to, and what they can call.

A known type is a declaration together with the pool that finds it under its own name. Super types are listed by two
walks over the declarations of the pool that have not been taken yet, which a walk can only make fewer: up the super
classes, then breadth first through the interfaces of the type and of all its super classes. A name met again, and a
name the pool does not declare, ends the first walk and is skipped by the second.

`reachableMethods` lists the declared methods and then, per signature token, the first inheritable method of these
super types.
-/
import CallPlan.Subtyping
import CallPlan.Table

namespace CallPlan

structure KnownType where
  pool : Pool
  decl : TypeDecl
  known : pool.find? decl.name = some decl

namespace Pool

/-- the type of that name, if the pool declares one -/
def type? (p : Pool) (name : String) : Option KnownType :=
  (p.find? name).pmap (fun d h => ⟨p, d, find?_self h⟩) fun _ h => h

/-- the type of that name, or the error that it is unknown -/
def type (p : Pool) (name : String) : Except Error KnownType :=
  match p.type? name with
  | some t => .ok t
  | none => .error (.unknownType name)

/-- the type of a name has the declaration found under it -/
theorem type?_eq_some_iff {p : Pool} {name : String} {t : KnownType} :
    p.type? name = some t ↔ t.pool = p ∧ p.find? name = some t.decl := by
  obtain ⟨q, d, hd⟩ := t
  simp only [type?, Option.pmap_eq_some_iff, KnownType.mk.injEq]
  constructor
  · rintro ⟨d', _, h, rfl, rfl⟩
    exact ⟨rfl, h⟩
  · rintro ⟨rfl, h⟩
    exact ⟨d, h, h, rfl, rfl⟩

theorem type_eq_ok_iff {p : Pool} {name : String} {t : KnownType} : p.type name = .ok t ↔ p.type? name = some t := by
  unfold type
  split
  · rename_i found hfound
    rw [hfound, Except.ok.injEq, Option.some.injEq]
  · rename_i hnone
    simp [hnone]

end Pool

namespace KnownType

/-! ## Names and direct super types -/

def name (t : KnownType) : String := t.decl.name

/-- known types are told apart by their names alone -/
instance : BEq KnownType := ⟨fun a b => a.name == b.name⟩

theorem beq_iff_name_eq {a b : KnownType} : (a == b) = true ↔ a.name = b.name := beq_iff_eq (a := a.name)

instance : EquivBEq KnownType where
  symm h := beq_iff_name_eq.2 (beq_iff_name_eq.1 h).symm
  trans h k := beq_iff_name_eq.2 ((beq_iff_name_eq.1 h).trans (beq_iff_name_eq.1 k))
  rfl := beq_iff_name_eq.2 rfl

def isInterface (t : KnownType) : Bool := t.decl.isInterface

def asFieldType (t : KnownType) : FieldType := .object t.name

/-- the super class, if the pool knows it -/
def superClass? (t : KnownType) : Option KnownType := t.decl.superName.bind t.pool.type?

/-- the interfaces that the pool knows, as declared -/
def interfaces (t : KnownType) : List KnownType := t.decl.interfaces.filterMap t.pool.type?

/-- subtyping as the pool of `a` sees it -/
def isAssignableTo (a b : KnownType) : Bool := a.pool.isSubtype a.name b.name

def declaredMethods (t : KnownType) : List Method := t.decl.declaredMethods

end KnownType

/-! ## Walks over super types -/

/-- the declarations under other names -/
def without (name : String) (ds : List TypeDecl) : List TypeDecl := ds.filter (·.name != name)

theorem length_without_lt {name : String} {ds : List TypeDecl} {d : TypeDecl}
    (h : ds.find? (·.name == name) = some d) : (without name ds).length < ds.length := by
  have hd : d.name == name := by simpa using List.find?_some h
  exact List.length_filter_lt_length_iff_exists.2 ⟨d, List.mem_of_find?_eq_some h, by simpa using hd⟩

/-- the number of interface mentions in these declarations -/
def interfaceMentions (ds : List TypeDecl) : Nat := (ds.flatMap (·.interfaces)).length

theorem interfaceMentions_without_add_le {name : String} {ds : List TypeDecl} {d : TypeDecl}
    (h : ds.find? (·.name == name) = some d) :
    interfaceMentions (without name ds) + d.interfaces.length ≤ interfaceMentions ds := by
  have drop : ∀ xs : List TypeDecl, interfaceMentions (without name xs) ≤ interfaceMentions xs := by
    intro xs
    induction xs with
    | nil => exact Nat.le_refl _
    | cons x xs ih =>
      by_cases hx : x.name = name <;> simp [interfaceMentions, without, hx] at ih ⊢ <;> omega
  induction ds with
  | nil => simp at h
  | cons x xs ih =>
    by_cases hx : x.name = name
    · have hxd : x = d := by simpa [hx] using h
      have := drop xs
      simp [interfaceMentions, without, hx, ← hxd] at this ⊢
      omega
    · have := ih (by simpa [hx] using h)
      simp [interfaceMentions, without, hx] at this ⊢
      omega

/-- the super classes from `next` on, nearest first, as long as their names are among the untaken declarations -/
def superChain (untaken : List TypeDecl) (next : Option String) : List TypeDecl :=
  match next with
  | none => []
  | some name =>
    match _h : untaken.find? (·.name == name) with
    | none => []
    | some d => d :: superChain (without name untaken) d.superName
termination_by untaken.length
decreasing_by exact length_without_lt ‹_›

/-- the names polled breadth first from `queue`, each with the declaration it takes, if that is still untaken -/
def interfacePolls (untaken : List TypeDecl) (queue : List String) : List (String × Option TypeDecl) :=
  match queue with
  | [] => []
  | name :: rest =>
    match _h : untaken.find? (·.name == name) with
    | none => (name, none) :: interfacePolls untaken rest
    | some d => (name, some d) :: interfacePolls (without name untaken) (rest ++ d.interfaces)
termination_by interfaceMentions untaken + queue.length
decreasing_by
  · simp only [List.length_cons]
    omega
  · have := interfaceMentions_without_add_le ‹_›
    simp only [List.length_append, List.length_cons]
    omega

/-! ## Methods -/

/-- keeps the first method of each token that `seen` does not hold -/
def firstByToken (seen : List MethodToken) : List Method → List Method
  | [] => []
  | m :: ms => if seen.contains m.token then firstByToken seen ms else m :: firstByToken (m.token :: seen) ms

namespace KnownType

/-- the super classes of a type, nearest first -/
def superClasses (t : KnownType) : List TypeDecl := superChain (without t.name t.pool.decls) t.decl.superName

/-- the names polled in search of interfaces, those of the type itself first, then those of its super classes -/
def polls (t : KnownType) : List (String × Option TypeDecl) :=
  interfacePolls (t.superClasses.foldl (fun ds d => without d.name ds) (without t.name t.pool.decls))
    (t.decl.interfaces ++ t.superClasses.flatMap (·.interfaces))

/-- the interfaces of a type and of its super classes, in the order they are met -/
def superInterfaces (t : KnownType) : List TypeDecl := t.polls.filterMap (·.2)

/-- what super classes and interfaces offer: a static method of an interface is not inherited -/
def inheritable (t : KnownType) : List Method :=
  t.superClasses.flatMap (·.declaredMethods.filter Method.isInheritable) ++
    t.superInterfaces.flatMap (·.declaredMethods.filter fun m => m.isInheritable && !m.isStatic)

/-- the declared methods, then per token the first of the inheritable ones -/
def reachableMethods (t : KnownType) : List Method :=
  t.declaredMethods ++ firstByToken (t.declaredMethods.map Method.token) t.inheritable

/-- per direct interface, the default methods that it reaches -/
def defaultMethods (t : KnownType) : Table KnownType (List Method) :=
  .ofList (t.interfaces.map fun i => (i, i.reachableMethods.filter Method.isDefault))

end KnownType

/-! ## What a type can call -/

/-- the methods that calls from a type can be planned against -/
structure Invokables where
  type : KnownType
  methods : List Method
  /-- per interface, its default methods, each once -/
  defaults : Table KnownType (List Method)

namespace Invokables

/-- the reachable methods of a type and the default methods of its interfaces -/
def ofType (t : KnownType) : Invokables :=
  ⟨t, t.reachableMethods, t.defaultMethods.mapValues List.eraseDups⟩

/-- with other default methods; a later entry for an interface replaces an earlier one -/
def withDefaults (i : Invokables) (entries : List (KnownType × List Method)) : Invokables :=
  { i with defaults := .ofList (entries.map fun (t, ms) => (t, ms.eraseDups)) }

end Invokables

end CallPlan
