/-
Pools of type declarations.

A pool is a stack of layers, the nearest first, and each layer lists its declarations in the order they were made.
Looking a name up takes the first declaration of that name, nearest layer first. A pool is filled through a builder:
it works on one open layer above an optional parent pool, and refuses a name that is not an internal name or that is
already declared in reach.

`Pool.minimalPlatform` holds the few platform types that most hierarchies end in.
-/
import CallPlan.InternalName
import CallPlan.Method
import CallPlan.Text.Quoted

namespace CallPlan

/-! ## Declarations -/

structure MethodDecl where
  name : String
  descriptor : MethodDescriptor
  flags : AccessFlags
deriving DecidableEq, Repr

/-- a class or interface as it is declared; the names it mentions may be unknown -/
structure TypeDecl where
  name : String
  flags : AccessFlags
  superName : Option String
  interfaces : List String
  methods : List MethodDecl
deriving DecidableEq, Repr

namespace PlatformName

def object : String := "java/lang/Object"
def string : String := "java/lang/String"
def charSequence : String := "java/lang/CharSequence"
def comparable : String := "java/lang/Comparable"
def number : String := "java/lang/Number"
def integer : String := "java/lang/Integer"
def long : String := "java/lang/Long"
def cloneable : String := "java/lang/Cloneable"
def serializable : String := "java/io/Serializable"

end PlatformName

def MethodDecl.parse (name descriptor : String) (flags : AccessFlags) : Except Error MethodDecl := do
  let descriptor ← MethodDescriptor.parse descriptor
  return ⟨name, descriptor, flags⟩

namespace TypeDecl

/-- a public class without members -/
def ofClass (name superName : String) : TypeDecl := ⟨name, .publicBit, some superName, [], []⟩

/-- a public interface without members -/
def ofInterface (name : String) : TypeDecl := ⟨name, .publicBit ∪ .interfaceBit ∪ .abstractBit, none, [], []⟩

def isInterface (d : TypeDecl) : Bool := d.flags.has .interfaceBit

/-- the names of the super class and the interfaces, in this order -/
def parents (d : TypeDecl) : List String := d.superName.toList ++ d.interfaces

/-- the methods as members of the declared type -/
def declaredMethods (d : TypeDecl) : List Method :=
  d.methods.map fun m => ⟨d.name, d.isInterface, m.name, m.descriptor, m.flags⟩

end TypeDecl

/-! ## Pools -/

structure Pool where
  /-- the layers, nearest first -/
  layers : List (List TypeDecl)
deriving DecidableEq, Repr

namespace Pool

/-- all declarations in the order of look-up -/
def decls (p : Pool) : List TypeDecl := p.layers.flatten

def find? (p : Pool) (name : String) : Option TypeDecl := p.decls.find? (·.name == name)

def contains (p : Pool) (name : String) : Bool := (p.find? name).isSome

theorem find?_name {p : Pool} {name : String} {d : TypeDecl} (h : p.find? name = some d) : d.name = name := by
  simpa using List.find?_some h

theorem mem_of_find? {p : Pool} {name : String} {d : TypeDecl} (h : p.find? name = some d) : d ∈ p.decls :=
  List.mem_of_find?_eq_some h

/-- a declaration that is found is found under its own name -/
theorem find?_self {p : Pool} {name : String} {d : TypeDecl} (h : p.find? name = some d) :
    p.find? d.name = some d := by
  rw [find?_name h]; exact h

/-- the names of the nearest layer in order, and whether there is another layer, for diagnosis -/
def inspect (p : Pool) : String :=
  let names := ((p.layers.headD []).map (·.name)).mergeSort fun a b => decide (a ≤ b)
  "TypePool \x7b classes: [" ++ String.intercalate ", " (names.map Text.quote) ++ "], layered: " ++
    (if 1 < p.layers.length then "true" else "false") ++ " \x7d"

end Pool

/-! ## Filling a pool -/

/-- an open layer above an optional parent pool -/
structure PoolBuilder where
  parent : Option Pool
  decls : List TypeDecl
deriving DecidableEq, Repr

namespace PoolBuilder

def empty : PoolBuilder := ⟨none, []⟩

/-- an open layer whose look-ups fall back to `parent` -/
def above (parent : Pool) : PoolBuilder := ⟨some parent, []⟩

def contains (b : PoolBuilder) (name : String) : Bool :=
  b.decls.any (·.name == name) || b.parent.any (·.contains name)

/-- adds a declaration, unless its name is no internal name or already declared in reach -/
def add (b : PoolBuilder) (d : TypeDecl) : Except Error PoolBuilder := do
  InternalName.check d.name
  if b.contains d.name then .error (.duplicateType d.name)
  else .ok { b with decls := b.decls ++ [d] }

/-- adds all of these declarations -/
def addAll (b : PoolBuilder) (ds : List TypeDecl) : Except Error PoolBuilder := ds.foldlM add b

/-- the pool with the open layer as its nearest -/
def build (b : PoolBuilder) : Pool := ⟨b.decls :: (b.parent.map (·.layers)).getD []⟩

end PoolBuilder

/-! ## The minimal platform -/

namespace PlatformType

open PlatformName

/-- the root class with its constructor and the three methods every object answers to -/
def objectClass : TypeDecl where
  name := object
  flags := .publicBit
  superName := none
  interfaces := []
  methods := [
    ⟨"<init>", ⟨[], .void⟩, .publicBit⟩,
    ⟨"equals", ⟨[.object object], .value (.base .boolean)⟩, .publicBit⟩,
    ⟨"hashCode", ⟨[], .value (.base .int)⟩, .publicBit⟩,
    ⟨"toString", ⟨[], .value (.object string)⟩, .publicBit⟩]

def all : List TypeDecl := [
  objectClass,
  .ofInterface charSequence,
  .ofInterface comparable,
  .ofInterface cloneable,
  .ofInterface serializable,
  { TypeDecl.ofClass string object with interfaces := [charSequence, comparable, serializable] },
  { TypeDecl.ofClass number object with interfaces := [serializable] },
  { TypeDecl.ofClass integer number with interfaces := [comparable] },
  { TypeDecl.ofClass long number with interfaces := [comparable] }]

end PlatformType

/-- an open bottom layer that already holds the minimal platform -/
def PoolBuilder.minimalPlatform : PoolBuilder := ⟨none, PlatformType.all⟩

end CallPlan
