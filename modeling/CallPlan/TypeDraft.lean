/-
Types under construction.

A draft starts as an empty subclass and grows by interfaces, fields, methods and initializers. It keeps its interface
names, its field names and its method tokens distinct: an interface named again is not added, a second field of one
name or a second method of one token is refused. A finished draft becomes a type of its own layer above a pool.
-/
import CallPlan.KnownType

namespace CallPlan

structure Field where
  name : String
  type : FieldType
  flags : AccessFlags
deriving DecidableEq, Repr

structure TypeDraft where
  name : String
  superName : String
  interfaces : List String
  fields : List Field
  methods : List Method
  /-- labels of the code that initializes the type, in the order it runs -/
  initializers : List String
deriving DecidableEq, Repr

namespace TypeDraft

/-- generated types are public and synthetic -/
def flags : AccessFlags := .publicBit ∪ .syntheticBit

/-- an empty subclass of a known type -/
def extending (name : String) (superType : KnownType) : Except Error TypeDraft := do
  InternalName.check name
  return ⟨name, superType.name, [], [], [], []⟩

/-- with one more interface, unless it is there already -/
def implementing (d : TypeDraft) (interface : KnownType) : TypeDraft :=
  if d.interfaces.contains interface.name then d
  else { d with interfaces := d.interfaces ++ [interface.name] }

def addField (d : TypeDraft) (f : Field) : Except Error TypeDraft :=
  if d.fields.any (·.name == f.name) then .error (.duplicateField d.name f.name)
  else .ok { d with fields := d.fields ++ [f] }

/-- with one more method of its own -/
def addMethod (d : TypeDraft) (name : String) (descriptor : MethodDescriptor) (flags : AccessFlags) :
    Except Error TypeDraft :=
  let m : Method := ⟨d.name, false, name, descriptor, flags⟩
  if d.methods.any (·.token == m.token) then .error (.duplicateMethod d.name m.render)
  else .ok { d with methods := d.methods ++ [m] }

def addInitializer (d : TypeDraft) (label : String) : TypeDraft :=
  { d with initializers := d.initializers ++ [label] }

/-- the declaration that the draft stands for; fields and initializers are not part of it -/
def toDecl (d : TypeDraft) : TypeDecl where
  name := d.name
  flags := TypeDraft.flags
  superName := some d.superName
  interfaces := d.interfaces
  methods := d.methods.map fun m => ⟨m.name, m.descriptor, m.flags⟩

/-- the drafted type, alone in a layer above `pool` -/
def typeAbove (d : TypeDraft) (pool : Pool) : Except Error KnownType := do
  let builder ← (PoolBuilder.above pool).add d.toDecl
  builder.build.type d.name

end TypeDraft

end CallPlan
