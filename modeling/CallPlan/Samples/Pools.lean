/-
Small hierarchies to try bridge resolution and call planning on: a covariant override, chains of bridges of any
depth, a bridge with two possible targets, methods that a subclass declares again, an interface with a default
method, a default method that an interface farther down declares again, one that has a bridge, and a cycle of classes
with a diamond of interfaces.
-/
import CallPlan.TypeDraft

namespace CallPlan.Samples

def baseName : String := "fixture/Base"
def childName : String := "fixture/Child"
def generatedName : String := "fixture/Gen"
def ambiguousName : String := "fixture/Ambiguous"
def greeterName : String := "fixture/Greeter"
def greeterImplName : String := "fixture/GreeterImpl"

/-- the flags of compiler-made bridges -/
def bridgeFlags : AccessFlags := .publicBit ∪ .bridgeBit ∪ .syntheticBit

/-- the descriptor of a getter for an object type -/
def getterOf (typeName : String) : MethodDescriptor := ⟨[], .value (.object typeName)⟩

/-- a declared method `get` -/
def getDecl (typeName : String) (flags : AccessFlags) : MethodDecl := ⟨"get", getterOf typeName, flags⟩

/-- a class method `get` -/
def getMethod (owner typeName : String) (flags : AccessFlags) : Method :=
  ⟨owner, false, "get", getterOf typeName, flags⟩

/-- the minimal platform with these types -/
def platformWith (ds : List TypeDecl) : Except Error Pool :=
  return (← PoolBuilder.minimalPlatform.addAll ds).build

/-! ## A covariant override -/

def covariant : Except Error Pool := platformWith [
  { TypeDecl.ofClass baseName PlatformName.object with methods := [getDecl PlatformName.object .publicBit] },
  { TypeDecl.ofClass childName baseName with
    methods := [getDecl PlatformName.string .publicBit, getDecl PlatformName.object bridgeFlags] }]

def baseGet : Method := getMethod baseName PlatformName.object .publicBit

def childGet : Method := getMethod childName PlatformName.string .publicBit

def childBridge : Method := getMethod childName PlatformName.object bridgeFlags

/-! ## Chains of bridges -/

/-- the result type of a level; each is a subclass of the one before -/
def chainResult : Nat → String
  | 0 => PlatformName.object
  | n + 1 => "fixture/R" ++ toString (n + 1)

/-- the class of a level; each overrides `get` of the one before with a narrower result -/
def chainLevel (n : Nat) : String := "fixture/Level" ++ toString n

/-- the class of a level, with the bridge from the result of the level before -/
def chainLevelDecl : Nat → TypeDecl
  | 0 => { TypeDecl.ofClass (chainLevel 0) PlatformName.object with methods := [getDecl (chainResult 0) .publicBit] }
  | n + 1 =>
    { TypeDecl.ofClass (chainLevel (n + 1)) (chainLevel n) with
      methods := [getDecl (chainResult (n + 1)) .publicBit, getDecl (chainResult n) bridgeFlags] }

def chain (depth : Nat) : Except Error Pool :=
  platformWith ((List.range depth).map (fun n => TypeDecl.ofClass (chainResult (n + 1)) (chainResult n)) ++
    (List.range (depth + 1)).map chainLevelDecl)

def chainRootGet : Method := getMethod (chainLevel 0) (chainResult 0) .publicBit

/-- the lowest override in a chain of two bridges -/
def chainEndGet : Method := getMethod (chainLevel 2) (chainResult 2) .publicBit

/-! ## A bridge with two possible targets -/

def ambiguous : Except Error Pool := platformWith [
  { TypeDecl.ofClass ambiguousName PlatformName.object with
    methods := [getDecl PlatformName.object bridgeFlags, getDecl PlatformName.string .publicBit,
      getDecl PlatformName.integer .publicBit] }]

def ambiguousBridge : Method := getMethod ambiguousName PlatformName.object bridgeFlags

/-! ## Methods that are declared again -/

def topName : String := "fixture/Top"
def middleName : String := "fixture/Middle"

/-- a declared method `put` for an object type -/
def putDecl (typeName : String) (flags : AccessFlags) : MethodDecl := ⟨"put", ⟨[.object typeName], .void⟩, flags⟩

/-- a class method `put` -/
def putMethod (owner typeName : String) (flags : AccessFlags) : Method :=
  ⟨owner, false, "put", ⟨[.object typeName], .void⟩, flags⟩

/-- a method that a subclass declares again as its private one -/
def privateAgain : Except Error Pool := platformWith [
  { TypeDecl.ofClass topName PlatformName.object with methods := [getDecl PlatformName.string .publicBit] },
  { TypeDecl.ofClass middleName topName with methods := [getDecl PlatformName.string .privateBit] }]

def topGet : Method := getMethod topName PlatformName.string .publicBit

def middleGet : Method := getMethod middleName PlatformName.string .privateBit

/-- a method with a bridge, declared again by an abstract subclass, without its bridge -/
def abstractAgain : Except Error Pool := platformWith [
  { TypeDecl.ofClass topName PlatformName.object with
    methods := [putDecl PlatformName.string .publicBit, putDecl PlatformName.object bridgeFlags] },
  { TypeDecl.ofClass middleName topName with
    flags := .publicBit ∪ .abstractBit
    methods := [putDecl PlatformName.string (.publicBit ∪ .abstractBit)] }]

def topPut : Method := putMethod topName PlatformName.string .publicBit

def topPutBridge : Method := putMethod topName PlatformName.object bridgeFlags

def middlePut : Method := putMethod middleName PlatformName.string (.publicBit ∪ .abstractBit)

/-! ## A default method -/

def defaultMethod : Except Error Pool := platformWith [
  { TypeDecl.ofInterface greeterName with
    methods := [⟨"greet", getterOf PlatformName.string, .publicBit⟩,
      ⟨"name", getterOf PlatformName.string, .publicBit ∪ .abstractBit⟩] },
  { TypeDecl.ofClass greeterImplName PlatformName.object with interfaces := [greeterName] }]

/-! ## A default method that is declared again -/

def shapeName : String := "fixture/Shape"
def solidName : String := "fixture/Solid"
def boxName : String := "fixture/Box"
def bodyName : String := "fixture/Body"
def crateName : String := "fixture/Crate"

def shapeDecl : TypeDecl :=
  { TypeDecl.ofInterface shapeName with methods := [getDecl PlatformName.string .publicBit] }

/-- an interface below the first that makes its default method abstract again -/
def solidDecl : TypeDecl :=
  { TypeDecl.ofInterface solidName with
    interfaces := [shapeName]
    methods := [getDecl PlatformName.string (.publicBit ∪ .abstractBit)] }

/-- the default method of the first interface -/
def shapeGet : Method := { getMethod shapeName PlatformName.string .publicBit with ownerIsInterface := true }

/-- a class and an interface that name both interfaces, and a class with that interface -/
def shapes : Except Error Pool := platformWith [
  shapeDecl,
  solidDecl,
  { TypeDecl.ofClass boxName PlatformName.object with
    flags := .publicBit ∪ .abstractBit
    interfaces := [shapeName, solidName] },
  { TypeDecl.ofInterface bodyName with interfaces := [shapeName, solidName] },
  { TypeDecl.ofClass crateName PlatformName.object with
    flags := .publicBit ∪ .abstractBit
    interfaces := [bodyName] }]

/-! ## A default method with a bridge -/

def sourceName : String := "fixture/Source"
def textSourceName : String := "fixture/TextSource"
def wordSourceName : String := "fixture/WordSource"
def readerName : String := "fixture/Reader"

/-- an interface whose default method narrows the result of another, with the bridge for it, an interface that narrows
it once more, and a class with both -/
def sources : Except Error Pool := platformWith [
  { TypeDecl.ofInterface sourceName with methods := [getDecl PlatformName.object .publicBit] },
  { TypeDecl.ofInterface textSourceName with
    interfaces := [sourceName]
    methods := [getDecl PlatformName.charSequence .publicBit, getDecl PlatformName.object bridgeFlags] },
  { TypeDecl.ofInterface wordSourceName with
    interfaces := [textSourceName]
    methods := [getDecl PlatformName.string .publicBit] },
  { TypeDecl.ofClass readerName PlatformName.object with interfaces := [textSourceName, wordSourceName] }]

/-- an interface method `get` -/
def getOfInterface (owner typeName : String) (flags : AccessFlags) : Method :=
  { getMethod owner typeName flags with ownerIsInterface := true }

def textSourceGet : Method := getOfInterface textSourceName PlatformName.charSequence .publicBit

def textSourceBridge : Method := getOfInterface textSourceName PlatformName.object bridgeFlags

def wordSourceGet : Method := getOfInterface wordSourceName PlatformName.string .publicBit

/-- the two interfaces of the class, each with its own default method -/
def readerDefaults : List (String × Method) := [(textSourceName, textSourceGet), (wordSourceName, wordSourceGet)]

/-! ## A cycle and a diamond -/

def ringName : String := "fixture/Ring"
def backName : String := "fixture/Back"
def leftName : String := "fixture/Left"
def rightName : String := "fixture/Right"

/-- two classes that extend each other, and two interfaces that do as well; both classes implement the second interface,
and one names an interface that is not there -/
def ring : Except Error Pool := platformWith [
  { TypeDecl.ofClass ringName backName with
    interfaces := [leftName, rightName]
    methods := [getDecl PlatformName.object .publicBit] },
  { TypeDecl.ofClass backName ringName with
    interfaces := [rightName, "fixture/Missing"]
    methods := [getDecl PlatformName.string .publicBit, getDecl PlatformName.integer .privateBit,
      getDecl PlatformName.charSequence (.publicBit ∪ .staticBit)] },
  { TypeDecl.ofInterface leftName with
    interfaces := [rightName]
    methods := [getDecl PlatformName.string .publicBit, getDecl PlatformName.integer .publicBit] },
  { TypeDecl.ofInterface rightName with
    interfaces := [leftName]
    methods := [getDecl PlatformName.integer .publicBit, getDecl PlatformName.comparable .publicBit] }]

/-- what the first class inherits: nothing private, and what both a class and an interface, or both interfaces, declare
from where it is met first -/
def ringInherited : List Method := [
  getMethod backName PlatformName.string .publicBit,
  getMethod backName PlatformName.charSequence (.publicBit ∪ .staticBit),
  getOfInterface leftName PlatformName.integer .publicBit,
  getOfInterface rightName PlatformName.comparable .publicBit]

/-! ## Generated types -/

/-- an empty generated subclass, in a layer above the pool -/
def generatedSubclass (pool : Pool) (superName : String) : Except Error KnownType := do
  (← TypeDraft.extending generatedName (← pool.type superName)).typeAbove pool

/-- the same with an interface -/
def generatedImplementing (pool : Pool) (superName interface : String) : Except Error KnownType := do
  let superType ← pool.type superName
  let interface ← pool.type interface
  ((← TypeDraft.extending generatedName superType).implementing interface).typeAbove pool

end CallPlan.Samples
