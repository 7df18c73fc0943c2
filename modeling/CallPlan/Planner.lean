/-
Planning of super calls and of calls of default methods, on behalf of one type.

A planner indexes the methods of its type by unique signature. Where a bridge and another method share one, the other
method is kept; otherwise the first. A super call is looked up either exactly or through this index and the bridge
resolver, and is legal when the super class can be asked for the method found. A default method is looked up in the
index of the interface it is called on, where a later method of one signature replaces an earlier one.
-/
import CallPlan.SpecialCall

namespace CallPlan

/-- how the method of a super call is found -/
inductive CallLookup where
  /-- the given method itself -/
  | exact
  /-- what the super type has under the method's unique signature, bridges resolved -/
  | superType
deriving DecidableEq, Repr

/-! ## Indexes by unique signature -/

abbrev SignatureIndex := Table String Method

namespace SignatureIndex

/-- adds a method; one that is there already gives way only if it is a bridge and the new one is not -/
def add (index : SignatureIndex) (m : Method) : SignatureIndex :=
  match index.find? m.uniqueSignature with
  | none => index.insert m.uniqueSignature m
  | some old => if old.isBridge && !m.isBridge then index.insert m.uniqueSignature m else index

/-- the methods that super calls may mean -/
def invokable (ms : List Method) : SignatureIndex := ms.foldl add .empty

/-- the default methods of an interface; the last of each signature counts -/
def defaults (ms : List Method) : SignatureIndex := .ofList (ms.map fun m => (m.uniqueSignature, m))

end SignatureIndex

/-! ## The planner -/

structure Planner where
  type : KnownType
  invokable : SignatureIndex
  defaults : Table KnownType SignatureIndex
  strategy : BridgeStrategy
  resolver : Option BridgeResolver

namespace Planner

/-- the planner for what a type can call -/
def make (strategy : BridgeStrategy) (i : Invokables) : Except Error Planner := do
  let resolver ← strategy.resolver i.type
  return ⟨i.type, .invokable i.methods, i.defaults.mapValues .defaults, strategy, resolver⟩

/-- planners by the name of their type, their default methods, their strategy and their bridges. The invokable methods
are left out, although types of one name may have others -/
instance : BEq Planner where
  beq a b :=
    a.type == b.type && a.defaults.agree (Table.agree (· == ·)) b.defaults && a.strategy == b.strategy &&
      a.resolver == b.resolver

instance : HashFeed Planner where
  feed p := feed p.type ++ [.number p.defaults.size] ++ feed p.strategy ++ [.number (bridgeCount p.resolver)]

/-- the method that a super call means, if there is one -/
def lookUp (p : Planner) (m : Method) : CallLookup → Except Error (Option Method)
  | .exact => .ok (some m)
  | .superType =>
    match p.invokable.find? m.uniqueSignature with
    | none => .ok none
    | some found => return some (← resolveBridge p.resolver found)

/-- whether a subclass may call `m` on its super class: an instance method with a body, not private, declared by the
super class or above it, and a constructor only if the super class itself declares it -/
def maySuperCall (type superClass : KnownType) (m : Method) : Bool :=
  !m.isAbstract && !m.isStatic && !m.isPrivate && !m.isTypeInitializer &&
  !(m.isConstructor && m.owner != superClass.name) &&
  (type.pool.type? m.owner).any fun declaring => !declaring.isInterface && superClass.isAssignableTo declaring

/-- the call of `m` on the super class -/
def callOnSuper (type : KnownType) (m : Method) : SpecialCall :=
  match type.superClass? with
  | none => .illegal
  | some superClass => if maySuperCall type superClass m then .legal m superClass else .illegal

def superCall (p : Planner) (m : Method) (lookup : CallLookup) : Except Error SpecialCall := do
  match ← p.lookUp m lookup with
  | none => return .illegal
  | some found => return callOnSuper p.type found

/-- the call of an interface's default method -/
def defaultCall (p : Planner) (interface : KnownType) (signature : String) : SpecialCall :=
  match (p.defaults.find? interface).bind (·.find? signature) with
  | none => .illegal
  | some m => .legal m interface

end Planner

end CallPlan
