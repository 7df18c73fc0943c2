/-
Resolution of bridge methods.

At the level of the virtual machine a method's signature includes its result, so a compiler adds a bridge whenever an
override narrows the result: `Object get()` forwards to `String get()`. A super call planned against the wider
signature would land on the bridge, which dispatches to the override again; resolving the bridge first avoids this.

For every reachable bridge the index of a type says where to go on, by token: nothing to forward to ends at the
bridge itself, one candidate is followed further, and several candidates are a conflict that a handler decides.
Resolution follows candidates until the index has no entry for a token or a final one. A chain that meets a token
again would go on for ever; `size + 1` look-ups are enough for every other chain, so it is cut off there.
-/
import CallPlan.KnownType

namespace CallPlan

/-! ## Targets and conflicts -/

/-- where resolution goes from a bridge -/
inductive BridgeTarget where
  /-- resolution ends at this method -/
  | resolved (m : Method)
  /-- resolution goes on from this method -/
  | candidate (m : Method)
  | unknown
deriving DecidableEq, Repr

/-- decides between several methods that a bridge may forward to -/
abbrev ConflictHandler := Method → List Method → Except Error BridgeTarget

inductive ConflictPolicy where
  /-- refuse the whole type -/
  | failFast
  /-- refuse only when the bridge is asked for -/
  | failOnRequest
  /-- leave the call with the bridge -/
  | callBridge
deriving DecidableEq, Repr

namespace ConflictPolicy

def all : List ConflictPolicy := [.failFast, .failOnRequest, .callBridge]

/-- the policy's name in settings -/
def label : ConflictPolicy → String
  | .failFast => "fail-fast"
  | .failOnRequest => "fail-on-request"
  | .callBridge => "call-bridge"

def ofLabel? (label : String) : Option ConflictPolicy := all.find? (·.label == label)

def handler : ConflictPolicy → ConflictHandler
  | .failFast, bridge, candidates => .error (.ambiguousBridge bridge.render (candidates.map Method.render))
  | .failOnRequest, _, _ => .ok .unknown
  | .callBridge, bridge, _ => .ok (.resolved bridge)

end ConflictPolicy

/-! ## The index of a type -/

/-- the methods next to a bridge that it may forward to, in the order they are declared; none when the type that
declares the bridge is unknown -/
def bridgeCandidates (pool : Pool) (bridge : Method) : List Method :=
  match pool.find? bridge.owner with
  | none => []
  | some d => d.declaredMethods.filter fun m => !m.isBridge && pool.isBridgeCompatible bridge m

/-- where resolution goes from a bridge; only a choice between several candidates is left to the handler -/
def bridgeTarget (pool : Pool) (handler : ConflictHandler) (bridge : Method) : Except Error BridgeTarget :=
  match bridgeCandidates pool bridge with
  | [] => .ok (.resolved bridge)
  | [m] => .ok (.candidate m)
  | several => handler bridge several

abbrev BridgeIndex := Table MethodToken BridgeTarget

namespace KnownType

def reachableBridges (t : KnownType) : List Method := t.reachableMethods.filter Method.isBridge

/-- the reachable bridges with more than one candidate, each with its candidates -/
def ambiguousBridges (t : KnownType) : List (Method × List Method) :=
  (t.reachableBridges.map fun b => (b, bridgeCandidates t.pool b)).filter fun c => 2 ≤ c.2.length

/-- the targets of all reachable bridges; of two bridges with one token the later one counts -/
def bridgeIndex (t : KnownType) (handler : ConflictHandler) : Except Error BridgeIndex :=
  t.reachableBridges.foldlM (fun index bridge => do
    return index.insert bridge.token (← bridgeTarget t.pool handler bridge)) .empty

end KnownType

structure BridgeResolver where
  owner : KnownType
  index : BridgeIndex

namespace BridgeResolver

def ofType (t : KnownType) (handler : ConflictHandler) : Except Error BridgeResolver :=
  return ⟨t, ← t.bridgeIndex handler⟩

/-- resolvers agree when their owners have one name and their indexes hold the same targets -/
instance : BEq BridgeResolver := ⟨fun a b => a.owner == b.owner && a.index.agree (· == ·) b.index⟩

def size (r : BridgeResolver) : Nat := r.index.size

def target? (r : BridgeResolver) (m : Method) : Option BridgeTarget := r.index.find? m.token

/-- goes on from `current` with `n` look-ups left; `passed` holds the methods met since `start` -/
def follow (index : BridgeIndex) (start : Method) (passed : List Method) (current : Method) :
    Nat → Except Error (List Method)
  | 0 => .error (.bridgeChainTooDeep start.render passed.length)
  | n + 1 =>
    match index.find? current.token with
    | none => .ok passed
    | some (.resolved m) => .ok (passed ++ [m])
    | some (.candidate m) => follow index start (passed ++ [m]) m n
    | some .unknown => .error (.unresolvedBridge current.render)

/-- the methods met on the way from `m` to what it resolves to; empty when `m` stands for itself -/
def path (r : BridgeResolver) (m : Method) : Except Error (List Method) := follow r.index m [] m (r.size + 1)

/-- the last method on the path, or `m` itself -/
def resolve (r : BridgeResolver) (m : Method) : Except Error Method := return (← r.path m).getLastD m

end BridgeResolver

/-! ## Strategies -/

/-- how the bridges of a type are treated -/
inductive BridgeStrategy where
  | leaveBridges
  | resolveBridges (policy : ConflictPolicy)
deriving DecidableEq, Repr

namespace BridgeStrategy

def default : BridgeStrategy := .resolveBridges .failFast

/-- the resolver for a type; none when bridges are left alone -/
def resolver (s : BridgeStrategy) (t : KnownType) : Except Error (Option BridgeResolver) :=
  match s with
  | .leaveBridges => return none
  | .resolveBridges policy => return some (← BridgeResolver.ofType t policy.handler)

end BridgeStrategy

/-- resolves by a resolver, if there is one -/
def resolveBridge (resolver : Option BridgeResolver) (m : Method) : Except Error Method :=
  match resolver with
  | none => .ok m
  | some r => r.resolve m

/-- the number of indexed bridges -/
def bridgeCount (resolver : Option BridgeResolver) : Nat := (resolver.map (·.size)).getD 0

end CallPlan
