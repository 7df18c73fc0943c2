/-
Queries that select methods, built from three tests and the Boolean connectives.
-/
import CallPlan.Subtyping

namespace CallPlan

inductive MethodQuery where
  | bridge
  | named (name : String)
  /-- methods that `bridge` may forward to, as `pool` sees their types -/
  | compatibleWith (bridge : Method) (pool : Pool)
  | negation (q : MethodQuery)
  | both (p q : MethodQuery)
  | either (p q : MethodQuery)
deriving DecidableEq, Repr

namespace MethodQuery

def accepts : MethodQuery → Method → Bool
  | .bridge, m => m.isBridge
  | .named name, m => m.name == name
  | .compatibleWith wide pool, m => pool.isBridgeCompatible wide m
  | .negation q, m => !q.accepts m
  | .both p q, m => p.accepts m && q.accepts m
  | .either p q, m => p.accepts m || q.accepts m

/-- the accepted methods, in order -/
def select (q : MethodQuery) (ms : List Method) : List Method := ms.filter q.accepts

end MethodQuery

end CallPlan
