/-
Subtyping and assignability in a pool.

The direct parents of a declared type are its super class and its interfaces; a name the pool does not declare has
none. Whether one name is a subtype of another is a walk up these edges. Hierarchies may be cyclic and may mention
unknown names, so the walk carries `fresh`, the mentioned names it has not met yet: whatever it schedules it takes
out of `fresh`, hence no name is scheduled twice and the walk ends (`pending.length + fresh.length` decreases).

`Pool.climb` lists the names the walk expands, up to and including the goal; the goal is reached iff it is in that
list.
-/
import CallPlan.Pool

namespace CallPlan.Pool

/-! ## The walk -/

/-- the names mentioned as a super class or an interface, each once -/
def parentNames (p : Pool) : List String := (p.decls.flatMap TypeDecl.parents).eraseDups

/-- the parents of a name; none when the pool does not declare it -/
def parentsOf (p : Pool) (name : String) : List String := ((p.find? name).map TypeDecl.parents).getD []

/-- splitting by a test loses nothing -/
theorem length_filter_add_filter_not {α : Type} (f : α → Bool) (xs : List α) :
    (xs.filter f).length + (xs.filter fun x => !f x).length = xs.length := by
  induction xs with
  | nil => rfl
  | cons x xs ih => cases h : f x <;> simp [h] <;> omega

/-- the fresh names that `name` has as parents -/
def met (p : Pool) (name : String) (fresh : List String) : List String := fresh.filter (p.parentsOf name).contains

/-- the fresh names that stay fresh once `name` is expanded -/
def unmet (p : Pool) (name : String) (fresh : List String) : List String :=
  fresh.filter fun n => !(p.parentsOf name).contains n

theorem length_met_add_length_unmet (p : Pool) (name : String) (fresh : List String) :
    (p.met name fresh).length + (p.unmet name fresh).length = fresh.length :=
  length_filter_add_filter_not _ fresh

/-- the names expanded on the way from `pending` to `goal`, depth first; only `fresh` names may still be scheduled -/
def climb (p : Pool) (goal : String) (pending fresh : List String) : List String :=
  match pending with
  | [] => []
  | next :: rest =>
    if next = goal then [next]
    else next :: climb p goal (p.met next fresh ++ rest) (p.unmet next fresh)
termination_by pending.length + fresh.length
decreasing_by
  have := p.length_met_add_length_unmet next fresh
  simp only [List.length_append, List.length_cons]
  omega

/-- the names expanded in search of `sup`, starting from `sub` -/
def climbFrom (p : Pool) (sub sup : String) : List String :=
  p.climb sup [sub] (p.parentNames.filter (· != sub))

/-- whether `sup` is `sub`, the root class, or above `sub` -/
def isSubtype (p : Pool) (sub sup : String) : Bool :=
  sub == sup || sup == PlatformName.object || (p.climbFrom sub sup).contains sup

/-! ## Assignability -/

/-- the types that an array is a subtype of, whatever its elements -/
def isArraySupertype (name : String) : Bool :=
  name == PlatformName.object || name == PlatformName.cloneable || name == PlatformName.serializable

/-- whether a value of type `sub` may be stored where `sup` is declared: base types only as themselves, arrays of
references by their components -/
def isAssignable (p : Pool) : FieldType → FieldType → Bool
  | .base a, .base b => a == b
  | .array _, .object name => isArraySupertype name
  | .array (.base a), .array (.base b) => a == b
  | .array (.base _), .array _ => false
  | .array _, .array (.base _) => false
  | .array a, .array b => p.isAssignable a b
  | .object a, .object b => p.isSubtype a b
  | _, _ => false

/-- whether `candidate` can be what `bridge` forwards to: same name, and types that fit where the bridge's stand -/
def isBridgeCompatible (p : Pool) (bridge candidate : Method) : Bool :=
  candidate.name == bridge.name &&
  candidate.parameters.length == bridge.parameters.length &&
  (bridge.parameters.zip candidate.parameters).all (fun (wide, narrow) => p.isAssignable narrow wide) &&
  match bridge.result, candidate.result with
  | .void, .void => true
  | .value wide, .value narrow => p.isAssignable narrow wide
  | _, _ => false

end CallPlan.Pool
