/-
Conflict handlers that follow a script: per bridge, a fixed reaction.
-/
import CallPlan.Bridge

namespace CallPlan.Samples

/-- which method a scripted choice ends in -/
inductive Choice where
  | nth (n : Nat)
  | method (m : Method)
  | bridge

/-- what a script does about an ambiguous bridge -/
inductive Reaction where
  /-- the chosen method as the last word, or as the next candidate; unknown when there is no such method -/
  | choose (choice : Choice) (asCandidate : Bool)
  | fail (text : String)
  | policy (p : ConflictPolicy)
  | unknown

namespace Reaction

def apply (r : Reaction) (bridge : Method) (candidates : List Method) : Except Error BridgeTarget :=
  match r with
  | .choose choice asCandidate =>
    let chosen := match choice with
      | .nth n => candidates[n]?
      | .method m => some m
      | .bridge => some bridge
    match chosen with
    | none => .ok .unknown
    | some m => .ok (if asCandidate then .candidate m else .resolved m)
  | .fail text => .error (.unresolvedBridge text)
  | .policy p => p.handler bridge candidates
  | .unknown => .ok .unknown

end Reaction

/-- reacts by the rule for the written form of the bridge, or by `otherwise` -/
def scripted (rules : List (String × Reaction)) (otherwise : Reaction) : ConflictHandler := fun bridge candidates =>
  ((rules.lookup bridge.render).getD otherwise).apply bridge candidates

end CallPlan.Samples
