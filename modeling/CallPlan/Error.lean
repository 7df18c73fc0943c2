/-
What can go wrong while types are described, bridges are resolved and calls are planned.

One inductive type holds the causes and `Error.message` holds the wording, so that a statement speaks of a cause and
never of a text. Methods and types occur in an error by their written form.
-/
namespace CallPlan

/-- what was asked of a call that is not legal -/
inductive CallQuery where
  | targetMethod
  | targetType
  | emission
deriving DecidableEq, Repr

inductive Error where
  /-- the text at which reading a descriptor gave up -/
  | invalidDescriptor (text : String)
  | invalidInternalName (name : String)
  | duplicateType (name : String)
  | unknownType (name : String)
  | duplicateField (owner name : String)
  | duplicateMethod (owner method : String)
  | notExactlyOne (found : Nat)
  | ambiguousBridge (bridge : String) (candidates : List String)
  | unresolvedBridge (bridge : String)
  | bridgeChainTooDeep (method : String) (steps : Nat)
  | illegalCall (query : CallQuery)
  | abstractMethod (method : String)
deriving DecidableEq, Repr

namespace Error

/-- the query as it reads inside `cannot … an illegal special method invocation` -/
def queryText : CallQuery → String
  | .targetMethod => "query the target method of"
  | .targetType => "query the target type of"
  | .emission => "apply"

/-- the one place where errors get their wording -/
def message : Error → String
  | .invalidDescriptor text => "invalid descriptor: " ++ text
  | .invalidInternalName name => "invalid internal name: " ++ name
  | .duplicateType name => "type " ++ name ++ " is already defined"
  | .unknownType name => "type " ++ name ++ " is not known to the type pool"
  | .duplicateField owner name => owner ++ " already declares a field named " ++ name
  | .duplicateMethod owner method => owner ++ " already declares method " ++ method
  | .notExactlyOne found => "expected exactly one method, found " ++ toString found
  | .ambiguousBridge bridge candidates =>
    "could not resolve bridge method " ++ bridge ++ " with multiple potential targets [" ++
      String.intercalate ", " candidates ++ "]"
  | .unresolvedBridge bridge => "could not resolve the target of bridge method " ++ bridge
  | .bridgeChainTooDeep method steps =>
    "bridge resolution for " ++ method ++ " did not terminate within " ++ toString steps ++ " steps"
  | .illegalCall query => "cannot " ++ queryText query ++ " an illegal special method invocation"
  | .abstractMethod method => "abstract method " ++ method ++ " cannot be implemented"

end Error

end CallPlan
