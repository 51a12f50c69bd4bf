import PathRouter.Text.Quoted

/-!
# Faults

The causes for which an operation gives no answer, with their wording. A path that no template
serves is an answer, not a fault.
-/
namespace PathRouter

open Text (quoted)

/-- The name under which routing is offered. -/
def packageName : String := "routeorder"

/-- Why an operation gives no answer. -/
inductive Fault
  /-- Any fault of routing, described by the caller. -/
  | general (details : List String)
  /-- Settings that cannot be used, described by the caller. -/
  | configuration (details : List String)
  /-- A route that strict reading refuses. -/
  | invalidRoute (route reason : String)
  /-- A template whose expression is no regular expression. -/
  | badExpression (route expression : String)
  /-- A parameter recorded at a group that its expression does not have. -/
  | missingGroup
  /-- A route in canonical order without a template of its own. -/
  | missingTemplate (route : String)
  /-- Flags of a dynamic segment that are not both known. -/
  | unknownFlags
  /-- A name outside the public catalogue. -/
  | unknownName (name : String)
  deriving DecidableEq, Repr

/-- Details as one text: none as nothing, one as it is, more as a list of quoted texts. -/
def Fault.describe : List String → String
  | [] => ""
  | [detail] => detail
  | details => "(" ++ String.intercalate ", " (details.map quoted) ++ ")"

def Fault.message : Fault → String
  | .general details => describe details
  | .configuration details => describe details
  | .invalidRoute route reason => "Invalid route " ++ quoted route ++ ": " ++ reason
  | .badExpression route expression =>
    "Route " ++ quoted route ++ " compiled to an invalid expression " ++ quoted expression
  | .missingGroup => "no such group"
  | .missingTemplate route => quoted route
  | .unknownFlags => "unreachable"
  | .unknownName name => "module " ++ quoted packageName ++ " has no attribute " ++ quoted name

/-- The families of routing faults. -/
inductive FaultFamily
  | general
  | configuration
  | invalidRoute
  | badExpression
  deriving DecidableEq, Repr

/-- A family with the wider families that contain it, from the narrowest on. -/
def FaultFamily.lineage : FaultFamily → List FaultFamily
  | .general => [.general]
  | .configuration => [.configuration, .general]
  | .invalidRoute => [.invalidRoute, .configuration, .general]
  | .badExpression => [.badExpression, .general]

/-- The family of a routing fault; the others belong to none. -/
def Fault.family? : Fault → Option FaultFamily
  | .general _ => some .general
  | .configuration _ => some .configuration
  | .invalidRoute _ _ => some .invalidRoute
  | .badExpression _ _ => some .badExpression
  | .missingGroup | .missingTemplate _ | .unknownFlags | .unknownName _ => none

end PathRouter
