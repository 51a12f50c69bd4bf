import PathRouter.Fault

/-!
# The public catalogue

The names under which the parts of routing are offered, each with the place that defines it.
-/
namespace PathRouter

/-- Public names with the places within the package that define them. -/
def catalogue : List (String × String) :=
  [("canonical_order", "resolve"),
   ("match_route", "routing.classify"),
   ("resolve_route", "resolve"),
   ("RouteTable", "routing.table"),
   ("RouteMatch", "routing.classify"),
   ("RoutingConfig", "config"),
   ("is_dynamic_route", "routing.segment"),
   ("ConfigurationError", "errors"),
   ("InvalidRouteError", "errors"),
   ("RouteCompileError", "errors"),
   ("RouteOrderError", "errors")]

/-- The full name of what a public name stands for. -/
def locate (name : String) : Except Fault String :=
  match catalogue.lookup name with
  | some place => .ok (packageName ++ "." ++ place ++ "." ++ name)
  | none => .error (.unknownName name)

end PathRouter
