import PathRouter.Dispatch

/-!
# Route tables

A table is prepared once for many paths: it holds its routes in canonical order, those without
parameters as a set, and a matcher for each of the others. Paths are then resolved without reading
a route again.
-/
namespace PathRouter

structure Table where
  settings : Settings
  /-- All routes in canonical order, repeated ones repeated. -/
  routes : List String
  /-- The routes without parameters. -/
  fixed : List String
  /-- The matchers of the routes with parameters, each once and in canonical order. -/
  dynamic : List Matcher

namespace Table

/-- The template of a route, among templates by their texts. -/
def templateOf (byRaw : Bindings String Template) (route : String) : Except Fault Template :=
  match Bindings.value? route byRaw with
  | some template => .ok template
  | none => .error (.missingTemplate route)

def templatesOf (byRaw : Bindings String Template) (routes : List String) :
    Except Fault (List Template) :=
  routes.mapM (templateOf byRaw)

/-- Prepares a table. Matchers that are not kept yet are compiled in canonical order. -/
def build (routes : List String) (settings : Settings) : Routing Table := do
  let templates ← Template.readAll settings routes
  let ordered := canonicalOrder templates
  let byRaw := Bindings.ofPairs (templates.map fun template => (template.raw, template))
  let distinct ← templatesOf byRaw ordered.eraseDups
  let entries ← (distinct.filter Template.isDynamic).mapM Routing.fetch
  return {
    settings
    routes := ordered
    fixed := (distinct.filter fun template => !template.isDynamic).map (·.raw)
    dynamic := entries.map (·.matcher) }

def size (table : Table) : Nat := table.routes.length

def contains (route : String) (table : Table) : Bool :=
  table.fixed.contains route || table.dynamic.any (·.route == route)

/-- The matcher of the first route with parameters that accepts the path. -/
def accepting? (path : String) (table : Table) : Option Matcher :=
  table.dynamic.find? (·.accepts path)

/-- The route that serves a path. -/
def resolve (path : String) (table : Table) : Option String :=
  if table.fixed.contains path then some path else (table.accepting? path).map (·.route)

/-- The route that serves a path, with the parameters found in the path. -/
def matchPath (path : String) (table : Table) : Except Fault (Option RouteMatch) := do
  if table.fixed.contains path then return some ⟨path, []⟩
  match table.accepting? path with
  | none => return none
  | some matcher =>
    let params? ← matcher.extract table.settings.decodeParams path
    return some ⟨matcher.route, params?.getD []⟩

end Table

end PathRouter
