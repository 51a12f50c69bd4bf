import PathRouter.Priority.Order
import PathRouter.Router
import PathRouter.Template.Strict

/-!
# Dispatch

Which of several templates serves a path. A template without parameters that is the path itself
wins, wherever it stands; otherwise the first template with parameters that accepts the path, so
templates are best given in canonical order. Only the templates that are tried are compiled.
-/
namespace PathRouter

namespace Routing

/-- The first of the templates whose matcher accepts the path. -/
def firstAccepting (path : String) : List Template → Routing (Option Template)
  | [] => return none
  | template :: rest => do
    let entry ← fetch template
    if entry.matcher.accepts path then return some template else firstAccepting path rest

/-- The template that serves a path. -/
def select (path : String) (templates : List Template) : Routing (Option Template) := do
  match templates.find? fun template => !template.isDynamic && template.raw == path with
  | some template => return some template
  | none =>
    match ← firstAccepting path (templates.filter Template.isDynamic) with
    | some template => return some template
    | none =>
      record (.noMatch path templates.length)
      return none

/-- The route that serves a path. -/
def resolve (path : String) (routes : List String) (settings : Settings) :
    Routing (Option String) := do
  let templates ← Template.readAll settings routes
  return (← select path templates).map (·.raw)

/-- The route that serves a path, with the parameters found in the path. -/
def matchRoute (path : String) (routes : List String) (settings : Settings) :
    Routing (Option RouteMatch) := do
  let templates ← Template.readAll settings routes
  match ← select path templates with
  | none => return none
  | some template =>
    if template.isDynamic then
      let entry ← fetch template
      let params? ← entry.matcher.extract settings.decodeParams path
      return some ⟨template.raw, params?.getD []⟩
    else return some ⟨template.raw, []⟩

/-- The routes in canonical order. -/
def sortRoutes (routes : List String) (settings : Settings) : Routing (List String) := do
  let templates ← Template.readAll settings routes
  let ordered := canonicalOrder templates
  record (.ordered ordered.length)
  return ordered

end Routing

end PathRouter
