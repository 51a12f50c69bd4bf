import PathRouter.Table

/-!
# Sessions

A session is a sequence of requests to one router. Each request has its own reply, even after a
fault, and tells what it recorded and how many matchers are kept after it.
-/
namespace PathRouter

inductive Request
  /-- The matcher of a template. -/
  | fetch (template : Template)
  /-- Drop every matcher. -/
  | clear
  /-- Whether a matcher is kept under a text. -/
  | holds (raw : String)
  | buildTable (routes : List String) (settings : Settings)
  | resolve (path : String) (routes : List String) (settings : Settings)
  | select (path : String) (templates : List Template)
  | matchRoute (path : String) (routes : List String) (settings : Settings)
  | sortRoutes (routes : List String) (settings : Settings)
  deriving DecidableEq, Repr

inductive Reply
  | entry (entry : Entry)
  | done
  | flag (value : Bool)
  | routes (routes : List String)
  | route (route? : Option String)
  | template (template? : Option Template)
  | routeMatch (match? : Option RouteMatch)

/-- What a request led to. -/
structure Outcome where
  reply : Except Fault Reply
  /-- What was recorded during the request, the oldest record first. -/
  log : List Record
  /-- How many matchers are kept after the request. -/
  kept : Nat

namespace Request

/-- The reply to a request. -/
def serve : Request → Routing Reply
  | fetch template => return .entry (← Routing.fetch template)
  | clear => do
    modify Router.clear
    return .done
  | holds raw => return .flag ((← get).holds raw)
  | buildTable routes settings => return .routes (← Table.build routes settings).routes
  | resolve path routes settings => return .route (← Routing.resolve path routes settings)
  | select path templates => return .template (← Routing.select path templates)
  | matchRoute path routes settings =>
    return .routeMatch (← Routing.matchRoute path routes settings)
  | sortRoutes routes settings => return .routes (← Routing.sortRoutes routes settings)

/-- Serves a request with an empty log. -/
def step (request : Request) (router : Router) : Outcome × Router :=
  let (reply, after) := (request.serve.run { router with log := [] }).run
  (⟨reply, after.log, after.memo.length⟩, after)

end Request

/-- The outcomes of requests to one router, with the router after the last one. -/
def runSession : List Request → Router → List Outcome × Router
  | [], router => ([], router)
  | request :: rest, router =>
    let (outcome, after) := request.step router
    let (outcomes, final) := runSession rest after
    (outcome :: outcomes, final)

end PathRouter
