import PathRouter.Dispatch
import PathRouter.Proofs.Template.Reading

/-!
# Sorting routes

Sorting reads the routes, puts them into canonical order and records how many there are. A router
that refuses a route is left as it was.
-/
namespace PathRouter.Routing

theorem run_sortRoutes_of_refused {routes : List String} {settings : Settings} {fault : Fault}
    (h : Template.readAll settings routes = .error fault) (router : Router) :
    (sortRoutes routes settings).run router = (.error fault, router) := by
  unfold sortRoutes
  rw [h]
  rfl

theorem run_sortRoutes {routes : List String} {settings : Settings} {templates : List Template}
    (h : Template.readAll settings routes = .ok templates) (router : Router) :
    (sortRoutes routes settings).run router =
      (.ok (canonicalOrder templates),
        router.record (.ordered (canonicalOrder templates).length)) := by
  unfold sortRoutes
  rw [h]
  rfl

end PathRouter.Routing
