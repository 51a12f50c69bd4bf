import PathRouter.Proofs.Bindings.Pairs
import PathRouter.Proofs.Priority.CanonicalOrder
import PathRouter.Proofs.Router.Faithfulness

/-!
# Building tables

What a table holds does not depend on the matchers that the router keeps, as long as the router is
faithful. So a table is determined by its routes and its settings.
-/
namespace PathRouter

open Bindings (value? ofPairs)

/-- Templates that were read are found by their texts. -/
theorem value?_ofPairs_parse {routes : List String} {route : String} (h : route ∈ routes) :
    value? route (ofPairs ((routes.map Template.parse).map fun t => (t.raw, t))) =
      some (Template.parse route) := by
  rw [value?_ofPairs, Option.map_eq_some_iff]
  cases hfind : ((routes.map Template.parse).map fun t => (t.raw, t)).reverse.find?
      (·.1 = route) with
  | none =>
    have hmem : (route, Template.parse route) ∈
        ((routes.map Template.parse).map fun t => (t.raw, t)).reverse :=
      List.mem_reverse.mpr (List.mem_map_of_mem (List.mem_map_of_mem h))
    exact absurd (decide_eq_true rfl) (List.find?_eq_none.mp hfind _ hmem)
  | some pair =>
    have hmem := List.mem_reverse.mp (List.mem_of_find?_eq_some hfind)
    have hraw : pair.1 = route := by simpa using List.find?_some hfind
    obtain ⟨t, ht, rfl⟩ := List.mem_map.mp hmem
    obtain ⟨raw, _, rfl⟩ := List.mem_map.mp ht
    exact ⟨_, rfl, congrArg Template.parse hraw⟩

namespace Table

/-- The table of routes that can be read. -/
def ofRoutes (settings : Settings) (routes : List String) : Table :=
  let ordered := canonicalOrder (routes.map Template.parse)
  { settings
    routes := ordered
    fixed := ordered.eraseDups.filter fun route => !(Template.parse route).isDynamic
    dynamic := (ordered.eraseDups.filter fun route => (Template.parse route).isDynamic).map
      fun route => (Template.parse route).matcher }

theorem mem_eraseDups_canonicalOrder {routes : List String} {route : String} :
    route ∈ (canonicalOrder (routes.map Template.parse)).eraseDups ↔ route ∈ routes := by
  rw [List.mem_eraseDups]
  exact (pairwise_canonicalOrder_parse routes).1.mem_iff

/-- Routes that are bound to what they are read as stand for that. -/
theorem templatesOf_eq_ok {byRaw : List (String × Template)} {routes : List String}
    (h : ∀ route ∈ routes, value? route byRaw = some (Template.parse route)) :
    templatesOf byRaw routes = .ok (routes.map Template.parse) := by
  unfold templatesOf
  induction routes with
  | nil => rfl
  | cons route rest ih =>
    obtain ⟨hroute, hrest⟩ := List.forall_mem_cons.mp h
    have hfound : templateOf byRaw route = .ok (Template.parse route) := by
      rw [templateOf, hroute]
    rw [List.mapM_cons, hfound, ih hrest]
    rfl

/-- No route in canonical order lacks its template. -/
theorem templatesOf_canonicalOrder (routes : List String) :
    templatesOf (ofPairs ((routes.map Template.parse).map fun t => (t.raw, t)))
        (canonicalOrder (routes.map Template.parse)).eraseDups =
      .ok ((canonicalOrder (routes.map Template.parse)).eraseDups.map Template.parse) :=
  templatesOf_eq_ok fun _ hroute => value?_ofPairs_parse (mem_eraseDups_canonicalOrder.mp hroute)

theorem mem_fixed_ofRoutes {settings : Settings} {routes : List String} {route : String} :
    route ∈ (ofRoutes settings routes).fixed ↔
      route ∈ routes ∧ (Template.parse route).isDynamic = false := by
  unfold ofRoutes
  rw [List.mem_filter, mem_eraseDups_canonicalOrder, Bool.not_eq_true']

/-- Once the routes are read, all that is left to do is to fetch the matchers. -/
theorem run_build_of_fetched {routes : List String} {settings : Settings}
    (hread : Template.readAll settings routes = .ok (routes.map Template.parse))
    {entries : List Entry} {router after : Router}
    (hfetched : ((((canonicalOrder (routes.map Template.parse)).eraseDups.map
      Template.parse).filter Template.isDynamic).mapM Routing.fetch).run router =
        (.ok entries, after)) :
    (build routes settings).run router =
      (.ok { ofRoutes settings routes with dynamic := entries.map (·.matcher) }, after) := by
  unfold build
  rw [Routing.run_bind_of_ok (Routing.run_readAll hread router)]
  simp only
  rw [templatesOf_canonicalOrder]
  refine (Routing.run_bind_of_ok hfetched).trans ?_
  change (_, _) = (_, _)
  simp [ofRoutes, List.filter_map, Function.comp_def]

theorem run_build_of_refused {routes : List String} {settings : Settings} {fault : Fault}
    (hread : Template.readAll settings routes = .error fault) (router : Router) :
    (build routes settings).run router = (.error fault, router) :=
  Routing.run_bind_of_error (Routing.run_readAll_of_refused hread router)

theorem run_build {routes : List String} {settings : Settings} {templates : List Template}
    (hread : Template.readAll settings routes = .ok templates) {router : Router}
    (h : router.Faithful) :
    ∃ after, (build routes settings).run router = (.ok (ofRoutes settings routes), after) ∧
      after.Faithful := by
  obtain ⟨rfl, _⟩ := Template.readAll_eq_ok_iff.mp hread
  have hisRead : ∀ t ∈ ((canonicalOrder (routes.map Template.parse)).eraseDups.map
      Template.parse).filter Template.isDynamic, t.IsRead := by
    intro t ht
    obtain ⟨raw, _, rfl⟩ := List.mem_map.mp (List.mem_filter.mp ht).1
    exact Template.isRead_parse raw
  obtain ⟨entries, after, hmapM, hmatchers, hafter⟩ := Routing.run_mapM_fetch hisRead h
  refine ⟨after, ?_, hafter⟩
  rw [run_build_of_fetched hread hmapM, hmatchers]
  change (_, _) = (_, _)
  simp [ofRoutes, List.filter_map, Function.comp_def]

theorem gives_build (routes : List String) (settings : Settings) :
    Routing.Gives
      (do
        let _ ← Template.readAll settings routes
        return ofRoutes settings routes)
      (build routes settings) := by
  intro router h
  cases hread : Template.readAll settings routes with
  | ok templates => exact run_build hread h
  | error fault => exact ⟨router, run_build_of_refused hread router, h⟩

/-- A table that was built is the table of its routes, and each of them can be read. -/
theorem eq_ofRoutes_of_run_build {routes : List String} {settings : Settings} {table : Table}
    {router after : Router} (hrun : (build routes settings).run router = (.ok table, after))
    (h : router.Faithful) :
    Template.readAll settings routes = .ok (routes.map Template.parse) ∧
      table = ofRoutes settings routes := by
  have hresult := (gives_build routes settings).result_eq h
  rw [hrun] at hresult
  cases hread : Template.readAll settings routes with
  | error fault =>
    rw [hread] at hresult
    cases hresult
  | ok templates =>
    obtain ⟨rfl, _⟩ := Template.readAll_eq_ok_iff.mp hread
    rw [hread] at hresult
    cases hresult
    exact ⟨rfl, rfl⟩

end Table

end PathRouter
