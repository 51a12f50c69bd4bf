import PathRouter.Proofs.Dispatch.Selection
import PathRouter.Proofs.Priority.OrderIndependence
import PathRouter.Proofs.Table.Building

/-!
# Agreement of tables with dispatch

A table answers like a selection among its routes in canonical order: the routes without parameters
are looked up instead of scanned, and a repeated route is tried once, but neither can change which
route is found first.
-/
namespace PathRouter

open Template (serving? matching readAll parse)

namespace Table

variable {settings : Settings} {routes : List String} {path : String}

theorem mem_routes_ofRoutes {route : String} :
    route ∈ (ofRoutes settings routes).routes ↔ route ∈ routes :=
  (pairwise_canonicalOrder_parse routes).1.mem_iff

theorem find?_fixed (path : String) :
    ((ofRoutes settings routes).routes.map parse).find?
        (fun t => !t.isDynamic && t.raw == path) =
      if (ofRoutes settings routes).fixed.contains path then some (parse path) else none := by
  rw [List.find?_map]
  cases hfind : (ofRoutes settings routes).routes.find?
      ((fun t : Template => !t.isDynamic && t.raw == path) ∘ parse) with
  | some route =>
    have hserves := List.find?_some hfind
    simp only [Function.comp_apply, Bool.and_eq_true, Bool.not_eq_true', beq_iff_eq] at hserves
    obtain ⟨hstatic, hroute : route = path⟩ := hserves
    have hmem := mem_routes_ofRoutes.mp (List.mem_of_find?_eq_some hfind)
    rw [← hroute, if_pos (List.contains_iff_mem.mpr (mem_fixed_ofRoutes.mpr ⟨hmem, hstatic⟩))]
    rfl
  | none =>
    refine (if_neg fun hfixed => ?_).symm
    obtain ⟨hmem, hstatic⟩ := mem_fixed_ofRoutes.mp (List.contains_iff_mem.mp hfixed)
    have hserves := List.find?_eq_none.mp hfind path (mem_routes_ofRoutes.mpr hmem)
    refine hserves ?_
    simp [hstatic]

theorem find?_dynamic (path : String) :
    (((ofRoutes settings routes).routes.map parse).filter Template.isDynamic).find?
        (fun t => t.matcher.accepts path) =
      ((ofRoutes settings routes).accepting? path).map fun matcher => parse matcher.route := by
  unfold accepting? ofRoutes
  simp only [List.filter_map, List.find?_map, List.find?_filter, find?_eraseDups, Option.map_map]
  rfl

theorem serving?_ofRoutes (path : String) :
    serving? path ((ofRoutes settings routes).routes.map parse) =
      if (ofRoutes settings routes).fixed.contains path then some (parse path)
      else ((ofRoutes settings routes).accepting? path).map fun matcher => parse matcher.route := by
  unfold serving?
  rw [find?_fixed, find?_dynamic]
  split <;> rfl

theorem exists_of_accepting? {matcher : Matcher}
    (h : (ofRoutes settings routes).accepting? path = some matcher) :
    ∃ route, (parse route).isDynamic = true ∧ (parse route).matcher = matcher := by
  obtain ⟨route, hroute, hmatcher⟩ := List.mem_map.mp (List.mem_of_find?_eq_some h)
  exact ⟨route, (List.mem_filter.mp hroute).2, hmatcher⟩

theorem resolve_ofRoutes (path : String) :
    (ofRoutes settings routes).resolve path =
      (serving? path ((ofRoutes settings routes).routes.map parse)).map (·.raw) := by
  rw [serving?_ofRoutes, resolve]
  split
  · rfl
  · rw [Option.map_map]
    rfl

theorem matchPath_ofRoutes (path : String) :
    (ofRoutes settings routes).matchPath path =
      matching settings path ((ofRoutes settings routes).routes.map parse) := by
  unfold matchPath matching
  rw [serving?_ofRoutes]
  split
  · rename_i hfixed
    obtain ⟨_, hstatic⟩ := mem_fixed_ofRoutes.mp (List.contains_iff_mem.mp hfixed)
    simp only [Template.found, hstatic, Bool.false_eq_true, if_false]
    rfl
  · cases haccepting : (ofRoutes settings routes).accepting? path with
    | none => rfl
    | some matcher =>
      obtain ⟨route, hdynamic, rfl⟩ := exists_of_accepting? haccepting
      have hdynamic' : (parse (parse route).matcher.route).isDynamic = true := hdynamic
      simp only [Option.map_some, Template.found, if_pos hdynamic']
      change ((parse route).matcher.extract settings.decodeParams path >>= _) =
        Except.map some ((parse route).matcher.extract settings.decodeParams path >>= _)
      cases (parse route).matcher.extract settings.decodeParams path <;> rfl

theorem readAll_canonicalOrder {templates : List Template}
    (h : readAll settings routes = .ok templates) :
    readAll settings (canonicalOrder templates) =
      .ok ((ofRoutes settings routes).routes.map parse) := by
  obtain ⟨rfl, _⟩ := Template.readAll_eq_ok_iff.mp h
  exact Template.readAll_perm (pairwise_canonicalOrder_parse routes).1 h

theorem ofRoutes_congr {routes' : List String} (h : routes'.Perm routes) :
    ofRoutes settings routes' = ofRoutes settings routes := by
  unfold ofRoutes
  rw [canonicalOrder_congr (h.map parse)]

theorem exists_matchPath_ofRoutes (routes : List String) (settings : Settings) (path : String) :
    ∃ match?, (ofRoutes settings routes).matchPath path = .ok match? ∧
      match?.map (·.route) = (ofRoutes settings routes).resolve path ∧
      ∀ found ∈ match?, (parse found.route).ParamsIn settings path found.params := by
  have hnamed : ∀ t ∈ (ofRoutes settings routes).routes.map parse, t.Named := by
    intro t ht
    obtain ⟨raw, _, rfl⟩ := List.mem_map.mp ht
    exact Template.named_parse raw
  obtain ⟨match?, hmatching, hroute, hparams⟩ := Template.exists_matching hnamed settings path
  rw [← matchPath_ofRoutes] at hmatching
  rw [← resolve_ofRoutes] at hroute
  refine ⟨match?, hmatching, hroute, fun found hfound => ?_⟩
  obtain ⟨t, ht, hraw, hfinds⟩ := hparams found hfound
  obtain ⟨raw, _, rfl⟩ := List.mem_map.mp ht
  rw [← hraw]
  exact hfinds

end Table

/-- On faithful routers, a table answers like dispatch among the sorted routes, with the same
faults, and no order of the routes changes an answer. There is a match just if a route serves the
path; it is the match of that route, with the parameters that its own matcher finds. -/
theorem table_agrees_with_dispatch (routes : List String) (settings : Settings) (path : String)
    (router router' : Router) (h : router.Faithful) (h' : router'.Faithful) :
    ((do return (← Table.build routes settings).resolve path : Routing _).run router).1 =
      ((do Routing.resolve path (← Routing.sortRoutes routes settings) settings).run router').1 ∧
    ((do (← Table.build routes settings).matchPath path : Routing _).run router).1 =
      ((do Routing.matchRoute path (← Routing.sortRoutes routes settings) settings).run
        router').1 ∧
    ∀ (table : Table) (after : Router),
      (Table.build routes settings).run router = (.ok table, after) →
        (∀ routes' : List String, routes'.Perm routes →
          ∃ table' after', (Table.build routes' settings).run router' = (.ok table', after') ∧
            table'.resolve path = table.resolve path ∧
            table'.matchPath path = table.matchPath path) ∧
        ∃ match?, table.matchPath path = .ok match? ∧
          match?.map (·.route) = table.resolve path ∧
          ∀ found ∈ match?, (parse found.route).ParamsIn settings path found.params := by
  have hbuild := Table.gives_build routes settings
  have hsort := Routing.gives_sortRoutes routes settings
  refine ⟨?_, ?_, ?_⟩
  · rw [(hbuild.bind fun table _ => Routing.Gives.pure (table.resolve path)).result_eq h,
      (hsort.bind fun ordered _ => Routing.gives_resolve path ordered settings).result_eq h']
    cases hread : readAll settings routes with
    | error fault => rfl
    | ok templates =>
      change Except.ok ((Table.ofRoutes settings routes).resolve path) =
        (do return (serving? path (← readAll settings (canonicalOrder templates))).map (·.raw))
      rw [Table.readAll_canonicalOrder hread, Table.resolve_ofRoutes]
      rfl
  · rw [(hbuild.bind fun table _ => Routing.Gives.lift (table.matchPath path)).result_eq h,
      (hsort.bind fun ordered _ => Routing.gives_matchRoute path ordered settings).result_eq h']
    cases hread : readAll settings routes with
    | error fault => rfl
    | ok templates =>
      change (Table.ofRoutes settings routes).matchPath path =
        (do matching settings path (← readAll settings (canonicalOrder templates)))
      rw [Table.readAll_canonicalOrder hread, Table.matchPath_ofRoutes]
      rfl
  · intro table after hrun
    obtain ⟨hread, rfl⟩ := Table.eq_ofRoutes_of_run_build hrun h
    refine ⟨fun routes' hroutes => ?_, Table.exists_matchPath_ofRoutes routes settings path⟩
    obtain ⟨after', hrun', _⟩ := Table.run_build (Template.readAll_perm hroutes hread) h'
    rw [Table.ofRoutes_congr hroutes] at hrun'
    exact ⟨_, after', hrun', rfl, rfl⟩

theorem user_pages_agree_with_dispatch :
    ∃ table after, (Table.build ["/users/[id]", "/users/me"] .standard).run .empty =
        (.ok table, after) ∧
      (∃ table' after', (Table.build ["/users/me", "/users/[id]"] .standard).run .empty =
          (.ok table', after') ∧
        table'.resolve "/users/me" = table.resolve "/users/me" ∧
        table'.matchPath "/users/me" = table.matchPath "/users/me") ∧
      ∃ match?, table.matchPath "/users/me" = .ok match? ∧
        match?.map (·.route) = table.resolve "/users/me" := by
  have hread : readAll .standard ["/users/[id]", "/users/me"] =
      .ok (["/users/[id]", "/users/me"].map parse) := rfl
  obtain ⟨after, hbuild, _⟩ := Table.run_build hread Router.faithful_empty
  obtain ⟨_, _, htable⟩ := table_agrees_with_dispatch ["/users/[id]", "/users/me"] .standard
    "/users/me" .empty .empty Router.faithful_empty Router.faithful_empty
  obtain ⟨hperm, match?, hmatch, hroute, _⟩ := htable _ _ hbuild
  exact ⟨_, after, hbuild, hperm _ (List.Perm.swap _ _ _), match?, hmatch, hroute⟩

end PathRouter
