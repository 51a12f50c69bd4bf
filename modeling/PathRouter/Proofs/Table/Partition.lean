import PathRouter.Proofs.Router.Stability

/-!
# The parts of a table

A table divides its routes into those without parameters and those with a matcher. A matcher may
come from another template with the same text, but it bears that text in any case, so the matchers
of a table name its routes with parameters, each once and in canonical order.
-/
namespace PathRouter

open Bindings (value?)
open Template (parse readAll)

namespace Router

/-- Whether each matcher that is kept is kept under its own route. -/
def Labelled (router : Router) : Prop :=
  ∀ raw entry, value? raw router.memo = some entry → entry.matcher.route = raw

theorem Labelled.route_eq_of_matcherAmong? {router : Router} (h : router.Labelled)
    {templates : List Template} {raw : String} {matcher : Matcher}
    (hmatcher : router.matcherAmong? templates raw = some matcher) : matcher.route = raw := by
  rcases Option.or_eq_some_iff.mp hmatcher with hkept | ⟨_, hfirst⟩
  · obtain ⟨entry, hentry, rfl⟩ := Option.map_eq_some_iff.mp hkept
    exact h raw entry hentry
  · obtain ⟨template, htemplate, rfl⟩ := Option.map_eq_some_iff.mp hfirst
    have hraw := List.find?_some htemplate
    exact eq_of_beq hraw

theorem Grows.labelled {templates : List Template} {added : Bindings String Entry}
    {before after : Router} (h : Grows templates added before after) (hbefore : before.Labelled) :
    after.Labelled := by
  intro raw entry hentry
  have hmatcher := h.matcher_eq raw
  rw [hentry] at hmatcher
  exact hbefore.route_eq_of_matcherAmong? hmatcher.symm

theorem labelled_empty : Router.empty.Labelled := by
  intro raw entry h
  cases h

theorem Labelled.step {router : Router} (h : router.Labelled) (request : Request) :
    (request.step router).2.Labelled := by
  by_cases hclear : request = .clear
  · rw [hclear]
    exact labelled_empty
  · obtain ⟨_, hgrows, _⟩ := Request.grows_step hclear router
    exact hgrows.labelled h

theorem Labelled.after {router : Router} (h : router.Labelled) (requests : List Request) :
    (router.after requests).Labelled := by
  induction requests generalizing router with
  | nil => exact h
  | cons request rest ih => exact ih (h.step request)

end Router

/-- Matchers that are kept under their routes name the templates that they are found for. -/
theorem Router.Labelled.map_route {router : Router} (h : router.Labelled)
    {templates : List Template} {matchers : List Matcher}
    (hmatchers : matchers.map some =
      templates.map fun template => router.matcherAmong? templates template.raw) :
    matchers.map (·.route) = templates.map (·.raw) := by
  have hroute : ∀ template ∈ templates,
      (router.matcherAmong? templates template.raw).map (·.route) = some template.raw := by
    intro template htemplate
    have hmem : router.matcherAmong? templates template.raw ∈ matchers.map some := by
      rw [hmatchers]
      exact List.mem_map_of_mem htemplate
    obtain ⟨matcher, _, hmatcher⟩ := List.mem_map.mp hmem
    rw [← hmatcher, Option.map_some, h.route_eq_of_matcherAmong? hmatcher.symm]
  refine List.map_injective_iff.mpr (fun _ _ => Option.some.inj) ?_
  calc (matchers.map (·.route)).map some
      = (matchers.map some).map (Option.map (·.route)) := by
        rw [List.map_map, List.map_map]
        rfl
    _ = templates.map fun template =>
          (router.matcherAmong? templates template.raw).map (·.route) := by
        rw [hmatchers, List.map_map]
        rfl
    _ = templates.map fun template => some template.raw := List.map_congr_left hroute
    _ = (templates.map (·.raw)).map some := by
        rw [List.map_map]
        rfl

namespace Table

/-- Whether the table divides the routes into its two parts, without repeating any. -/
structure Divides (routes : List String) (table : Table) : Prop where
  nodup_fixed : table.fixed.Nodup
  nodup_dynamic : (table.dynamic.map (·.route)).Nodup
  disjoint : ∀ route ∈ table.fixed, route ∉ table.dynamic.map (·.route)
  mem_iff : ∀ route, route ∈ routes ↔ route ∈ table.fixed ∨ route ∈ table.dynamic.map (·.route)

theorem Divides.contains_iff {routes : List String} {table : Table} (h : table.Divides routes)
    (route : String) : table.contains route = true ↔ route ∈ routes := by
  rw [h.mem_iff, contains, Bool.or_eq_true, List.contains_iff_mem, List.any_eq_true, List.mem_map]
  simp only [beq_iff_eq]

/-- A table whose matchers name its routes with parameters divides its routes. -/
theorem divides_ofRoutes {settings : Settings} {routes : List String} {matchers : List Matcher}
    (h : matchers.map (·.route) = (canonicalOrder (routes.map parse)).eraseDups.filter
      fun route => (parse route).isDynamic) :
    Divides routes { ofRoutes settings routes with dynamic := matchers } := by
  refine ⟨(nodup_eraseDups _).filter _, ?_, fun route hfixed => ?_, fun route => ?_⟩
  · exact h ▸ (nodup_eraseDups _).filter _
  · have hfixed : route ∈ (ofRoutes settings routes).fixed := hfixed
    have hstatic := (mem_fixed_ofRoutes.mp hfixed).2
    rw [h, List.mem_filter, hstatic]
    exact fun hdynamic => Bool.false_ne_true hdynamic.2
  · have hfixed : route ∈ (ofRoutes settings routes).fixed ↔
        route ∈ routes ∧ (parse route).isDynamic = false := mem_fixed_ofRoutes
    rw [h, List.mem_filter, mem_eraseDups_canonicalOrder, hfixed]
    cases (parse route).isDynamic <;> simp

end Table

/-- A table fails to be built only when one of its routes is refused, whatever was requested before.
It holds all of its routes in canonical order, as sorting them gives it. Its two parts divide the
routes, and each matcher in its second part is named by its own route, in the canonical order of
their first occurrences. -/
theorem table_divides_its_routes (requests : List Request) (routes : List String)
    (settings : Settings)
    (h : ∀ route reason, ((Table.build routes settings).run (Router.empty.after requests)).1 ≠
      .error (.invalidRoute route reason)) :
    ∃ table, ((Table.build routes settings).run (Router.empty.after requests)).1 = .ok table ∧
      table.Divides routes ∧
      (∀ route ∈ table.fixed, (parse route).isDynamic = false) ∧
      table.dynamic.map (·.route) = (canonicalOrder (routes.map parse)).eraseDups.filter
        (fun route => (parse route).isDynamic) ∧
      table.size = routes.length ∧
      table.routes = canonicalOrder (routes.map parse) ∧
      (∀ router, ((Routing.sortRoutes routes settings).run router).1 = .ok table.routes) ∧
      ∀ route, table.contains route = true ↔ route ∈ routes := by
  cases hread : readAll settings routes with
  | error fault =>
    obtain ⟨route, _, reason, rfl⟩ := Template.exists_refused_of_readAll hread
    rw [Table.run_build_of_refused hread] at h
    exact absurd rfl (h route reason)
  | ok templates =>
    obtain ⟨matchers, hrun, hmatchers⟩ :=
      Table.exists_run_build hread (Router.empty.after requests)
    have hroutes : matchers.map (·.route) =
        (canonicalOrder (routes.map parse)).eraseDups.filter
          fun route => (parse route).isDynamic := by
      rw [(Router.labelled_empty.after requests).map_route hmatchers, Table.map_raw_templates]
    have hdivides : Table.Divides routes
        { Table.ofRoutes settings routes with dynamic := matchers } :=
      Table.divides_ofRoutes hroutes
    obtain ⟨rfl, _⟩ := Template.readAll_eq_ok_iff.mp hread
    have hfixed : ∀ route ∈ (Table.ofRoutes settings routes).fixed,
        (parse route).isDynamic = false := fun _ hroute => (Table.mem_fixed_ofRoutes.mp hroute).2
    refine ⟨_, by rw [hrun], hdivides, hfixed, hroutes,
      (pairwise_canonicalOrder_parse routes).1.length_eq, rfl, fun router => ?_,
      hdivides.contains_iff⟩
    rw [Routing.run_sortRoutes hread]
    rfl

/-- A hand-built template has taken the place of a route that is given twice, and two of the routes
would be refused by strict reading. -/
theorem table_with_foreign_matcher_divides_its_routes :
    ∃ table, ((Table.build ["/b//c", "/[id]", "/a", "/[id]", "/[...x]/[y]", "/a"] .standard).run
        (Router.empty.after [.fetch ⟨"/[id]", [⟨"x", .literal, none⟩]⟩])).1 = .ok table ∧
      table.Divides ["/b//c", "/[id]", "/a", "/[id]", "/[...x]/[y]", "/a"] ∧ table.size = 6 ∧
      "/[id]" ∈ table.dynamic.map (·.route) := by
  have hread : readAll .standard ["/b//c", "/[id]", "/a", "/[id]", "/[...x]/[y]", "/a"] =
      .ok (["/b//c", "/[id]", "/a", "/[id]", "/[...x]/[y]", "/a"].map parse) := rfl
  obtain ⟨table, hrun, hdivides, hstatic, _, hsize, _⟩ := table_divides_its_routes
    [.fetch ⟨"/[id]", [⟨"x", .literal, none⟩]⟩]
    ["/b//c", "/[id]", "/a", "/[id]", "/[...x]/[y]", "/a"] .standard
    fun route reason hrefused => by
      obtain ⟨_, hbuilt, _⟩ := Table.exists_run_build hread
        (Router.empty.after [.fetch ⟨"/[id]", [⟨"x", .literal, none⟩]⟩])
      rw [hbuilt] at hrefused
      cases hrefused
  refine ⟨table, hrun, hdivides, hsize, ?_⟩
  rcases (hdivides.mem_iff "/[id]").mp (by decide) with hfixed | hdynamic
  · exact absurd (hstatic _ hfixed) (by decide)
  · exact hdynamic

end PathRouter
