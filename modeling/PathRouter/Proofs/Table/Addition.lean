import PathRouter.Proofs.Table.Agreement

/-!
# Adding a route

A route that does not end in an optional catch-all changes nothing between other routes: in
canonical order it is put among them, and each path goes to the same route as before or to the new
one. An optional catch-all may move other routes, so the law says nothing of it.
-/
namespace PathRouter

open Template (serving? parse)

theorem find?_insert {α : Type} (p : α → Bool) (before after : List α) (a : α) :
    (before ++ a :: after).find? p = (before ++ after).find? p ∨
      (before ++ a :: after).find? p = some a := by
  rw [List.find?_append, List.find?_append, List.find?_cons]
  cases before.find? p with
  | some b => exact Or.inl rfl
  | none =>
    cases p a with
    | true => exact Or.inr rfl
    | false => exact Or.inl rfl

/-- One more template takes a path for itself or leaves it to the same one. -/
theorem Template.serving?_insert (path : String) (before after : List Template) (t : Template) :
    serving? path (before ++ t :: after) = serving? path (before ++ after) ∨
      serving? path (before ++ t :: after) = some t := by
  unfold serving?
  rcases find?_insert (fun t => !t.isDynamic && t.raw == path) before after t with hstatic | hstatic
  · rw [hstatic]
    cases (before ++ after).find? fun t => !t.isDynamic && t.raw == path with
    | some other => exact Or.inl rfl
    | none =>
      rw [Option.none_or, Option.none_or, List.find?_filter, List.find?_filter]
      exact find?_insert _ before after t
  · rw [hstatic]
    exact Or.inr rfl

/-- A template without an optional catch-all at its end is not looked at by the law. -/
theorem endsOptionally_append_iff {all : List Standing} {s : Standing}
    (h : s.rank ≠ Kind.optionalCatchAll.rank) (path : List Key) :
    EndsOptionally (all ++ [s]) path ↔ EndsOptionally all path := by
  unfold EndsOptionally
  constructor
  · intro hends
    obtain ⟨t, ht, hpath, hrank⟩ := hends
    rcases List.mem_append.mp ht with ht | ht
    · exact ⟨t, ht, hpath, hrank⟩
    · obtain rfl := List.mem_singleton.mp ht
      exact absurd hrank h
  · intro hends
    obtain ⟨t, ht, hpath, hrank⟩ := hends
    exact ⟨t, List.mem_append_left _ ht, hpath, hrank⟩

/-- Routes are in canonical order if each of them precedes those after it. -/
theorem eq_canonicalOrder_of_pairwise {routes ordered : List String} (hperm : ordered.Perm routes)
    (h : ordered.Pairwise fun r s => Precedes ((routes.map parse).map Template.standing)
      (parse r).standing (parse s).standing) :
    ordered = canonicalOrder (routes.map parse) := by
  obtain ⟨hcanonical, hpairwise⟩ := pairwise_canonicalOrder_parse routes
  refine List.Perm.eq_of_pairwise (fun r s _ _ hrs hsr => ?_) h hpairwise
    (hperm.trans hcanonical.symm)
  exact congrArg Standing.raw (hrs.antisymm hsr)

/-- Without the new route the order is the one of the routes before. -/
theorem canonicalOrder_of_insert {routes : List String} {added : String}
    (hkind : (parse added).lastKind ≠ .optionalCatchAll) {before after : List String}
    (h : canonicalOrder ((routes ++ [added]).map parse) = before ++ added :: after) :
    before ++ after = canonicalOrder (routes.map parse) := by
  obtain ⟨hperm, hpairwise⟩ := pairwise_canonicalOrder_parse (routes ++ [added])
  rw [h] at hperm hpairwise
  apply eq_canonicalOrder_of_pairwise
  · have hcons : (added :: (before ++ after)).Perm (added :: routes) :=
      (List.perm_middle.symm.trans hperm).trans (List.perm_append_singleton added routes)
    exact hcons.cons_inv
  · have hsublist : (before ++ after).Sublist (before ++ added :: after) :=
      List.Sublist.append_left (List.sublist_cons_self added after) before
    refine (hpairwise.sublist hsublist).imp fun {r s} hrs => ?_
    rw [List.map_append, List.map_append] at hrs
    have hrank : (parse added).standing.rank ≠ Kind.optionalCatchAll.rank :=
      fun hrank => hkind (Kind.rank_eq_optionalCatchAll.mp hrank)
    exact (precedes_congr_of_ends (endsOptionally_append_iff hrank) _ _).mp hrs

theorem Template.readAll_of_permissive {settings : Settings} (h : settings.strict = false)
    (routes : List String) : readAll settings routes = .ok (routes.map parse) := by
  refine readAll_eq_ok_iff.mpr ⟨rfl, fun raw _ => ?_⟩
  rw [read, h]
  rfl

namespace Table

theorem resolve_ofRoutes_append {routes : List String} {added : String}
    (hkind : (parse added).lastKind ≠ .optionalCatchAll) (settings : Settings) (path : String) :
    (ofRoutes settings (routes ++ [added])).resolve path =
        (ofRoutes settings routes).resolve path ∨
      (ofRoutes settings (routes ++ [added])).resolve path = some added := by
  have hmem : added ∈ (ofRoutes settings (routes ++ [added])).routes :=
    mem_routes_ofRoutes.mpr (List.mem_append_right _ (List.mem_singleton_self added))
  obtain ⟨before, after, hsplit⟩ := List.append_of_mem hmem
  have hroutes : (ofRoutes settings routes).routes = before ++ after :=
    (canonicalOrder_of_insert hkind hsplit).symm
  rw [resolve_ofRoutes, resolve_ofRoutes, hsplit, hroutes, List.map_append, List.map_append,
    List.map_cons]
  rcases Template.serving?_insert path (before.map parse) (after.map parse) (parse added)
    with h | h
  · exact Or.inl (congrArg _ h)
  · rw [h]
    exact Or.inr rfl

end Table

/-- On faithful routers, adding a route that does not end in an optional catch-all puts it among the
sorted routes and moves none of them, whichever of its occurrences is taken for the new one; and of
the two tables, the larger one resolves each path as the smaller one does or to the new route. -/
theorem added_route_takes_paths_only_for_itself (routes : List String) (added : String)
    (settings : Settings) (path : String) (router router' : Router) (h : router.Faithful)
    (h' : router'.Faithful) (hpermissive : settings.strict = false)
    (hkind : (parse added).lastKind ≠ .optionalCatchAll) :
    (∃ table after table' after',
      (Table.build routes settings).run router = (.ok table, after) ∧
      (Table.build (routes ++ [added]) settings).run router' = (.ok table', after') ∧
      (table'.resolve path = table.resolve path ∨ table'.resolve path = some added)) ∧
    ∃ ordered after ordered' after',
      (Routing.sortRoutes routes settings).run router = (.ok ordered, after) ∧
      (Routing.sortRoutes (routes ++ [added]) settings).run router' = (.ok ordered', after') ∧
      added ∈ ordered' ∧
      ∀ front back, ordered' = front ++ added :: back → front ++ back = ordered := by
  have hread := Template.readAll_of_permissive hpermissive routes
  have hread' := Template.readAll_of_permissive hpermissive (routes ++ [added])
  constructor
  · obtain ⟨after, hbuild, _⟩ := Table.run_build hread h
    obtain ⟨after', hbuild', _⟩ := Table.run_build hread' h'
    exact ⟨_, after, _, after', hbuild, hbuild',
      Table.resolve_ofRoutes_append hkind settings path⟩
  · refine ⟨_, _, _, _, Routing.run_sortRoutes hread router, Routing.run_sortRoutes hread' router',
      ?_, fun front back hsplit => canonicalOrder_of_insert hkind hsplit⟩
    exact (pairwise_canonicalOrder_parse _).1.mem_iff.mpr
      (List.mem_append_right _ (List.mem_singleton_self added))

/-- A parameter added below an optional catch-all takes over the paths with one component. -/
theorem added_page_takes_paths_only_for_itself :
    (∃ table after table' after',
      (Table.build ["/docs/[[...path]]", "/docs/new"] .standard).run .empty = (.ok table, after) ∧
      (Table.build ["/docs/[[...path]]", "/docs/new", "/docs/[page]"] .standard).run .empty =
        (.ok table', after') ∧
      (table'.resolve "/docs/intro" = table.resolve "/docs/intro" ∨
        table'.resolve "/docs/intro" = some "/docs/[page]")) ∧
    ∃ ordered after ordered' after',
      (Routing.sortRoutes ["/docs/[[...path]]", "/docs/new"] .standard).run .empty =
        (.ok ordered, after) ∧
      (Routing.sortRoutes ["/docs/[[...path]]", "/docs/new", "/docs/[page]"] .standard).run
        .empty = (.ok ordered', after') ∧
      "/docs/[page]" ∈ ordered' ∧
      ∀ front back, ordered' = front ++ "/docs/[page]" :: back → front ++ back = ordered :=
  added_route_takes_paths_only_for_itself ["/docs/[[...path]]", "/docs/new"] "/docs/[page]"
    .standard "/docs/intro" .empty .empty Router.faithful_empty Router.faithful_empty rfl
    (by decide)

end PathRouter
