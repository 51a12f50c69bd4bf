import PathRouter.Proofs.Dispatch.Sorting
import PathRouter.Proofs.Priority.Exclusion

/-!
# Specificity

In canonical order a route comes before every route that serves all of its paths and others too.
Paths with line breaks are left aside, since a catch-all does not serve them.
-/
namespace PathRouter

/-- Whether the matcher compiled for a route accepts a path. -/
def Serves (route path : String) : Prop :=
  ∃ matcher, (Template.parse route).compile = .ok matcher ∧ matcher.accepts path = true

theorem serves_iff {route path : String} :
    Serves route path ↔ (Template.parse route).matcher.accepts path = true := by
  unfold Serves
  rw [Template.compile_eq]
  constructor
  · intro hserves
    obtain ⟨matcher, hcompile, h⟩ := hserves
    rw [Except.ok.inj hcompile]
    exact h
  · exact fun h => ⟨_, rfl, h⟩

/-- Sorting puts a route before every route that serves all of its paths and others too. By `hnode`
the route `a` ends in an optional catch-all itself, or no route does at the node where `a` ends: one
that did would come before `a` by its rank, and would move `a` behind the routes that go on from
there. -/
theorem specific_routes_come_first (routes : List String) (settings : Settings) (router : Router)
    (a b : String) (hregular : ∀ route ∈ routes, Regular route) (ha : a ∈ routes)
    (hb : b ∈ routes)
    (hsub : ∀ path : String, '\n' ∉ path.toList → Serves a path → Serves b path)
    (hmore : ∃ path : String, '\n' ∉ path.toList ∧ Serves b path ∧ ¬ Serves a path)
    (hnode : (Template.parse a).lastKind = .optionalCatchAll ∨
      ∀ route ∈ routes, (Template.parse route).keyPath = (Template.parse a).keyPath →
        (Template.parse route).lastKind ≠ .optionalCatchAll) :
    ∃ ordered after, (Routing.sortRoutes routes settings).run router = (.ok ordered, after) ∧
      ∀ i j : Nat, ordered[i]? = some a → ordered[j]? = some b → i < j := by
  refine ⟨_, _, Routing.run_sortRoutes (Template.readAll_of_regular hregular settings) router, ?_⟩
  obtain ⟨path, _, hserves, hnot⟩ := hmore
  rw [serves_iff] at hserves hnot
  have hpattern : (Template.parse b).pattern ≠ (Template.parse a).pattern :=
    fun h => hnot ((Template.accepts_congr h path).mp hserves)
  intro i j hi hj
  by_contra hij
  have hne : j ≠ i := by
    rintro rfl
    rw [hi] at hj
    exact hpattern (by rw [Option.some.inj hj])
  obtain ⟨hi', rfl⟩ := List.getElem?_eq_some_iff.mp hi
  obtain ⟨hj', rfl⟩ := List.getElem?_eq_some_iff.mp hj
  have hbefore := List.pairwise_iff_getElem.mp (pairwise_canonicalOrder_parse routes).2 j i hj' hi'
    (by omega)
  -- The later route serves its probe, so the earlier one does; then their patterns are the same.
  obtain ⟨token, htoken⟩ := exists_isToken (routes.map Template.parse)
  have htrimA := (hregular _ ha).trim
  have htrimB := (hregular _ hb).trim
  have hplain := htrimA.plain_probe htoken.plain
  have hprobe := (htrimA.accepts_render_iff hplain).mpr (htrimA.fits_probe htoken.ne_nil)
  have hline := not_mem_render hplain
  rw [← String.toList_ofList (l := render _)] at hline
  have hfits := hsub _ hline (serves_iff.mpr hprobe)
  rw [serves_iff, htrimB.accepts_render_iff hplain] at hfits
  refine hpattern (Template.pattern_eq_of_precedes htoken (List.mem_map_of_mem hb) htrimB htrimA
    ?_ hfits hbefore)
  refine hnode.imp_right fun h other hother => ?_
  obtain ⟨route, hroute, rfl⟩ := List.mem_map.mp hother
  exact h route hroute

theorem literal_comes_before_parameter :
    ∃ ordered after, (Routing.sortRoutes ["/[[...rest]]", "/[x]", "/a"] .standard).run .empty =
      (.ok ordered, after) ∧
        ∀ i j : Nat, ordered[i]? = some "/a" → ordered[j]? = some "/[x]" → i < j := by
  refine specific_routes_come_first _ _ _ "/a" "/[x]" ?_ (by decide) (by decide) ?_ ?_ ?_
  · intro route hroute
    simp only [List.mem_cons, List.not_mem_nil, or_false] at hroute
    rcases hroute with rfl | rfl | rfl <;> exact ⟨by rfl, by decide, by decide⟩
  · intro path _ hpath
    rw [serves_iff, Template.accepts_matcher_iff] at hpath
    obtain ⟨text, after, hsplit, htext, hafter⟩ := hpath
    have htext : text = ['/', 'a'] := htext
    rcases hafter with rfl | rfl
    · obtain rfl : path = "/a" := String.toList_inj.mp (hsplit.trans (by rw [htext]; rfl))
      exact serves_iff.mpr (by decide)
    · obtain rfl : path = "/a/" := String.toList_inj.mp (hsplit.trans (by rw [htext]; rfl))
      exact serves_iff.mpr (by decide)
  · refine ⟨"/b", by decide, serves_iff.mpr (by decide), ?_⟩
    rw [serves_iff]
    decide
  · exact Or.inr (by decide)

end PathRouter
