import PathRouter.Proofs.Priority.Exclusion
import PathRouter.Proofs.Table.Building

/-!
# No dead routes

Every route of a table serves some path, unless an optional catch-all ends where the route ends. A
route without parameters serves its own text, and any other one its probe: the routes that come
before it have other patterns, so they do not serve the probe.
-/
namespace PathRouter

/-- The first of an ordered list with a property, if nothing before it has the property. -/
theorem find?_eq_some_of_pairwise {α : Type} {r : α → α → Prop} {p : α → Bool} {l : List α}
    {a : α} (h : l.Pairwise r) (ha : a ∈ l) (hp : p a = true)
    (hfirst : ∀ b ∈ l, r b a → p b = false) : l.find? p = some a := by
  obtain ⟨front, back, rfl⟩ := List.append_of_mem ha
  refine List.find?_eq_some_iff_append.mpr ⟨hp, front, back, rfl, fun b hb => ?_⟩
  have hbefore := (List.pairwise_append.mp h).2.2 b hb a List.mem_cons_self
  rw [hfirst b (List.mem_append_left _ hb) hbefore]
  rfl

theorem Template.exists_dynamic {template : Template} (h : template.isDynamic = true) :
    ∃ segment ∈ template.segments, segment.key = .slot := by
  obtain ⟨segment, hsegment, hdynamic⟩ := List.any_eq_true.mp h
  exact ⟨segment, hsegment, by rw [Segment.key, if_pos hdynamic]⟩

/-- A probe that a parameter goes into is no route. -/
theorem render_probe_ne {templates : List Template} {token : List Char}
    (htoken : IsToken token templates) {t a : Template} (hmem : t ∈ templates) (ht : t.Trim)
    (ha : a.Trim) (hdynamic : a.isDynamic = true) :
    t.raw ≠ String.ofList (render (a.probe token)) := by
  intro hraw
  have hrender := ht.text
  rw [hraw, String.toList_ofList] at hrender
  have hprobe : a.probe token = t.segments.map fun s => s.value.toList := by
    refine render_inj (fun part hpart => (ha.plain_probe htoken.plain part hpart).1) ?_ hrender
    intro part hpart
    obtain ⟨s, hs, rfl⟩ := List.mem_map.mp hpart
    exact (ht.plain s hs).1
  obtain ⟨d, hd, hslot⟩ := Template.exists_dynamic hdynamic
  have hsample : d.sample token ∈ a.probe token :=
    List.mem_append_left _ (List.mem_map_of_mem hd)
  rw [hprobe] at hsample
  obtain ⟨s, hs, hvalue⟩ := List.mem_map.mp hsample
  have hkey := Segment.key_of_sample_eq (ht.filled s hs) (htoken.fresh t hmem s hs) hvalue.symm
  rw [hslot] at hkey
  cases hkey

namespace Table

variable {settings : Settings} {routes : List String}

theorem resolve_ofRoutes_of_fixed {route : String} (h : route ∈ routes)
    (hstatic : (Template.parse route).isDynamic = false) :
    (ofRoutes settings routes).resolve route = some route := by
  unfold resolve
  exact if_pos (List.contains_iff_mem.mpr (mem_fixed_ofRoutes.mpr ⟨h, hstatic⟩))

/-- A route with parameters serves a path that it accepts, if no route before it does. -/
theorem resolve_ofRoutes_of_dynamic {route path : String} (h : route ∈ routes)
    (hdynamic : (Template.parse route).isDynamic = true)
    (hpath : path ∉ (ofRoutes settings routes).fixed)
    (haccepts : (Template.parse route).matcher.accepts path = true)
    (hfirst : ∀ other ∈ routes, other ≠ route →
      Precedes ((routes.map Template.parse).map Template.standing)
        (Template.parse other).standing (Template.parse route).standing →
      (Template.parse other).matcher.accepts path = false) :
    (ofRoutes settings routes).resolve path = some route := by
  have hsublist := (List.filter_sublist (p := fun route => (Template.parse route).isDynamic)).trans
    (eraseDups_sublist (canonicalOrder (routes.map Template.parse)))
  have hordered := (pairwise_canonicalOrder_parse routes).2.sublist hsublist
  have hnodup := (nodup_eraseDups (canonicalOrder (routes.map Template.parse))).filter
    fun route => (Template.parse route).isDynamic
  have hfind : (ofRoutes settings routes).accepting? path =
      some (Template.parse route).matcher := by
    unfold accepting? ofRoutes
    simp only [List.find?_map]
    rw [find?_eq_some_of_pairwise (a := route) (hordered.and hnodup) ?_ haccepts ?_]
    · rfl
    · exact List.mem_filter.mpr ⟨mem_eraseDups_canonicalOrder.mpr h, hdynamic⟩
    · intro other hother hbefore
      have hmem := mem_eraseDups_canonicalOrder.mp (List.mem_filter.mp hother).1
      exact hfirst other hmem hbefore.2 hbefore.1
  unfold resolve
  rw [if_neg (fun h => hpath (List.contains_iff_mem.mp h)), hfind]
  rfl

/-- A faithful router builds a table in which each of the routes serves some path, if no two of them
have one pattern and no other one ends in an optional catch-all where it ends. -/
theorem every_route_serves_some_path (routes : List String) (settings : Settings)
    (router : Router) (hrouter : router.Faithful) (hregular : ∀ route ∈ routes, Regular route)
    (hpatterns : ∀ route ∈ routes, ∀ other ∈ routes,
      (Template.parse route).pattern = (Template.parse other).pattern → route = other) :
    ∃ table after, (Table.build routes settings).run router = (.ok table, after) ∧
      ∀ a ∈ routes,
        (∀ other ∈ routes, other ≠ a →
          (Template.parse other).keyPath = (Template.parse a).keyPath →
          (Template.parse other).lastKind ≠ .optionalCatchAll) →
        ∃ path, table.resolve path = some a := by
  obtain ⟨after, hbuild, _⟩ :=
    run_build (Template.readAll_of_regular hregular settings) hrouter
  refine ⟨ofRoutes settings routes, after, hbuild, fun a ha hnode => ?_⟩
  cases hdynamic : (Template.parse a).isDynamic with
  | false => exact ⟨a, resolve_ofRoutes_of_fixed ha hdynamic⟩
  | true =>
    obtain ⟨token, htoken⟩ := exists_isToken (routes.map Template.parse)
    have htrim := (hregular a ha).trim
    have hplain := htrim.plain_probe htoken.plain
    refine ⟨String.ofList (render ((Template.parse a).probe token)),
      resolve_ofRoutes_of_dynamic ha hdynamic ?_
        ((htrim.accepts_render_iff hplain).mpr (htrim.fits_probe htoken.ne_nil)) ?_⟩
    · intro hfixed
      obtain ⟨hmem, _⟩ := mem_fixed_ofRoutes.mp hfixed
      exact render_probe_ne htoken (List.mem_map_of_mem hmem) (hregular _ hmem).trim htrim
        hdynamic rfl
    · intro other hother hne hbefore
      rw [Bool.eq_false_iff]
      intro haccepts
      have htrim' := (hregular other hother).trim
      have hunshared : (Template.parse a).Unshared (routes.map Template.parse) := by
        by_cases hkind : (Template.parse a).lastKind = .optionalCatchAll
        · exact Or.inl hkind
        · refine Or.inr fun t ht hpath hkindT => ?_
          obtain ⟨route, hroute, rfl⟩ := List.mem_map.mp ht
          refine hnode route hroute ?_ hpath hkindT
          rintro rfl
          exact hkind hkindT
      exact hne (hpatterns other hother a ha (Template.pattern_eq_of_precedes htoken
        (List.mem_map_of_mem hother) htrim' htrim hunshared
        ((htrim'.accepts_render_iff hplain).mp haccepts) hbefore))

theorem deeper_routes_serve_some_path :
    ∃ table after, (Table.build ["/docs/[[...path]]", "/docs/[page]/edit", "/docs"]
      .standard).run .empty = (.ok table, after) ∧
        ∀ a ∈ ["/docs/[[...path]]", "/docs/[page]/edit", "/docs"],
          ∃ path, table.resolve path = some a := by
  have hregular : ∀ route ∈ ["/docs/[[...path]]", "/docs/[page]/edit", "/docs"],
      Regular route := by
    intro route hroute
    simp only [List.mem_cons, List.not_mem_nil, or_false] at hroute
    rcases hroute with rfl | rfl | rfl <;> exact ⟨by rfl, by decide, by decide⟩
  obtain ⟨table, after, hbuild, hserves⟩ := every_route_serves_some_path _ .standard .empty
    Router.faithful_empty hregular (by decide)
  exact ⟨table, after, hbuild, fun a ha => hserves a ha (by revert a; decide)⟩

end Table

end PathRouter
