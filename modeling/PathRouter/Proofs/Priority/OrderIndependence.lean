import PathRouter.Proofs.Dispatch.Sorting
import PathRouter.Proofs.Priority.CanonicalOrder

/-!
# Independence of the input order

Sorting loses no route and invents none, and routes given in another order are sorted to the same
list.
-/
namespace PathRouter

theorem perm_raw_flatten (templates : List Template) :
    (Tree.ofTemplates templates).flatten.Perm (templates.map (·.raw)) := by
  obtain ⟨order, hperm, hraw, _⟩ := exists_canonicalOrder templates
  have h := hperm.map (·.raw)
  rw [hraw] at h
  exact h

/-- Routes that can be read in one order can be read in any other. -/
theorem Template.readAll_perm {settings : Settings} {routes routes' : List String}
    (h : routes'.Perm routes) (hread : readAll settings routes = .ok (routes.map parse)) :
    readAll settings routes' = .ok (routes'.map parse) := by
  obtain ⟨_, hall⟩ := readAll_eq_ok_iff.mp hread
  exact readAll_eq_ok_iff.mpr ⟨rfl, fun raw hraw => hall raw (h.mem_iff.mp hraw)⟩

/-- Reading a tree gives the texts of the inserted templates, each as often as it was inserted, and
the same list after any order of insertions. So sorting routes permutes them and looks at nothing
else than which routes there are. -/
theorem flatten_perm_of_any_insertion_order (templates : List Template) (routes : List String)
    (settings : Settings) (router : Router) :
    (Tree.ofTemplates templates).flatten.Perm (templates.map (·.raw)) ∧
      (Tree.ofTemplates templates).flatten.length = (Tree.ofTemplates templates).size ∧
      (∀ templates' : List Template, templates'.Perm templates →
        (Tree.ofTemplates templates').flatten = (Tree.ofTemplates templates).flatten) ∧
      ∀ (ordered : List String) (after : Router),
        (Routing.sortRoutes routes settings).run router = (.ok ordered, after) →
          ordered.Perm routes ∧ ∀ routes' : List String, routes'.Perm routes →
            (Routing.sortRoutes routes' settings).run router = (.ok ordered, after) := by
  have hperm := perm_raw_flatten templates
  refine ⟨hperm, ?_, fun _ h => canonicalOrder_congr h, ?_⟩
  · rw [hperm.length_eq, List.length_map, Tree.size_ofTemplates]
  intro ordered after hrun
  cases hread : Template.readAll settings routes with
  | error fault =>
    rw [Routing.run_sortRoutes_of_refused hread] at hrun
    cases hrun
  | ok read =>
    obtain ⟨rfl, _⟩ := Template.readAll_eq_ok_iff.mp hread
    rw [Routing.run_sortRoutes hread] at hrun
    obtain ⟨rfl, rfl⟩ := hrun
    refine ⟨?_, fun routes' hroutes => ?_⟩
    · have h := perm_raw_flatten (routes.map Template.parse)
      rw [List.map_map] at h
      exact h.trans (.of_eq (List.map_id routes))
    · rw [Routing.run_sortRoutes (Template.readAll_perm hroutes hread),
        canonicalOrder_congr (hroutes.map Template.parse)]

end PathRouter
