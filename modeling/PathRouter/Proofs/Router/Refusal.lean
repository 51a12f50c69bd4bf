import PathRouter.Proofs.Router.Faithfulness

/-!
# Refusals

Every operation that is given routes reads all of them before it does anything else. So strict
settings make no difference to routes that strict reading passes, and a route that it refuses leaves
the router as it was, wherever the route stands and whatever the router keeps.
-/
namespace PathRouter

open Template (parse read readAll)

/-- Let the settings be alike but for strictness. If strict reading passes every route, each
operation ends the same way with both settings and does the same to the router; tables differ only
in the settings that they hold. Otherwise each operation with the strict settings ends with the
fault of the first route that is refused, and does nothing to the router. -/
theorem strict_settings_only_refuse (routes : List String) (path : String) (decode : Bool)
    (router : Router) :
    ((∀ raw ∈ routes, (parse raw).validate = .ok (parse raw)) →
      (Routing.resolve path routes ⟨true, decode⟩).run router =
        (Routing.resolve path routes ⟨false, decode⟩).run router ∧
      (Routing.matchRoute path routes ⟨true, decode⟩).run router =
        (Routing.matchRoute path routes ⟨false, decode⟩).run router ∧
      (Routing.sortRoutes routes ⟨true, decode⟩).run router =
        (Routing.sortRoutes routes ⟨false, decode⟩).run router ∧
      (Table.build routes ⟨true, decode⟩).run router =
        (do return { (← Table.build routes ⟨false, decode⟩) with settings := ⟨true, decode⟩ } :
          Routing Table).run router) ∧
    ((¬ ∀ raw ∈ routes, (parse raw).validate = .ok (parse raw)) →
      ∃ front bad back reason, routes = front ++ bad :: back ∧
        (∀ raw ∈ front, (parse raw).validate = .ok (parse raw)) ∧
        (parse bad).validate = .error (.invalidRoute bad reason) ∧
        (Routing.resolve path routes ⟨true, decode⟩).run router =
          (.error (.invalidRoute bad reason), router) ∧
        (Routing.matchRoute path routes ⟨true, decode⟩).run router =
          (.error (.invalidRoute bad reason), router) ∧
        (Routing.sortRoutes routes ⟨true, decode⟩).run router =
          (.error (.invalidRoute bad reason), router) ∧
        (Table.build routes ⟨true, decode⟩).run router =
          (.error (.invalidRoute bad reason), router)) := by
  constructor
  · intro hvalid
    have hread : readAll ⟨true, decode⟩ routes = readAll ⟨false, decode⟩ routes := by
      have hstrict : readAll ⟨true, decode⟩ routes = .ok (routes.map parse) :=
        Template.readAll_eq_ok_iff.mpr ⟨rfl, hvalid⟩
      have hpermissive : readAll ⟨false, decode⟩ routes = .ok (routes.map parse) :=
        Template.readAll_eq_ok_iff.mpr ⟨rfl, fun _ _ => rfl⟩
      rw [hstrict, hpermissive]
    refine ⟨?_, ?_, ?_, ?_⟩
    · rw [Routing.resolve, hread, Routing.resolve]
    · rw [Routing.matchRoute, hread, Routing.matchRoute]
    · rw [Routing.sortRoutes, hread, Routing.sortRoutes]
    · rw [Table.build, hread, Table.build]
      simp only [bind_assoc, pure_bind]
  · intro hinvalid
    have hrefused : ¬ ∀ raw ∈ routes, read ⟨true, decode⟩ raw = .ok (parse raw) := hinvalid
    obtain ⟨front, bad, back, rfl, hfront, hbad⟩ := Template.exists_first_refused hrefused
    obtain ⟨reason, hreason⟩ := Template.exists_reason_of_validate hbad
    have hrun : (liftM (readAll ⟨true, decode⟩ (front ++ bad :: back)) :
        Routing (List Template)).run router = (.error (.invalidRoute bad reason), router) := by
      rw [Template.readAll_of_refused hfront hreason]
      rfl
    exact ⟨front, bad, back, reason, rfl, hfront, hreason, Routing.run_bind_of_error hrun,
      Routing.run_bind_of_error hrun, Routing.run_bind_of_error hrun,
      Routing.run_bind_of_error hrun⟩

/-- The last route is refused before the one that serves the path is compiled. -/
theorem late_defect_is_refused_first :
    ∃ reason, (Routing.resolve "/users/7" ["/users/[id]", "/[]"] ⟨true, true⟩).run .empty =
      (.error (.invalidRoute "/[]" reason), .empty) := by
  have hvalid : (parse "/users/[id]").validate = .ok (parse "/users/[id]") := rfl
  have hinvalid : (parse "/[]").validate ≠ .ok (parse "/[]") := nofun
  obtain ⟨front, bad, back, reason, hsplit, _, hbad, hresolve, _⟩ :=
    (strict_settings_only_refuse ["/users/[id]", "/[]"] "/users/7" true .empty).2
      fun h => hinvalid (h "/[]" (by decide))
  have hmem : bad ∈ ["/users/[id]", "/[]"] := by
    rw [hsplit]
    exact List.mem_append_right _ List.mem_cons_self
  simp only [List.mem_cons, List.not_mem_nil, or_false] at hmem
  rcases hmem with rfl | rfl
  · rw [hvalid] at hbad
    cases hbad
  · exact ⟨reason, hresolve⟩

end PathRouter
