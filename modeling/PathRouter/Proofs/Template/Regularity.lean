import PathRouter.Priority.Key
import PathRouter.Proofs.Matcher.Cuts
import PathRouter.Proofs.Template.Pieces

/-!
# Regular routes

Routes that strict reading passes and that have neither a line break nor a segment without text.
What they come to is that the text of a route is its segments, each after a slash, and that only
the last segment may hold more than one component of a path.
-/
namespace PathRouter

structure Regular (route : String) : Prop where
  valid : (Template.parse route).validate = .ok (Template.parse route)
  oneLine : '\n' ∉ route.toList
  filled : ∀ segment ∈ (Template.parse route).segments, segment.value ≠ ""

/-- The shape of a template that is read from a regular route. -/
structure Template.Trim (template : Template) : Prop where
  ne_nil : template.segments ≠ []
  filled : ∀ segment ∈ template.segments, segment.value ≠ ""
  plain : ∀ segment ∈ template.segments, IsPlain segment.value.toList
  single : ∀ segment ∈ template.segments.dropLast, segment.repeats = false
  text : template.raw.toList = render (template.segments.map fun s => s.value.toList)

theorem Regular.trim {route : String} (h : Regular route) : (Template.parse route).Trim := by
  obtain ⟨hvalid, hline, hfilled⟩ := h
  have hdefect := (Template.validate_eq_ok_iff.mp hvalid).1
  unfold Template.defect? at hdefect
  split at hdefect
  · rename_i hslash
    have hparts := Template.map_value_parse route
    have hne : (Template.parse route).segments.map (fun s => s.value.toList) ≠ [] := by
      rw [hparts]
      exact List.splitOn_ne_nil _ _
    have htext : route.toList = render
        ((Template.parse route).segments.map fun s => s.value.toList) := by
      rw [hparts]
      exact (render_pieces (beq_iff_eq.mp hslash)).symm
    refine ⟨fun hnil => hne (by rw [hnil, List.map_nil]), hfilled, ?_, ?_, htext⟩
    · intro segment hsegment
      have hpart := List.mem_map_of_mem (f := fun s : Segment => s.value.toList) hsegment
      refine ⟨Template.slash_not_mem_value hsegment, fun hmem => hline ?_⟩
      rw [htext]
      exact List.mem_flatMap.mpr ⟨_, hpart, List.mem_cons_of_mem _ hmem⟩
    · have hsegments : (Template.parse route).segments ≠ [] := fun hnil => hne (by rw [hnil]; rfl)
      have hnamed := Template.named_parse route
      unfold Template.Named at hnamed
      rw [← List.dropLast_append_getLast hsegments] at hdefect hnamed
      exact Segment.single_of_segmentsDefect?_eq_none hdefect hnamed
        (hfilled _ (List.getLast_mem hsegments))
  · cases hdefect

namespace Template.Trim

variable {template : Template} (h : template.Trim)
include h

theorem filled_eq : template.filled = template.segments :=
  List.filter_eq_self.mpr fun segment hsegment => bne_iff_ne.mpr (h.filled segment hsegment)

theorem keyPath_eq : template.keyPath = template.segments.map Segment.key := by
  rw [keyPath, h.filled_eq]

theorem lastKind_eq : template.lastKind = (template.segments.getLast h.ne_nil).kind := by
  rw [lastKind, h.filled_eq, List.getLast?_eq_some_getLast h.ne_nil]
  rfl

/-- The segments before some other segment are single. -/
theorem single_of_eq_append {front back : List Segment} {segment : Segment}
    (hsegments : template.segments = front ++ segment :: back) :
    ∀ s ∈ front, s.repeats = false := by
  intro s hs
  apply h.single s
  rw [hsegments, List.dropLast_append_cons]
  exact List.mem_append_left _ hs

/-- A segment that is not single is the last one. -/
theorem eq_nil_of_repeats {front back : List Segment} {segment : Segment}
    (hsegments : template.segments = front ++ segment :: back) (hs : segment.repeats = true) :
    back = [] := by
  cases back with
  | nil => rfl
  | cons next back =>
    have hsplit : template.segments = (front ++ [segment]) ++ next :: back := by simp [hsegments]
    have hsingle := h.single_of_eq_append hsplit segment (by simp)
    rw [hs] at hsingle
    cases hsingle

theorem accepts_render_iff {components : List (List Char)}
    (hcomponents : ∀ part ∈ components, IsPlain part) :
    template.matcher.accepts (String.ofList (render components)) = true ↔
      Fits template.segments components := by
  rw [accepts_matcher_iff, String.toList_ofList]
  exact decomposes_render_iff (fun segment hsegment _ => (h.plain segment hsegment).1) hcomponents

end Template.Trim

theorem Template.readAll_of_regular {routes : List String} (h : ∀ route ∈ routes, Regular route)
    (settings : Settings) : readAll settings routes = .ok (routes.map parse) := by
  refine readAll_eq_ok_iff.mpr ⟨rfl, fun route hroute => ?_⟩
  unfold read
  split
  · exact (h route hroute).valid
  · rfl

end PathRouter
