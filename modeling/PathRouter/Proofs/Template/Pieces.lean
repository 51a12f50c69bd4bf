import PathRouter.Proofs.Matcher.Components
import PathRouter.Proofs.Template.Grammar

/-!
# Pieces

A route is its pieces, each after a slash. Nothing but the pieces gives the route that way, so a
path can be cut at its slashes whenever it is known as components.
-/
namespace PathRouter

theorem render_eq_cons_intercalate {components : List (List Char)} (h : components ≠ []) :
    render components = '/' :: ['/'].intercalate components := by
  induction components with
  | nil => exact absurd rfl h
  | cons part components ih =>
    cases components with
    | nil => simp
    | cons next components =>
      rw [render_cons, ih (List.cons_ne_nil _ _), List.intercalate_cons_cons]
      simp

theorem render_splitOn (text : List Char) : render (text.splitOn '/') = '/' :: text := by
  rw [render_eq_cons_intercalate (List.splitOn_ne_nil _ _), List.intercalate_splitOn]

theorem render_pieces {raw : String} (h : raw.toList.head? = some '/') :
    render (pieces raw) = raw.toList := by
  obtain ⟨tail, htail⟩ := List.head?_eq_some_iff.mp h
  rw [pieces, render_splitOn, htail, List.tail_cons]

theorem slash_not_mem_piece {raw : String} {text : List Char} (h : text ∈ pieces raw) :
    '/' ∉ text :=
  Template.not_mem_of_mem_splitOn h

theorem pieces_eq_of_render {raw : String} {components : List (List Char)}
    (hne : components ≠ []) (hslash : ∀ part ∈ components, '/' ∉ part)
    (h : raw.toList = render components) : pieces raw = components := by
  rw [pieces, h, render_eq_cons_intercalate hne, List.tail_cons,
    List.splitOn_intercalate '/' hslash hne]

end PathRouter
