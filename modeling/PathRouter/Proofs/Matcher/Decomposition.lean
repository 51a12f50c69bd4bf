import Mathlib.Data.List.Forall2
import PathRouter.Matcher

/-!
# Decompositions

What it means that a template serves a path, said without expressions: the path is cut into one
stretch for each segment, and a slash may be left over at the end. Of several decompositions the
first one counts, where segments are compared from left to right: an optional catch-all rather
takes part than not, and a shorter stretch comes before a longer one.
-/
namespace PathRouter

/-- The texts that a segment takes from a path, with the slash before them. -/
def Segment.Takes (segment : Segment) (text : List Char) : Prop :=
  match segment.kind with
  | .literal => text = '/' :: segment.value.toList
  | .param | .optionalParam => ∃ part ≠ [], '/' ∉ part ∧ text = '/' :: part
  | .catchAll => ∃ part ≠ [], '\n' ∉ part ∧ text = '/' :: part
  | .optionalCatchAll => text = [] ∨ ∃ part ≠ [], '\n' ∉ part ∧ text = '/' :: part

def Decomposes : List Segment → List Char → Prop
  | [], path => path = [] ∨ path = ['/']
  | segment :: rest, path =>
    ∃ text after, path = text ++ after ∧ segment.Takes text ∧ Decomposes rest after

/-- A path cut into one text for each segment and what is left over. The text of an optional
catch-all that takes no part is empty. -/
structure Decomposition (segments : List Segment) (path : List Char) where
  texts : List (List Char)
  rest : List Char
  taken : List.Forall₂ Segment.Takes segments texts
  rest_eq : rest = [] ∨ rest = ['/']
  path_eq : path = texts.flatten ++ rest

/-- Whether a text comes before another one for the same segment. -/
def Preferred (a b : List Char) : Prop := a ≠ [] ∧ (b = [] ∨ a.length < b.length)

/-- Whether no other decomposition comes before this one. -/
def Decomposition.First {segments : List Segment} {path : List Char}
    (d : Decomposition segments path) : Prop :=
  ∀ other : Decomposition segments path,
    other.texts = d.texts ∨ List.Lex Preferred d.texts other.texts

/-- What the dynamic segments capture: their texts without the slash, or nothing where an optional
catch-all takes no part. -/
def captures : List Segment → List (List Char) → List (Option String)
  | segment :: rest, text :: texts =>
    if segment.isDynamic then text.tail?.map String.ofList :: captures rest texts
    else captures rest texts
  | _, _ => []

namespace Segment

variable {segment : Segment} {text : List Char}

theorem takes_of_literal (h : segment.isDynamic = false) :
    segment.Takes text ↔ text = '/' :: segment.value.toList := by
  unfold isDynamic at h
  unfold Takes
  cases hkind : segment.kind <;> simp_all [Kind.isDynamic]

theorem takes_of_single (h : segment.isDynamic = true) (hs : segment.repeats = false) :
    segment.Takes text ↔ ∃ part ≠ [], '/' ∉ part ∧ text = '/' :: part := by
  unfold isDynamic at h
  unfold repeats at hs
  unfold Takes
  cases hkind : segment.kind <;> simp_all [Kind.isDynamic, Kind.repeats]

end Segment

/-- The first segments take texts from the path, and the others decompose what is left. -/
theorem decomposes_append_iff {front back : List Segment} {path : List Char} :
    Decomposes (front ++ back) path ↔ ∃ texts after, List.Forall₂ Segment.Takes front texts ∧
      Decomposes back after ∧ path = texts.flatten ++ after := by
  induction front generalizing path with
  | nil =>
    constructor
    · exact fun h => ⟨[], path, .nil, h, rfl⟩
    · intro h
      obtain ⟨_, after, taken, hback, rfl⟩ := h
      cases taken
      exact hback
  | cons segment front ih =>
    constructor
    · intro h
      obtain ⟨text, later, rfl, htext, hlater⟩ := h
      obtain ⟨texts, after, taken, hback, rfl⟩ := ih.mp hlater
      exact ⟨text :: texts, after, .cons htext taken, hback, by simp⟩
    · intro h
      obtain ⟨_, after, taken, hback, rfl⟩ := h
      cases taken with
      | @cons _ text _ texts htext taken =>
        exact ⟨text, texts.flatten ++ after, by simp, htext,
          ih.mpr ⟨texts, after, taken, hback, rfl⟩⟩

theorem decomposes_iff_nonempty {segments : List Segment} {path : List Char} :
    Decomposes segments path ↔ Nonempty (Decomposition segments path) := by
  rw [← List.append_nil segments, decomposes_append_iff, List.append_nil]
  constructor
  · intro h
    obtain ⟨texts, rest, taken, hrest, hpath⟩ := h
    exact ⟨⟨texts, rest, taken, hrest, hpath⟩⟩
  · intro h
    obtain ⟨texts, rest, taken, hrest, hpath⟩ := h
    exact ⟨texts, rest, taken, hrest, hpath⟩

end PathRouter
