import PathRouter.Template

/-!
# Key paths

What decides the place of a template in the canonical order: the keys of its segments, where all
dynamic segments count as one key, and the kind of its last segment. Segments without text, which
stem from doubled or trailing slashes, decide nothing.
-/
namespace PathRouter

open Text (quoted)

inductive Key
  | literal (text : String)
  | slot
  deriving DecidableEq, Repr

def Key.describe : Key → String
  | literal text => "LiteralKey(text=" ++ quoted text ++ ")"
  | slot => "DYNAMIC_SLOT"

def Segment.key (segment : Segment) : Key :=
  if segment.isDynamic then .slot else .literal segment.value

theorem Segment.key_eq (segment : Segment) :
    segment.key = if segment.kind = .literal then .literal segment.value else .slot := by
  unfold key isDynamic
  cases segment.kind <;> rfl

namespace Template

/-- The segments that have text. -/
def filled (template : Template) : List Segment := template.segments.filter (·.value != "")

def keyPath (template : Template) : List Key := template.filled.map Segment.key

/-- The kind of the last segment that has text; a template without one counts as literal. -/
def lastKind (template : Template) : Kind := (template.filled.getLast?.map (·.kind)).getD .literal

theorem filled_eq_filter (template : Template) :
    template.filled = template.segments.filter (·.value ≠ "") := by
  refine List.filter_congr fun s _ => ?_
  rw [Bool.eq_iff_iff, bne_iff_ne, decide_eq_true_iff]

theorem keyPath_eq (template : Template) :
    template.keyPath = (template.segments.filter (·.value ≠ "")).map fun s =>
      if s.kind = .literal then .literal s.value else .slot := by
  rw [keyPath, filled_eq_filter]
  exact List.map_congr_left fun s _ => s.key_eq

theorem filter_eq_nil_of_textless {segments : List Segment} (h : ∀ s ∈ segments, s.value = "") :
    segments.filter (·.value ≠ "") = [] := by
  rw [List.filter_eq_nil_iff]
  intro s hs
  simpa using h s hs

theorem lastKind_eq_literal {template : Template} (h : ∀ s ∈ template.segments, s.value = "") :
    template.lastKind = .literal := by
  rw [lastKind, filled_eq_filter, filter_eq_nil_of_textless h]
  rfl

/-- The segments behind the last one that has text change nothing. -/
theorem lastKind_eq_kind {template : Template} {front back : List Segment} {segment : Segment}
    (hsegments : template.segments = front ++ segment :: back) (hvalue : segment.value ≠ "")
    (hback : ∀ s ∈ back, s.value = "") : template.lastKind = segment.kind := by
  have hfilled : template.filled = front.filter (·.value ≠ "") ++ [segment] := by
    rw [filled_eq_filter, hsegments, List.filter_append, List.filter_cons,
      if_pos (decide_eq_true hvalue), filter_eq_nil_of_textless hback]
  rw [lastKind, hfilled, List.getLast?_concat]
  rfl

end Template

/-- A template in the place where its key path ends. -/
structure Ending where
  kind : Kind
  raw : String
  deriving DecidableEq, Repr

def Template.ending (template : Template) : Ending := ⟨template.lastKind, template.raw⟩

/-- The lower rank is tried first among templates with one key path. -/
def Kind.rank : Kind → Nat
  | literal => 0
  | optionalCatchAll => 1
  | param | optionalParam => 2
  | catchAll => 3

/-- Whether `a` may stand before `b`: by rank, then by text. -/
def Ending.notAfter (a b : Ending) : Bool :=
  a.kind.rank < b.kind.rank || (a.kind.rank == b.kind.rank && a.raw ≤ b.raw)

theorem Ending.notAfter_total (a b : Ending) : (a.notAfter b || b.notAfter a) = true := by
  have ht := String.le_total a.raw b.raw
  simp only [notAfter, Bool.or_eq_true, Bool.and_eq_true, decide_eq_true_eq, beq_iff_eq]
  rcases Nat.lt_trichotomy a.kind.rank b.kind.rank with h | h | h
  · exact Or.inl (Or.inl h)
  · rcases ht with ht | ht
    · exact Or.inl (Or.inr ⟨h, ht⟩)
    · exact Or.inr (Or.inr ⟨h.symm, ht⟩)
  · exact Or.inr (Or.inl h)

theorem Ending.notAfter_trans (a b c : Ending) (hab : a.notAfter b = true)
    (hbc : b.notAfter c = true) : a.notAfter c = true := by
  simp only [notAfter, Bool.or_eq_true, Bool.and_eq_true, decide_eq_true_eq, beq_iff_eq] at *
  rcases hab with h | ⟨h, ht⟩
  · rcases hbc with h' | ⟨h', _⟩ <;> exact Or.inl (by omega)
  · rcases hbc with h' | ⟨h', ht'⟩
    · exact Or.inl (by omega)
    · exact Or.inr ⟨h.trans h', String.le_trans ht ht'⟩

end PathRouter
