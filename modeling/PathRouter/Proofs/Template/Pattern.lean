import PathRouter.Proofs.Template.Regularity

/-!
# Patterns

What decides which paths a template serves: its segments in order, each as the text of a literal or
as a dynamic kind, where a parameter in double brackets is a parameter like any other.
-/
namespace PathRouter

inductive Shape
  | literal (text : String)
  | param
  | catchAll
  | optionalCatchAll
  deriving DecidableEq, Repr

def Segment.shape (segment : Segment) : Shape :=
  match segment.kind with
  | .literal => .literal segment.value
  | .param | .optionalParam => .param
  | .catchAll => .catchAll
  | .optionalCatchAll => .optionalCatchAll

def Template.pattern (template : Template) : List Shape := template.segments.map Segment.shape

namespace Segment

theorem takes_congr {a b : Segment} (h : a.shape = b.shape) (text : List Char) :
    a.Takes text ↔ b.Takes text := by
  unfold shape at h
  unfold Takes
  cases ha : a.kind <;> cases hb : b.kind <;> simp_all

theorem shape_eq_of_key_eq {a b : Segment} (hkey : a.key = b.key)
    (hrank : a.kind.rank = b.kind.rank) : a.shape = b.shape := by
  unfold key isDynamic at hkey
  unfold shape
  cases ha : a.kind <;> cases hb : b.kind <;> simp_all [Kind.isDynamic, Kind.rank]

/-- The key says all of a segment that holds one component. -/
theorem rank_eq_of_single {a b : Segment} (hkey : a.key = b.key) (ha : a.repeats = false)
    (hb : b.repeats = false) : a.kind.rank = b.kind.rank := by
  unfold key isDynamic at hkey
  unfold repeats at ha hb
  cases ha : a.kind <;> cases hb : b.kind <;> simp_all [Kind.isDynamic, Kind.repeats, Kind.rank]

theorem map_shape_eq {as bs : List Segment} (hkeys : as.map key = bs.map key)
    (has : ∀ s ∈ as.dropLast, s.repeats = false) (hbs : ∀ s ∈ bs.dropLast, s.repeats = false)
    (hlast : as.getLast?.map (·.kind.rank) = bs.getLast?.map (·.kind.rank)) :
    as.map shape = bs.map shape := by
  induction as generalizing bs with
  | nil =>
    have hnil : bs = [] := List.map_eq_nil_iff.mp hkeys.symm
    rw [hnil]
  | cons a as ih =>
    obtain ⟨b, bs, rfl, hkey, hkeys⟩ := List.map_eq_cons_iff.mp hkeys.symm
    cases as with
    | nil =>
      obtain rfl : bs = [] := List.map_eq_nil_iff.mp hkeys
      have hrank : a.kind.rank = b.kind.rank := Option.some.inj hlast
      rw [List.map_singleton, List.map_singleton, shape_eq_of_key_eq hkey.symm hrank]
    | cons a' as =>
      obtain ⟨b', bs, rfl, hkey', hkeys'⟩ := List.map_eq_cons_iff.mp hkeys
      rw [List.dropLast_cons_cons] at has hbs
      rw [List.getLast?_cons_cons, List.getLast?_cons_cons] at hlast
      obtain ⟨ha, has⟩ := List.forall_mem_cons.mp has
      obtain ⟨hb, hbs⟩ := List.forall_mem_cons.mp hbs
      rw [List.map_cons, List.map_cons (l := b' :: bs),
        shape_eq_of_key_eq hkey.symm (rank_eq_of_single hkey.symm ha hb),
        ih hkeys.symm has hbs hlast]

end Segment

theorem decomposes_congr {as bs : List Segment} (h : as.map Segment.shape = bs.map Segment.shape)
    (path : List Char) : Decomposes as path ↔ Decomposes bs path := by
  induction as generalizing bs path with
  | nil =>
    have hnil : bs = [] := List.map_eq_nil_iff.mp h.symm
    rw [hnil]
  | cons a as ih =>
    obtain ⟨b, bs, rfl, hshape, hrest⟩ := List.map_eq_cons_iff.mp h.symm
    simp only [Decomposes, Segment.takes_congr hshape.symm, ih hrest.symm]

/-- Templates of one pattern serve the same paths. -/
theorem Template.accepts_congr {a b : Template} (h : a.pattern = b.pattern) (path : String) :
    a.matcher.accepts path = true ↔ b.matcher.accepts path = true := by
  rw [accepts_matcher_iff, accepts_matcher_iff, decomposes_congr h]

theorem Template.pattern_eq_of_keyPath_eq {a b : Template} (ha : a.Trim) (hb : b.Trim)
    (hpath : a.keyPath = b.keyPath) (hrank : a.lastKind.rank = b.lastKind.rank) :
    a.pattern = b.pattern := by
  rw [ha.keyPath_eq, hb.keyPath_eq] at hpath
  rw [ha.lastKind_eq, hb.lastKind_eq] at hrank
  apply Segment.map_shape_eq hpath ha.single hb.single
  rw [List.getLast?_eq_some_getLast ha.ne_nil, List.getLast?_eq_some_getLast hb.ne_nil]
  exact congrArg some hrank

end PathRouter
