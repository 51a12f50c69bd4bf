import Mathlib.Tactic.MkIffOfInductiveProp
import PathRouter.Proofs.Template.Reading

/-!
# What strict reading gives

Strict reading looks at each segment alone, at its brackets and its name, and at each two segments:
no parameter name is used twice, and after a catch-all there is nothing but segments without text,
which stem from slashes at the end.
-/
namespace PathRouter

/-- What strict reading takes for a name. -/
@[mk_iff]
structure IsName (name : List Char) : Prop where
  ne_nil : name ≠ []
  head_ne_bracket : name.head? ≠ some '['
  head_ne_dot : name.head? ≠ some '.'
  last_ne_bracket : name.getLast? ≠ some ']'

namespace Segment

theorem nameDefect?_eq_none_iff {earlier : List String} {isLast : Bool} {segment : Segment}
    {name : String} :
    segment.nameDefect? earlier isLast name = none ↔
      IsName name.toList ∧ (segment.repeats = true → isLast = true) ∧ name ∉ earlier := by
  have hname : IsName name.toList ↔ name ≠ "" ∧ startsWith '[' name = false ∧
      startsWith '.' name = false ∧ endsWith ']' name = false := by
    unfold startsWith endsWith
    rw [isName_iff]
    simp
  rw [hname]
  unfold nameDefect?
  split
  · simp_all
  split
  · rename_i hbracket
    simp only [Bool.or_eq_true] at hbracket
    rcases hbracket with h | h <;> simp [h]
  split
  · simp_all
  split
  · simp_all
  split
  · simp_all
  · simp_all

/-- What strict reading asks of a segment, after segments with the names `earlier`. -/
structure Sound (earlier : List String) (segment : Segment) : Prop where
  brackets : segment.bracketDefect? = none
  isName : ∀ name, segment.name = some name → IsName name.toList
  fresh : ∀ name, segment.name = some name → name ∉ earlier
  filled : segment.name.isSome = true → segment.repeats = true → segment.value ≠ ""

/-- What strict reading asks of a segment and a later one. -/
structure Allows (segment later : Segment) : Prop where
  name_ne : ∀ name, segment.name = some name → later.name ≠ some name
  empty : segment.name.isSome = true → segment.repeats = true → later.value = ""

theorem segmentsDefect?_cons_eq_none_iff {earlier : List String} {segment : Segment}
    {rest : List Segment} :
    segmentsDefect? earlier (segment :: rest) = none ↔
      segment.bracketDefect? = none ∧
      (∀ name, segment.name = some name → segment.nameDefect? earlier
        (segment.value != "" && rest.all (·.value == "")) name = none) ∧
      segmentsDefect? (segment.name.toList ++ earlier) rest = none := by
  rw [segmentsDefect?]
  cases segment.bracketDefect? with
  | some defect => simp
  | none =>
    cases segment.name with
    | none => simp
    | some name =>
      cases h : segment.nameDefect? earlier
        (segment.value != "" && rest.all (·.value == "")) name with
      | some defect => simp [h]
      | none => simp [h]

theorem sound_append_iff {name : Option String} {earlier : List String} {segment : Segment} :
    segment.Sound (name.toList ++ earlier) ↔
      segment.Sound earlier ∧ ∀ n, name = some n → segment.name ≠ some n := by
  constructor
  · intro h
    refine ⟨⟨h.brackets, h.isName, fun n hn hmem => ?_, h.filled⟩, fun n hname hn => ?_⟩
    · exact h.fresh n hn (List.mem_append_right _ hmem)
    · exact h.fresh n hn (List.mem_append_left _ (by simp [hname]))
  · intro h
    obtain ⟨hsound, hne⟩ := h
    refine ⟨hsound.brackets, hsound.isName, fun n hn hmem => ?_, hsound.filled⟩
    rcases List.mem_append.mp hmem with hmem | hmem
    · exact hne n (Option.mem_toList.mp hmem) hn
    · exact hsound.fresh n hn hmem

/-- Strict reading finds nothing if each segment is sound and each two go together. -/
theorem segmentsDefect?_eq_none_iff {earlier : List String} {segments : List Segment} :
    segmentsDefect? earlier segments = none ↔
      (∀ segment ∈ segments, segment.Sound earlier) ∧ segments.Pairwise Allows := by
  induction segments generalizing earlier with
  | nil => simp [segmentsDefect?]
  | cons segment rest ih =>
    rw [segmentsDefect?_cons_eq_none_iff, ih, List.forall_mem_cons, List.pairwise_cons]
    simp only [nameDefect?_eq_none_iff, sound_append_iff, Bool.and_eq_true, bne_iff_ne,
      List.all_eq_true, beq_iff_eq]
    constructor
    · intro h
      obtain ⟨hbrackets, hname, hrest, hpairs⟩ := h
      refine ⟨⟨⟨hbrackets, fun n hn => (hname n hn).1, fun n hn => (hname n hn).2.2, ?_⟩,
        fun other hother => (hrest other hother).1⟩, fun other hother => ⟨?_, ?_⟩, hpairs⟩
      · intro hsome hrepeats
        obtain ⟨n, hn⟩ := Option.isSome_iff_exists.mp hsome
        exact ((hname n hn).2.1 hrepeats).1
      · exact (hrest other hother).2
      · intro hsome hrepeats
        obtain ⟨n, hn⟩ := Option.isSome_iff_exists.mp hsome
        exact ((hname n hn).2.1 hrepeats).2 other hother
    · intro h
      obtain ⟨⟨hsound, hrest⟩, hallows, hpairs⟩ := h
      refine ⟨hsound.brackets, fun n hn => ⟨hsound.isName n hn, fun hrepeats => ?_,
        hsound.fresh n hn⟩, fun other hother => ⟨hrest other hother,
        (hallows other hother).name_ne⟩, hpairs⟩
      have hsome : segment.name.isSome = true := by rw [hn]; rfl
      exact ⟨hsound.filled hsome hrepeats,
        fun other hother => (hallows other hother).empty hsome hrepeats⟩

/-- No name is used twice. -/
theorem names_of_segmentsDefect?_eq_none {earlier : List String} {segments : List Segment}
    (h : segmentsDefect? earlier segments = none) : (segments.filterMap name).Nodup := by
  rw [List.nodup_iff_pairwise_ne, List.pairwise_filterMap]
  refine (segmentsDefect?_eq_none_iff.mp h).2.imp fun {a b} hallows n hn m hm e => ?_
  rw [← e] at hm
  exact hallows.name_ne n hn hm

/-- After a catch-all come only segments without text. -/
theorem pairwise_of_segmentsDefect?_eq_none {earlier : List String} {segments : List Segment}
    (h : segmentsDefect? earlier segments = none)
    (hnamed : ∀ segment ∈ segments, segment.name.isSome = segment.isDynamic) :
    segments.Pairwise fun a b => a.repeats = true → b.value = "" := by
  refine (segmentsDefect?_eq_none_iff.mp h).2.imp_of_mem fun {a b} ha _ hallows hrepeats => ?_
  refine hallows.empty ?_ hrepeats
  rw [hnamed a ha]
  unfold repeats at hrepeats
  unfold isDynamic
  cases hkind : a.kind <;> simp_all [Kind.isDynamic, Kind.repeats]

/-- Before a segment with text, every segment holds one component of a path. -/
theorem single_of_segmentsDefect?_eq_none {earlier : List String} {front : List Segment}
    {last : Segment} (h : segmentsDefect? earlier (front ++ [last]) = none)
    (hnamed : ∀ segment ∈ front ++ [last], segment.name.isSome = segment.isDynamic)
    (hfilled : last.value ≠ "") : ∀ segment ∈ front, segment.repeats = false := by
  have hpairs := pairwise_of_segmentsDefect?_eq_none h hnamed
  intro segment hsegment
  have hempty := (List.pairwise_append.mp hpairs).2.2 segment hsegment last List.mem_cons_self
  rw [Bool.eq_false_iff]
  exact fun hrepeats => hfilled (hempty hrepeats)

end Segment

namespace Template

/-- Whether exactly the dynamic segments are named. -/
def Named (template : Template) : Prop :=
  ∀ segment ∈ template.segments, segment.name.isSome = segment.isDynamic

theorem named_parse (raw : String) : (parse raw).Named := by
  intro segment hsegment
  obtain ⟨text, _, rfl⟩ := List.mem_map.mp hsegment
  exact Segment.isSome_name_ofChars text

/-- A segment without text is a literal. -/
theorem isDynamic_of_value_eq_empty {raw : String} :
    ∀ segment ∈ (parse raw).segments, segment.value = "" → segment.isDynamic = false := by
  intro segment hsegment hvalue
  obtain ⟨text, _, rfl⟩ := List.mem_map.mp hsegment
  rw [Segment.value_ofChars, String.ofList_eq_empty_iff] at hvalue
  rw [hvalue]
  rfl

theorem segmentsDefect?_of_validate {template read : Template}
    (h : template.validate = .ok read) : segmentsDefect? [] template.segments = none := by
  have hdefect := (validate_eq_ok_iff.mp h).1
  unfold defect? at hdefect
  split at hdefect
  · exact hdefect
  · cases hdefect

end Template

end PathRouter
