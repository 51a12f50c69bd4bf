import Mathlib.Tactic.ByContra
import PathRouter.Proofs.Template.Grammar

/-!
# Enclosing brackets

Strict reading asks for a bracket at either end of a segment and for as many closing as opening
brackets. That does not make the two ends partners: the first bracket may be closed before the end,
and then the segment falls into texts that balance on their own. The two ends are partners just if
the text between them balances, as it does where a name holds no bracket.
-/
namespace PathRouter

open Template (parse)

/-- What is opened by the first character is open up to the last one. -/
def Enclosed (text : List Char) : Prop :=
  ∀ front, front <+: text → front ≠ [] → front ≠ text → front.count ']' < front.count '['

/-- Whether the text is two texts one after the other, each with brackets that pair up. -/
def FallsApart (text : List Char) : Prop :=
  ∃ first second, first ≠ [] ∧ second ≠ [] ∧ Balanced first ∧ Balanced second ∧
    text = first ++ second

theorem Balanced.wrap {inner : List Char} (h : Balanced inner) :
    Balanced ('[' :: (inner ++ [']'])) := by
  constructor
  · rw [forall_prefix_cons_iff]
    refine ⟨Nat.le_refl 0, fun front hfront => ?_⟩
    rcases List.prefix_concat_iff.mp hfront with rfl | hfront
    · have heq := h.closed_eq
      simp
      omega
    · have hle := h.closed_le front hfront
      simp
      omega
  · have heq := h.closed_eq
    simp
    omega

/-- The two ends are partners just if what is between them balances. -/
theorem enclosed_wrap_iff {inner : List Char} (h : Balanced ('[' :: (inner ++ [']']))) :
    Enclosed ('[' :: (inner ++ [']'])) ↔ Balanced inner := by
  constructor
  · intro henclosed
    refine ⟨fun front hfront => ?_, ?_⟩
    · have hne : '[' :: front ≠ '[' :: (inner ++ [']']) := by
        intro heq
        have hlength := hfront.length_le
        rw [(List.cons.inj heq).2, List.length_append, List.length_singleton] at hlength
        omega
      have hopen := henclosed ('[' :: front)
        (List.cons_prefix_cons.mpr ⟨rfl, hfront.trans (List.prefix_append _ _)⟩)
        (List.cons_ne_nil _ _) hne
      simp at hopen
      omega
    · have heq := h.closed_eq
      simp at heq
      omega
  · intro hinner front hfront hne hproper
    rcases List.prefix_cons_iff.mp hfront with rfl | ⟨rest, rfl, hrest⟩
    · exact absurd rfl hne
    rcases List.prefix_concat_iff.mp hrest with rfl | hrest
    · exact absurd rfl hproper
    have hle := hinner.closed_le rest hrest
    simp
    omega

/-- Where the first bracket is closed early, the text falls apart at that place. -/
theorem enclosed_iff_not_fallsApart {text : List Char} (h : Balanced text) :
    Enclosed text ↔ ¬ FallsApart text := by
  constructor
  · intro henclosed hparts
    obtain ⟨first, second, hfirst, hsecond, hbalanced, _, rfl⟩ := hparts
    have hopen := henclosed first (List.prefix_append _ _) hfirst
      (fun heq => hsecond (List.self_eq_append_right.mp heq))
    have heq := hbalanced.closed_eq
    omega
  · intro hparts front hfront hne hproper
    by_contra hclosed
    have hle := h.closed_le front hfront
    obtain ⟨back, rfl⟩ := hfront
    have htotal := h.closed_eq
    rw [List.count_append, List.count_append] at htotal
    refine hparts ⟨front, back, hne, ?_, ⟨?_, by omega⟩, ⟨?_, by omega⟩, rfl⟩
    · rintro rfl
      exact hproper (List.append_nil _).symm
    · exact fun start hstart => h.closed_le start (hstart.trans (List.prefix_append _ _))
    · intro start hstart
      have hlater := h.closed_le (front ++ start) ((List.prefix_append_right_inj front).mpr hstart)
      rw [List.count_append, List.count_append] at hlater
      omega

/-- A name without brackets is enclosed by those of its spelling, whatever the kind. -/
theorem Spells.enclosed {text : List Char} {kind : Kind} {name : List Char}
    (h : Spells text kind name) (hname : BracketFree name) : Enclosed text := by
  have hellipsis : Balanced (ellipsis ++ name) := by
    refine BracketFree.balanced ⟨?_, ?_⟩
    · simpa [ellipsis] using hname.1
    · simpa [ellipsis] using hname.2
  rw [h.text_eq]
  cases hkind : kind with
  | literal =>
    have hdynamic := h.isDynamic
    rw [hkind] at hdynamic
    cases hdynamic
  | param =>
    have hbalanced := hname.balanced
    exact (enclosed_wrap_iff hbalanced.wrap).mpr hbalanced
  | optionalParam =>
    have hbalanced := hname.balanced.wrap
    rw [Kind.spell, wrap_twice]
    exact (enclosed_wrap_iff hbalanced.wrap).mpr hbalanced
  | catchAll => exact (enclosed_wrap_iff hellipsis.wrap).mpr hellipsis
  | optionalCatchAll =>
    rw [Kind.spell, wrap_twice]
    exact (enclosed_wrap_iff hellipsis.wrap.wrap).mpr hellipsis.wrap

/-- A segment with a bracket that strict reading passes is wrapped in brackets, and its brackets
pair up. -/
theorem Segment.bracketed_of_bracketDefect?_eq_none {segment : Segment}
    (h : segment.bracketDefect? = none)
    (hbracket : '[' ∈ segment.value.toList ∨ ']' ∈ segment.value.toList) :
    Balanced segment.value.toList ∧ isBracketed segment.value.toList = true := by
  obtain ⟨hbalanced, hwrapped, hne⟩ := bracketDefect?_eq_none_iff.mp h
  have hopen : '[' ∈ segment.value.toList := by
    by_contra hfree
    exact hbracket.elim hfree (hbalanced.bracketFree hfree).2
  obtain ⟨hhead, hlast⟩ := hwrapped hopen
  refine ⟨hbalanced, isBracketed_iff.mpr ⟨hhead, hlast, fun heq => hne ?_⟩⟩
  exact String.toList_inj.mp heq

/-- A segment with a bracket that strict reading passes starts with an opening and ends with a
closing bracket. These two are partners just if the text between them balances, and otherwise the
segment is one balanced text after another. A name that holds no bracket is enclosed. -/
theorem strict_brackets_enclose_balanced_text {template read : Template}
    (hvalid : template.validate = .ok read) {segment : Segment}
    (hsegment : segment ∈ read.segments)
    (hbracket : '[' ∈ segment.value.toList ∨ ']' ∈ segment.value.toList) :
    segment.value.toList = '[' :: (withoutEnds segment.value.toList ++ [']']) ∧
      (Enclosed segment.value.toList ↔ Balanced (withoutEnds segment.value.toList)) ∧
      (Enclosed segment.value.toList ↔ ¬ FallsApart segment.value.toList) ∧
      ∀ raw name, template = parse raw → segment.name = some name → BracketFree name.toList →
        Enclosed segment.value.toList := by
  obtain ⟨_, rfl⟩ := Template.validate_eq_ok_iff.mp hvalid
  have hsound := (Segment.segmentsDefect?_eq_none_iff.mp
    (Template.segmentsDefect?_of_validate hvalid)).1 segment hsegment
  obtain ⟨hbalanced, hwrapped⟩ :=
    Segment.bracketed_of_bracketDefect?_eq_none hsound.brackets hbracket
  have htext := eq_of_isBracketed hwrapped
  refine ⟨htext, ?_, enclosed_iff_not_fallsApart hbalanced, ?_⟩
  · have hiff := enclosed_wrap_iff (htext ▸ hbalanced)
    rwa [← htext] at hiff
  · rintro raw name rfl hname hfree
    obtain ⟨text, _, rfl⟩ := List.mem_map.mp hsegment
    rw [Segment.value_ofChars, String.toList_ofList]
    exact (Segment.spells_of_name hname (hsound.isName name hname)).enclosed hfree

theorem doubled_brackets_enclose_two_groups :
    (parse "/[[a][b]]").validate = .ok (parse "/[[a][b]]") ∧ Enclosed "[[a][b]]".toList := by
  have hvalid : (parse "/[[a][b]]").validate = .ok (parse "/[[a][b]]") := rfl
  have hmem : Segment.parse "[[a][b]]" ∈ (parse "/[[a][b]]").segments := by decide
  refine ⟨hvalid, ?_⟩
  exact (strict_brackets_enclose_balanced_text hvalid hmem (by decide)).2.1.mpr
    (balanced_iff.mp (by decide))

/-- Two groups side by side pass, though the first bracket is not closed by the last one. -/
theorem two_groups_pass_strict_reading :
    (parse "/[a][b]").validate = .ok (parse "/[a][b]") ∧
      Segment.parse "[a][b]" ∈ (parse "/[a][b]").segments ∧
      (Segment.parse "[a][b]").value.toList = "[a][b]".toList ∧
      ¬ Enclosed "[a][b]".toList ∧ FallsApart "[a][b]".toList := by
  have hapart : FallsApart "[a][b]".toList :=
    ⟨"[a]".toList, "[b]".toList, by decide, by decide, balanced_iff.mp (by decide),
      balanced_iff.mp (by decide), by decide⟩
  have hbalanced : Balanced "[a][b]".toList := balanced_iff.mp (by decide)
  exact ⟨rfl, by decide, by decide,
    fun henclosed => (enclosed_iff_not_fallsApart hbalanced).mp henclosed hapart, hapart⟩

end PathRouter
