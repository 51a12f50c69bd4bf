import PathRouter.Proofs.Template.Strictness

/-!
# Spellings

How a dynamic kind and a name are written as a segment, and which names are read back. A name that
looks like brackets or starts like an ellipsis may be read as something else; the names that strict
reading accepts never are. What is read can always be spelled again as it was.
-/
namespace PathRouter

theorem isBracketed_wrap {inner : List Char} (h : inner ≠ []) :
    isBracketed ('[' :: (inner ++ [']'])) = true := by
  have hlength := List.length_pos_iff.mpr h
  have hlast : ('[' :: (inner ++ [']'])).getLast? = some ']' := by
    rw [← List.cons_append, List.getLast?_concat]
  unfold isBracketed
  rw [hlast]
  simp
  omega

/-- The second pair of brackets is a wrapping too, once its closing bracket is split off. -/
theorem wrap_twice (core : List Char) :
    '[' :: '[' :: (core ++ [']', ']']) = '[' :: ('[' :: (core ++ [']']) ++ [']']) := by
  simp

theorem withoutEnds_wrap (inner : List Char) : withoutEnds ('[' :: (inner ++ [']'])) = inner := by
  rw [withoutEnds, List.tail_cons, List.dropLast_concat]

theorem isBracketed_of_head?_ne {text : List Char} (h : text.head? ≠ some '[') :
    isBracketed text = false := by
  unfold isBracketed
  rw [beq_eq_false_iff_ne.mpr h, Bool.and_false, Bool.false_and]

namespace Parameter

/-- The parameter whose text, without the brackets, is `core`. -/
def ofCore (optional : Bool) (core : List Char) : Parameter :=
  let repeats := ellipsis.isPrefixOf core
  ⟨String.ofList (if repeats then core.drop ellipsis.length else core), optional, repeats⟩

theorem ofChars_of_not_bracketed {core : List Char} (h : isBracketed core = false) :
    ofChars core = ofCore false core := by
  rw [ofChars, h]
  rfl

theorem ofChars_wrap {core : List Char} (h : core ≠ []) :
    ofChars ('[' :: (core ++ [']'])) = ofCore true core := by
  rw [ofChars, isBracketed_wrap h, withoutEnds_wrap]
  rfl

theorem ofCore_of_not_prefix {optional : Bool} {core : List Char}
    (h : ellipsis.isPrefixOf core = false) : ofCore optional core =
      ⟨String.ofList core, optional, false⟩ := by
  rw [ofCore, h]
  rfl

theorem ofCore_ellipsis (optional : Bool) (name : List Char) :
    ofCore optional (ellipsis ++ name) = ⟨String.ofList name, optional, true⟩ := by
  have hprefix : ellipsis.isPrefixOf (ellipsis ++ name) = true :=
    List.isPrefixOf_iff_prefix.mpr (List.prefix_append _ _)
  rw [ofCore, hprefix, List.drop_left]
  rfl

@[simp] theorem optional_kind (parameter : Parameter) :
    parameter.kind.optional = parameter.optional := by
  unfold kind
  cases parameter.optional <;> cases parameter.repeats <;> rfl

@[simp] theorem repeats_kind (parameter : Parameter) :
    parameter.kind.repeats = parameter.repeats := by
  unfold kind
  cases parameter.optional <;> cases parameter.repeats <;> rfl

end Parameter

/-- Whether a name that is spelled with this kind is read back. -/
def Kind.Legible : Kind → List Char → Prop
  | literal, _ => False
  | param, name => name ≠ [] ∧ isBracketed name = false ∧ ellipsis.isPrefixOf name = false
  | optionalParam, name => name ≠ [] ∧ ellipsis.isPrefixOf name = false
  | catchAll, _ | optionalCatchAll, _ => True

theorem IsName.legible {name : List Char} (h : IsName name) {kind : Kind}
    (hkind : kind.isDynamic = true) : kind.Legible name := by
  have hellipsis : ellipsis.isPrefixOf name = false := by
    rw [Bool.eq_false_iff]
    intro hprefix
    obtain ⟨rest, rfl⟩ := List.isPrefixOf_iff_prefix.mp hprefix
    exact h.head_ne_dot rfl
  cases kind with
  | literal => cases hkind
  | param => exact ⟨h.ne_nil, isBracketed_of_head?_ne h.head_ne_bracket, hellipsis⟩
  | optionalParam => exact ⟨h.ne_nil, hellipsis⟩
  | catchAll => trivial
  | optionalCatchAll => trivial

namespace Segment

theorem ofChars_wrap {inner : List Char} (h : inner ≠ []) :
    ofChars ('[' :: (inner ++ [']'])) =
      ⟨String.ofList ('[' :: (inner ++ [']'])), (Parameter.ofChars inner).kind,
        some (Parameter.ofChars inner).name⟩ := by
  rw [ofChars, if_pos (isBracketed_wrap h), withoutEnds_wrap]

/-- A legible name is read back with its kind. -/
theorem ofChars_spell {kind : Kind} {name : List Char} (h : kind.Legible name) :
    ofChars (kind.spell name) =
      ⟨String.ofList (kind.spell name), kind, some (String.ofList name)⟩ := by
  have hcore : ellipsis ++ name ≠ [] := List.cons_ne_nil _ _
  cases kind with
  | literal => exact h.elim
  | param =>
    obtain ⟨hne, hbracketed, hellipsis⟩ := h
    rw [Kind.spell, ofChars_wrap hne, Parameter.ofChars_of_not_bracketed hbracketed,
      Parameter.ofCore_of_not_prefix hellipsis]
    rfl
  | optionalParam =>
    obtain ⟨hne, hellipsis⟩ := h
    rw [Kind.spell, wrap_twice, ofChars_wrap (List.cons_ne_nil _ _), Parameter.ofChars_wrap hne,
      Parameter.ofCore_of_not_prefix hellipsis]
    rfl
  | catchAll =>
    have hbracketed : isBracketed (ellipsis ++ name) = false :=
      isBracketed_of_head?_ne (by simp [ellipsis])
    rw [Kind.spell, ofChars_wrap hcore, Parameter.ofChars_of_not_bracketed hbracketed,
      Parameter.ofCore_ellipsis]
    rfl
  | optionalCatchAll =>
    rw [Kind.spell, wrap_twice, ofChars_wrap (List.cons_ne_nil _ _), Parameter.ofChars_wrap hcore,
      Parameter.ofCore_ellipsis]
    rfl

/-- Any other name is read as a segment of another kind. -/
theorem legible_of_kind_ofChars_spell {kind : Kind} {name : List Char}
    (hdynamic : kind.isDynamic = true) (h : (ofChars (kind.spell name)).kind = kind) :
    kind.Legible name := by
  have hoptional := congrArg Kind.optional h
  have hrepeats := congrArg Kind.repeats h
  cases kind with
  | literal => cases hdynamic
  | param =>
    by_cases hne : name = []
    · rw [hne] at h
      cases h
    rw [Kind.spell, ofChars_wrap hne, Parameter.optional_kind] at hoptional
    rw [Kind.spell, ofChars_wrap hne, Parameter.repeats_kind,
      Parameter.ofChars_of_not_bracketed hoptional] at hrepeats
    exact ⟨hne, hoptional, hrepeats⟩
  | optionalParam =>
    by_cases hne : name = []
    · rw [hne] at h
      cases h
    rw [Kind.spell, wrap_twice, ofChars_wrap (List.cons_ne_nil _ _), Parameter.repeats_kind,
      Parameter.ofChars_wrap hne] at hrepeats
    exact ⟨hne, hrepeats⟩
  | catchAll => trivial
  | optionalCatchAll => trivial

theorem named_ofChars_spell_iff (kind : Kind) (name : List Char) :
    ((ofChars (kind.spell name)).kind = kind ∧
      (ofChars (kind.spell name)).name = some (String.ofList name)) ↔ kind.Legible name := by
  constructor
  · intro h
    obtain ⟨hkind, hname⟩ := h
    have hnamed := isSome_name_ofChars (kind.spell name)
    rw [hname, isDynamic, hkind] at hnamed
    exact legible_of_kind_ofChars_spell hnamed.symm hkind
  · intro h
    rw [ofChars_spell h]
    exact ⟨rfl, rfl⟩

/-- A literal or a spelled name, every segment that is read says which text it was read from. -/
theorem literal_or_spelled_ofChars (text : List Char) :
    ((ofChars text).kind = .literal ∧ (ofChars text).name = none) ∨
      ∃ name, (ofChars text).isDynamic = true ∧ (ofChars text).name = some name ∧
        (ofChars text).kind.spell name.toList = text := by
  have hspelling := spelling_ofChars text
  have hnamed := isSome_name_ofChars text
  unfold spelling at hspelling
  cases hname : (ofChars text).name with
  | some name =>
    rw [hname] at hspelling hnamed
    exact Or.inr ⟨name, hnamed.symm, rfl, hspelling⟩
  | none =>
    rw [hname] at hnamed
    refine Or.inl ⟨?_, rfl⟩
    unfold isDynamic at hnamed
    cases hkind : (ofChars text).kind <;> simp_all [Kind.isDynamic]

end Segment

/-- Reading a segment keeps its text, and a kind and a name are read back from their spelling just
if the name is legible there. Reading a route keeps its text in the values of its segments, which
are free of slashes. -/
theorem reading_loses_nothing :
    (∀ text : String, (Segment.parse text).value = text ∧
      (((Segment.parse text).kind = .literal ∧ (Segment.parse text).name = none) ∨
        ∃ name, (Segment.parse text).isDynamic = true ∧ (Segment.parse text).name = some name ∧
          String.ofList ((Segment.parse text).kind.spell name.toList) = text)) ∧
    (∀ (kind : Kind) (name : String),
      ((Segment.parse (String.ofList (kind.spell name.toList))).kind = kind ∧
        (Segment.parse (String.ofList (kind.spell name.toList))).name = some name) ↔
          kind.Legible name.toList) ∧
    ∀ raw : String, raw.toList.head? = some '/' →
      String.ofList ('/' :: ['/'].intercalate
        ((Template.parse raw).segments.map fun s => s.value.toList)) = raw ∧
      ∀ segment ∈ (Template.parse raw).segments, '/' ∉ segment.value.toList := by
  refine ⟨fun text => ⟨?_, ?_⟩, fun kind name => ?_, fun raw hslash => ⟨?_, ?_⟩⟩
  · rw [Segment.parse, Segment.value_ofChars, String.ofList_toList]
  · refine (Segment.literal_or_spelled_ofChars text.toList).imp_right fun h => ?_
    obtain ⟨name, hdynamic, hname, hspell⟩ := h
    refine ⟨name, hdynamic, hname, ?_⟩
    rw [Segment.parse, hspell, String.ofList_toList]
  · have hiff := Segment.named_ofChars_spell_iff kind name.toList
    rwa [String.ofList_toList, ← String.toList_ofList (l := kind.spell name.toList)] at hiff
  · obtain ⟨tail, htail⟩ := List.head?_eq_some_iff.mp hslash
    rw [Template.intercalate_values_parse, htail, List.tail_cons, ← htail, String.ofList_toList]
  · exact fun segment hsegment => Template.slash_not_mem_value hsegment

theorem doubled_brackets_around_ellipsis_are_read_back :
    ((Segment.parse "[[....]]").kind = .optionalCatchAll ∧
      (Segment.parse "[[....]]").name = some ".") ∧
    "//[a//".toList.head? = some '/' ∧
    String.ofList ('/' :: ['/'].intercalate
      ((Template.parse "//[a//").segments.map fun s => s.value.toList)) = "//[a//" ∧
    Segment.parse "[a" ∈ (Template.parse "//[a//").segments ∧
    '/' ∉ (Segment.parse "[a").value.toList := by
  obtain ⟨_, hspelled, hroute⟩ := reading_loses_nothing
  have hmem : Segment.parse "[a" ∈ (Template.parse "//[a//").segments := by decide
  have hkept := hroute "//[a//" (by decide)
  exact ⟨(hspelled .optionalCatchAll ".").mpr trivial, by decide, hkept.1, hmem, hkept.2 _ hmem⟩

end PathRouter
