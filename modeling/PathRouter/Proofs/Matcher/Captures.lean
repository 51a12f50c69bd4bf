import PathRouter.Proofs.Bindings.Pairs
import PathRouter.Proofs.Matcher.Cuts

/-!
# Captures

The stretches that a matcher keeps are the captures of the first decomposition of the path, and the
parameters are read from those. A capture stands under its place among the dynamic segments, counted
from one on.
-/
namespace PathRouter

namespace Regex

theorem text_span (part rest : List Char) :
    (⟨part ++ rest, rest⟩ : Span).text = String.ofList part := by
  simp [Span.text]

/-- Numbers that are still free lead to nothing. -/
theorem lookup_eq_none_of_free {spans : List (Nat × Span)} {number k : Nat}
    (hfree : ∀ pair ∈ spans, pair.1 < number) (h : number ≤ k) : spans.lookup k = none :=
  List.lookup_eq_none_iff.mpr fun pair hpair => by
    have hlt := hfree pair hpair
    simp only [bne_iff_ne]
    omega

section Pass

variable {number : Nat} {segment : Segment} {text : List Char} {cursor : Cursor}

theorem spans_pass_of_literal (h : segment.isDynamic = false) :
    (cursor.pass number segment text).spans = cursor.spans := by
  unfold Cursor.pass
  split
  · rfl
  · rw [h]
    rfl

/-- Only the segment's own number is added. -/
theorem mem_spans_pass {pair : Nat × Span} (h : pair ∈ (cursor.pass number segment text).spans) :
    (pair.1 = number ∧ segment.isDynamic = true) ∨ pair ∈ cursor.spans := by
  unfold Cursor.pass at h
  split at h
  · exact Or.inr h
  · split at h
    · rename_i hdynamic
      rcases List.mem_cons.mp h with rfl | h
      · exact Or.inl ⟨rfl, hdynamic⟩
      · exact Or.inr h
    · exact Or.inr h

theorem lookup_spans_pass_of_ne {k : Nat} (h : k ≠ number) :
    (cursor.pass number segment text).spans.lookup k = cursor.spans.lookup k := by
  unfold Cursor.pass
  split
  · rfl
  · split
    · show List.lookup k (_ :: cursor.spans) = _
      rw [List.lookup_cons, beq_eq_false_iff_ne.mpr h]
    · rfl

/-- The number of a dynamic segment leads to the segment's capture. -/
theorem lookup_spans_pass (hdynamic : segment.isDynamic = true) (htext : text <+: cursor.rest)
    (hfree : ∀ pair ∈ cursor.spans, pair.1 < number) :
    ((cursor.pass number segment text).spans.lookup number).map Span.text =
      text.tail?.map String.ofList := by
  obtain ⟨after, hafter⟩ := htext
  cases text with
  | nil => simp [Cursor.pass, lookup_eq_none_of_free hfree (Nat.le_refl number)]
  | cons c part =>
    simp [Cursor.pass, hdynamic, Cursor.keep, ← hafter, text_span]

end Pass

section PassAll

variable {segments : List Segment} {texts : List (List Char)} {number : Nat} {cursor : Cursor}

theorem lookup_spans_passAll_of_lt {k : Nat} (h : k < number) :
    (cursor.passAll number segments texts).spans.lookup k = cursor.spans.lookup k := by
  induction segments generalizing number texts cursor with
  | nil => rfl
  | cons segment segments ih =>
    cases texts with
    | nil => rfl
    | cons text texts =>
      rw [Cursor.passAll, ih (by omega), lookup_spans_pass_of_ne (by omega)]

/-- The numbers from `number` on lead to the captures of the segments. -/
theorem lookup_spans_passAll (hlength : texts.length = segments.length)
    (htexts : texts.flatten <+: cursor.rest) (hfree : ∀ pair ∈ cursor.spans, pair.1 < number)
    (i : Nat) :
    ((cursor.passAll number segments texts).spans.lookup (number + i)).map Span.text =
      (captures segments texts)[i]?.join := by
  induction segments generalizing number texts cursor i with
  | nil =>
    simp [Cursor.passAll, captures, lookup_eq_none_of_free hfree (Nat.le_add_right number i)]
  | cons segment segments ih =>
    cases texts with
    | nil => cases hlength
    | cons text texts =>
      have hlength := Nat.succ.inj hlength
      obtain ⟨after, hafter⟩ := htexts
      rw [List.flatten_cons, List.append_assoc] at hafter
      have htext : text <+: cursor.rest := ⟨texts.flatten ++ after, hafter⟩
      have htexts : texts.flatten <+: (cursor.pass number segment text).rest := by
        rw [rest_pass, ← hafter, List.drop_left]
        exact List.prefix_append _ _
      rw [Cursor.passAll, captures]
      cases hdynamic : segment.isDynamic with
      | false =>
        have hcount : number + segment.groupCount = number := by simp [Segment.groupCount, hdynamic]
        rw [hcount]
        refine ih hlength htexts (fun pair hpair => hfree pair ?_) i
        rwa [spans_pass_of_literal hdynamic] at hpair
      | true =>
        have hcount : number + segment.groupCount = number + 1 := by
          simp [Segment.groupCount, hdynamic]
        rw [hcount]
        cases i with
        | zero =>
          rw [Nat.add_zero, lookup_spans_passAll_of_lt (Nat.lt_succ_self number),
            lookup_spans_pass hdynamic htext hfree]
          simp
        | succ i =>
          rw [if_pos rfl, List.getElem?_cons_succ, ← ih hlength htexts ?_ i,
            Nat.add_right_comm, Nat.add_assoc]
          intro pair hpair
          rcases mem_spans_pass hpair with ⟨h, _⟩ | h
          · omega
          · exact Nat.lt_succ_of_lt (hfree pair h)

end PassAll

theorem groupCount_ofList_append (front back : List Regex) :
    (ofList (front ++ back)).groupCount = (ofList front).groupCount + (ofList back).groupCount := by
  induction front with
  | nil => simp [ofList, groupCount]
  | cons part front ih =>
    rw [List.cons_append, ofList, ofList, groupCount, groupCount, ih, Nat.add_assoc]

theorem groupCount_ofList_text (text : List Char) :
    (ofList (text.map fun c => one (.only c))).groupCount = 0 := by
  induction text with
  | nil => rfl
  | cons c text ih => rw [List.map_cons, ofList, groupCount, ih, groupCount]

theorem groupCount_parts (number : Nat) (segment : Segment) :
    (ofList (segment.parts number)).groupCount = segment.groupCount := by
  unfold Segment.parts Segment.groupCount Segment.isDynamic
  cases segment.kind with
  | literal => exact groupCount_ofList_text ('/' :: segment.value.toList)
  | param | optionalParam | catchAll | optionalCatchAll => rfl

theorem groupCount_partsFrom (number : Nat) (segments : List Segment) :
    (ofList (Segment.partsFrom number segments)).groupCount =
      segments.countP Segment.isDynamic := by
  induction segments generalizing number with
  | nil => rfl
  | cons segment segments ih =>
    rw [Segment.partsFrom, groupCount_ofList_append, groupCount_parts, ih, List.countP_cons,
      Segment.groupCount, Nat.add_comm]

end Regex

/-- There is one group for each dynamic segment. -/
theorem Template.groupCount_regex (template : Template) :
    template.regex.groupCount = template.segments.countP Segment.isDynamic := by
  rw [regex, Regex.ofList, Regex.groupCount, Regex.groupCount_ofList_append,
    Regex.groupCount_partsFrom]
  simp [Regex.groupCount, Regex.ofList]

theorem length_captures {segments : List Segment} {texts : List (List Char)}
    (h : texts.length = segments.length) :
    (captures segments texts).length = segments.countP Segment.isDynamic := by
  induction segments generalizing texts with
  | nil => simp [captures]
  | cons segment segments ih =>
    cases texts with
    | nil => cases h
    | cons text texts =>
      rw [captures, List.countP_cons, ← ih (Nat.succ.inj h)]
      cases segment.isDynamic <;> rfl

/-- The parameters that groups find among captures, which are counted from one on. -/
def readParams (groups : Bindings String Group) (decode : Bool) (kept : List (Option String)) :
    Except Fault Params :=
  if groups.any fun pair => kept.length < pair.2.number then .error .missingGroup
  else
    .ok <| groups.filterMap fun (name, group) =>
      kept[group.number - 1]?.join.map fun text =>
        (name, Value.ofCapture group.repeats decode text)

theorem Template.number_pos_of_mem_groups {template : Template} {pair : String × Group}
    (h : pair ∈ template.groups) : 0 < pair.2.number := by
  obtain ⟨⟨_, number⟩, hnamed, rfl⟩ := List.mem_map.mp (mem_of_mem_ofPairs h)
  exact List.le_snd_of_mem_zipIdx hnamed

theorem params_eq_readParams {template : Template} {spans : List (Nat × Regex.Span)}
    {kept : List (Option String)} (hcount : template.matcher.regex.groupCount = kept.length)
    (hkept : ∀ i, (spans.lookup (i + 1)).map Regex.Span.text = kept[i]?.join) (decode : Bool) :
    template.matcher.params decode spans = readParams template.groups decode kept := by
  have hvalue : ∀ pair ∈ template.groups,
      (spans.lookup pair.2.number).map (fun span =>
        (pair.1, Value.ofCapture pair.2.repeats decode span.text)) =
      kept[pair.2.number - 1]?.join.map fun text =>
        (pair.1, Value.ofCapture pair.2.repeats decode text) := by
    intro pair hpair
    have hpos := Template.number_pos_of_mem_groups hpair
    rw [← hkept, Nat.sub_add_cancel hpos, Option.map_map]
    rfl
  unfold Matcher.params readParams
  rw [hcount]
  show (if template.groups.any _ then _ else _) = _
  congr 2
  exact List.filterMap_congr hvalue

/-- A matcher reads the captures of the first decomposition. -/
theorem exists_first_of_capture? {template : Template} {path : String}
    {spans : List (Nat × Regex.Span)} (h : template.matcher.capture? path = some spans) :
    ∃ d : Decomposition template.segments path.toList, d.First ∧
      template.matcher.regex.groupCount = (captures template.segments d.texts).length ∧
      (∀ i, (spans.lookup (i + 1)).map Regex.Span.text =
        (captures template.segments d.texts)[i]?.join) ∧
      ∀ decode, template.matcher.extract decode path =
        (readParams template.groups decode (captures template.segments d.texts)).map some := by
  have hcapture := h
  rw [Template.capture?_matcher, Option.map_eq_some_iff] at hcapture
  obtain ⟨texts, htexts, rfl⟩ := hcapture
  obtain ⟨d, hfirst, rfl⟩ := exists_first_of_head? htexts
  have hlength := d.taken.length_eq.symm
  have hprefix : d.texts.flatten <+: (Regex.Cursor.atStart path.toList).rest :=
    ⟨d.rest, d.path_eq.symm⟩
  have hfree : ∀ pair ∈ (Regex.Cursor.atStart path.toList).spans, pair.1 < 1 := by
    intro pair hpair
    cases hpair
  have hcount : template.matcher.regex.groupCount =
      (captures template.segments d.texts).length := by
    rw [length_captures hlength]
    exact template.groupCount_regex
  have hkept (i : Nat) : ((template.cursorAfter path d.texts).spans.lookup (i + 1)).map
      Regex.Span.text = (captures template.segments d.texts)[i]?.join := by
    rw [← Regex.lookup_spans_passAll hlength hprefix hfree i, Nat.add_comm]
    rfl
  refine ⟨d, hfirst, hcount, hkept, fun decode => ?_⟩
  rw [Matcher.extract, h]
  simp only
  rw [params_eq_readParams hcount hkept]

/-- Every template compiles. Its matcher accepts the paths that have a decomposition, and reads
the captures of the first one. -/
theorem matching_follows_first_decomposition (template : Template) (path : String) :
    ∃ matcher, template.compile = .ok matcher ∧
      (matcher.accepts path = true ↔ Nonempty (Decomposition template.segments path.toList)) ∧
      (matcher.capture? path = none ∧ (∀ decode, matcher.extract decode path = .ok none) ∨
        ∃ spans, matcher.capture? path = some spans ∧
          ∃ d : Decomposition template.segments path.toList, d.First ∧
            matcher.regex.groupCount = (captures template.segments d.texts).length ∧
            (∀ i, (spans.lookup (i + 1)).map Regex.Span.text =
              (captures template.segments d.texts)[i]?.join) ∧
            ∀ decode, matcher.extract decode path =
              (readParams template.groups decode
                (captures template.segments d.texts)).map some) := by
  refine ⟨template.matcher, template.compile_eq, ?_, ?_⟩
  · rw [Template.accepts_matcher_iff, decomposes_iff_nonempty]
  · cases h : template.matcher.capture? path with
    | none =>
      refine Or.inl ⟨rfl, fun decode => ?_⟩
      rw [Matcher.extract, h]
    | some spans => exact Or.inr ⟨spans, rfl, exists_first_of_capture? h⟩

end PathRouter
