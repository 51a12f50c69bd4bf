import PathRouter.Proofs.Matcher.Compilation
import PathRouter.Proofs.Matcher.Decomposition
import PathRouter.Proofs.Regex.Ways

/-!
# Cuts

A cut is one text for each segment, such that the texts follow one another from the beginning of a
path. Here the cuts are listed in the order in which a matcher tries them. The list is complete and
its order is the one by which the first decomposition is chosen.
-/
namespace PathRouter

namespace Regex

/-- The beginnings of a text that are one or more characters of the set, the shortest first. -/
def fewReads (set : CharSet) : List Char → List (List Char)
  | [] => []
  | c :: rest => if set.contains c then [c] :: (fewReads set rest).map (c :: ·) else []

variable {set : CharSet} {text read : List Char}

theorem fewStops_eq_map (set : CharSet) (text : List Char) :
    fewStops set text = (fewReads set text).map fun read => text.drop read.length := by
  induction text with
  | nil => rfl
  | cons c text ih =>
    rw [fewStops, fewReads, ih]
    split
    · simp [Function.comp_def]
    · rfl

theorem mem_fewReads :
    read ∈ fewReads set text ↔ read ≠ [] ∧ (∀ c ∈ read, set.contains c = true) ∧ read <+: text := by
  induction text generalizing read with
  | nil =>
    rw [List.prefix_nil]
    constructor
    · intro h
      cases h
    · intro h
      exact absurd h.2.2 h.1
  | cons c text ih =>
    rw [fewReads]
    split
    · rename_i hc
      rw [List.mem_cons, List.mem_map, List.prefix_cons_iff]
      constructor
      · intro h
        rcases h with rfl | ⟨read, hread, rfl⟩
        · exact ⟨by simp, by simpa using hc, Or.inr ⟨[], rfl, List.nil_prefix⟩⟩
        · obtain ⟨_, hset, hprefix⟩ := ih.mp hread
          exact ⟨by simp, List.forall_mem_cons.mpr ⟨hc, hset⟩, Or.inr ⟨read, rfl, hprefix⟩⟩
      · intro h
        obtain ⟨hread, hset, rfl | ⟨read, rfl, hprefix⟩⟩ := h
        · exact absurd rfl hread
        · by_cases hnil : read = []
          · exact Or.inl (by rw [hnil])
          · exact Or.inr ⟨read, ih.mpr ⟨hnil, (List.forall_mem_cons.mp hset).2, hprefix⟩, rfl⟩
    · rename_i hc
      constructor
      · intro h
        cases h
      · intro h
        obtain ⟨hread, hset, hprefix⟩ := h
        rcases List.prefix_cons_iff.mp hprefix with rfl | ⟨read, rfl, _⟩
        · exact absurd rfl hread
        · exact absurd (hset c List.mem_cons_self) hc

theorem pairwise_fewReads (set : CharSet) (text : List Char) :
    (fewReads set text).Pairwise fun a b => a.length < b.length := by
  induction text with
  | nil => exact .nil
  | cons c text ih =>
    rw [fewReads]
    split
    · refine List.pairwise_cons.mpr ⟨?_, List.pairwise_map.mpr (ih.imp fun h => by simpa using h)⟩
      intro read hmem
      obtain ⟨read, hread, rfl⟩ := List.mem_map.mp hmem
      have hpos := List.length_pos_iff.mpr (mem_fewReads.mp hread).1
      simp only [List.length_cons, List.length_nil]
      omega
    · exact .nil

theorem forall_bne_iff_not_mem {stop : Char} : (∀ c ∈ text, (c != stop) = true) ↔ stop ∉ text := by
  simp only [bne_iff_ne]
  exact ⟨fun h hmem => h _ hmem rfl, fun h c hc => ne_of_mem_of_not_mem hc h⟩

/-- The beginnings of a path that are a slash and one or more characters of the set. -/
def stretches (set : CharSet) : List Char → List (List Char)
  | [] => []
  | c :: after => if c = '/' then (fewReads set after).map ('/' :: ·) else []

theorem mem_stretches {path : List Char} :
    text ∈ stretches set path ↔
      (∃ part ≠ [], (∀ c ∈ part, set.contains c = true) ∧ text = '/' :: part) ∧ text <+: path := by
  constructor
  · intro h
    cases path with
    | nil => cases h
    | cons c after =>
      rw [stretches] at h
      split at h
      · rename_i hc
        obtain ⟨part, hpart, rfl⟩ := List.mem_map.mp h
        obtain ⟨hne, hset, hprefix⟩ := mem_fewReads.mp hpart
        exact ⟨⟨part, hne, hset, rfl⟩, by rw [hc]; exact List.cons_prefix_cons.mpr ⟨rfl, hprefix⟩⟩
      · cases h
  · intro h
    obtain ⟨⟨part, hne, hset, rfl⟩, hprefix⟩ := h
    cases path with
    | nil => cases List.prefix_nil.mp hprefix
    | cons c after =>
      obtain ⟨rfl, hpart⟩ := List.cons_prefix_cons.mp hprefix
      rw [stretches, if_pos rfl]
      exact List.mem_map_of_mem (mem_fewReads.mpr ⟨hne, hset, hpart⟩)

theorem pairwise_stretches (set : CharSet) (path : List Char) :
    (stretches set path).Pairwise Preferred := by
  cases path with
  | nil => exact .nil
  | cons c after =>
    rw [stretches]
    split
    · refine List.pairwise_map.mpr ((pairwise_fewReads set after).imp fun h => ?_)
      exact ⟨List.cons_ne_nil _ _, Or.inr (by simpa using h)⟩
    · exact .nil

end Regex

namespace Segment

open Regex (stretches)

/-- The texts that a segment can take from the beginning of a path, in the order tried. -/
def takings (segment : Segment) (path : List Char) : List (List Char) :=
  match segment.kind with
  | .literal =>
    if '/' :: segment.value.toList <+: path then ['/' :: segment.value.toList] else []
  | .param | .optionalParam => stretches .notSlash path
  | .catchAll => stretches .notNewline path
  | .optionalCatchAll => stretches .notNewline path ++ [[]]

theorem mem_takings {segment : Segment} {path text : List Char} :
    text ∈ segment.takings path ↔ segment.Takes text ∧ text <+: path := by
  unfold takings Takes
  cases segment.kind with
  | literal =>
    simp only
    split
    · rename_i hprefix
      rw [List.mem_singleton]
      exact ⟨fun h => ⟨h, h ▸ hprefix⟩, fun h => h.1⟩
    · rename_i hprefix
      exact ⟨fun h => (List.not_mem_nil h).elim, fun h => absurd (h.1 ▸ h.2) hprefix⟩
  | param | optionalParam =>
    simp only [Regex.mem_stretches, CharSet.contains, Regex.forall_bne_iff_not_mem]
  | catchAll =>
    simp only [Regex.mem_stretches, CharSet.contains, Regex.forall_bne_iff_not_mem]
  | optionalCatchAll =>
    simp only [List.mem_append, List.mem_singleton, Regex.mem_stretches, CharSet.contains,
      Regex.forall_bne_iff_not_mem]
    constructor
    · intro h
      rcases h with ⟨h, hprefix⟩ | rfl
      · exact ⟨Or.inr h, hprefix⟩
      · exact ⟨Or.inl rfl, List.nil_prefix⟩
    · intro h
      obtain ⟨rfl | h, hprefix⟩ := h
      · exact Or.inr rfl
      · exact Or.inl ⟨h, hprefix⟩

theorem pairwise_takings (segment : Segment) (path : List Char) :
    (segment.takings path).Pairwise Preferred := by
  unfold takings
  cases segment.kind with
  | literal =>
    simp only
    split
    · exact List.pairwise_singleton _ _
    · exact .nil
  | param | optionalParam | catchAll => exact Regex.pairwise_stretches _ path
  | optionalCatchAll =>
    refine List.pairwise_append.mpr
      ⟨Regex.pairwise_stretches _ path, List.pairwise_singleton _ _, ?_⟩
    intro text htext last hlast
    obtain ⟨⟨part, _, _, rfl⟩, _⟩ := Regex.mem_stretches.mp htext
    exact ⟨List.cons_ne_nil _ _, Or.inl (List.mem_singleton.mp hlast)⟩

end Segment

/-- The cuts of a path, in the order tried. -/
def cuts : List Segment → List Char → List (List (List Char))
  | [], _ => [[]]
  | segment :: rest, path =>
    (segment.takings path).flatMap fun text => (cuts rest (path.drop text.length)).map (text :: ·)

theorem mem_cuts {segments : List Segment} {path : List Char} {texts : List (List Char)} :
    texts ∈ cuts segments path ↔
      List.Forall₂ Segment.Takes segments texts ∧ texts.flatten <+: path := by
  induction segments generalizing path texts with
  | nil =>
    rw [cuts, List.mem_singleton]
    constructor
    · rintro rfl
      exact ⟨.nil, List.nil_prefix⟩
    · intro h
      cases h.1
      rfl
  | cons segment segments ih =>
    rw [cuts, List.mem_flatMap]
    constructor
    · intro h
      obtain ⟨text, htext, hcut⟩ := h
      obtain ⟨texts, htexts, rfl⟩ := List.mem_map.mp hcut
      obtain ⟨htakes, after, rfl⟩ := Segment.mem_takings.mp htext
      rw [List.drop_left] at htexts
      obtain ⟨htaken, hprefix⟩ := ih.mp htexts
      exact ⟨.cons htakes htaken, (List.prefix_append_right_inj text).mpr hprefix⟩
    · intro h
      obtain ⟨htaken, hprefix⟩ := h
      cases htaken with
      | @cons _ text _ texts htakes htaken =>
        obtain ⟨after, rfl⟩ := hprefix
        rw [List.flatten_cons, List.append_assoc]
        refine ⟨text, Segment.mem_takings.mpr ⟨htakes, List.prefix_append _ _⟩, ?_⟩
        rw [List.drop_left]
        exact List.mem_map_of_mem (ih.mpr ⟨htaken, List.prefix_append _ _⟩)

theorem pairwise_cuts (segments : List Segment) (path : List Char) :
    (cuts segments path).Pairwise (List.Lex Preferred) := by
  induction segments generalizing path with
  | nil => exact List.pairwise_singleton _ _
  | cons segment segments ih =>
    rw [cuts, List.pairwise_flatMap]
    constructor
    · intro text _
      exact List.pairwise_map.mpr ((ih _).imp List.Lex.cons)
    · refine (Segment.pairwise_takings segment path).imp fun h a ha b hb => ?_
      obtain ⟨_, _, rfl⟩ := List.mem_map.mp ha
      obtain ⟨_, _, rfl⟩ := List.mem_map.mp hb
      exact .rel h

namespace Regex

/-- The place after the text of a segment, kept under the number if the segment is dynamic. -/
def Cursor.pass (number : Nat) (segment : Segment) (cursor : Cursor) (text : List Char) : Cursor :=
  let after := cursor.moveTo (cursor.rest.drop text.length)
  if text = [] then cursor
  else if segment.isDynamic then after.keep number cursor.rest.tail
  else after

/-- The place after one text for each segment, where `number` is the next group. -/
def Cursor.passAll : Nat → List Segment → List (List Char) → Cursor → Cursor
  | number, segment :: rest, text :: texts, cursor =>
    passAll (number + segment.groupCount) rest texts (cursor.pass number segment text)
  | _, _, _, cursor => cursor

theorem rest_pass (number : Nat) (segment : Segment) (cursor : Cursor) (text : List Char) :
    (cursor.pass number segment text).rest = cursor.rest.drop text.length := by
  unfold Cursor.pass
  split
  · rename_i h
    simp [h]
  · split <;> rfl

theorem rest_passAll {number : Nat} {segments : List Segment} {texts : List (List Char)}
    {cursor : Cursor} (h : texts.length = segments.length) :
    (cursor.passAll number segments texts).rest = cursor.rest.drop texts.flatten.length := by
  induction segments generalizing number texts cursor with
  | nil =>
    obtain rfl := List.length_eq_zero_iff.mp h
    rfl
  | cons segment segments ih =>
    cases texts with
    | nil => cases h
    | cons text texts =>
      rw [Cursor.passAll, ih (Nat.succ.inj h), rest_pass, List.drop_drop, List.flatten_cons,
        List.length_append]

theorem ways_text (c : Char) (text : List Char) (cursor : Cursor) :
    (ofList (one (.only c) :: text.map fun c => one (.only c))).ways cursor =
      if c :: text <+: cursor.rest then
        [cursor.moveTo (cursor.rest.drop (text.length + 1))] else [] := by
  induction text generalizing c cursor with
  | nil =>
    simp only [List.map_nil, ofList, ways]
    cases cursor.rest with
    | nil => simp
    | cons d rest => by_cases h : c = d <;> simp [CharSet.contains, h]
  | cons next text ih =>
    rw [ofList, ways, ways]
    cases cursor.rest with
    | nil => simp
    | cons d rest =>
      by_cases h : c = d
      · simpa [CharSet.contains, h, Cursor.moveTo] using ih next ⟨rest, true, cursor.spans⟩
      · simp [CharSet.contains, h]

theorem ways_capture (number : Nat) (set : CharSet) (cursor : Cursor) :
    (ofList [one (.only '/'), group number (ofList [few set])]).ways cursor =
      (stretches set cursor.rest).map fun text =>
        (cursor.moveTo (cursor.rest.drop text.length)).keep number cursor.rest.tail := by
  simp only [ofList, ways]
  cases cursor.rest with
  | nil => rfl
  | cons c rest =>
    by_cases h : c = '/'
    · simp [CharSet.contains, h, stretches, fewStops_eq_map, Function.comp_def, Cursor.moveTo]
    · have h' : ¬ '/' = c := fun e => h e.symm
      simp [CharSet.contains, h, h', stretches]

theorem ways_parts (number : Nat) (segment : Segment) (cursor : Cursor) :
    (ofList (segment.parts number)).ways cursor =
      (segment.takings cursor.rest).map (cursor.pass number segment) := by
  have hcapture (hdynamic : segment.isDynamic = true) (set : CharSet) :
      (ofList [one (.only '/'), group number (ofList [few set])]).ways cursor =
        (stretches set cursor.rest).map (cursor.pass number segment) := by
    rw [ways_capture]
    refine List.map_congr_left fun text htext => ?_
    obtain ⟨⟨part, _, _, rfl⟩, _⟩ := mem_stretches.mp htext
    rw [Cursor.pass, if_neg (List.cons_ne_nil _ _), if_pos hdynamic]
  unfold Segment.isDynamic at hcapture
  unfold Segment.parts Segment.takings
  cases hkind : segment.kind with
  | literal =>
    simp only
    rw [ways_text]
    split
    · simp [Cursor.pass, Segment.isDynamic, hkind, Kind.isDynamic]
    · rfl
  | param | optionalParam | catchAll => exact hcapture (by rw [hkind]; rfl) _
  | optionalCatchAll =>
    simp only [ofList, ways, List.flatMap_singleton', List.map_append, List.map_singleton]
    rw [← hcapture (by rw [hkind]; rfl)]
    simp [ofList, ways, Cursor.pass]

theorem ways_partsFrom (number : Nat) (segments : List Segment) (cursor : Cursor) :
    (ofList (Segment.partsFrom number segments)).ways cursor =
      (cuts segments cursor.rest).map fun texts => cursor.passAll number segments texts := by
  induction segments generalizing number cursor with
  | nil => rfl
  | cons segment segments ih =>
    rw [Segment.partsFrom, ways_ofList_append, ways, ways_parts, List.flatMap_map, cuts,
      List.map_flatMap]
    congr 1
    funext text
    rw [ih, rest_pass, List.map_map]
    rfl

end Regex

/-- The cuts that leave nothing over but a slash. -/
def wholeCuts (segments : List Segment) (path : List Char) : List (List (List Char)) :=
  (cuts segments path).filter fun texts =>
    path.drop texts.flatten.length = [] ∨ path.drop texts.flatten.length = ['/']

theorem mem_wholeCuts {segments : List Segment} {path : List Char} {texts : List (List Char)} :
    texts ∈ wholeCuts segments path ↔ ∃ d : Decomposition segments path, d.texts = texts := by
  rw [wholeCuts, List.mem_filter, mem_cuts, decide_eq_true_eq]
  constructor
  · intro h
    obtain ⟨⟨htaken, rest, rfl⟩, hrest⟩ := h
    rw [List.drop_left] at hrest
    exact ⟨⟨texts, rest, htaken, hrest, rfl⟩, rfl⟩
  · intro h
    obtain ⟨⟨texts, rest, htaken, hrest, rfl⟩, rfl⟩ := h
    refine ⟨⟨htaken, List.prefix_append _ _⟩, ?_⟩
    rw [List.drop_left]
    exact hrest

theorem pairwise_wholeCuts (segments : List Segment) (path : List Char) :
    (wholeCuts segments path).Pairwise (List.Lex Preferred) :=
  (pairwise_cuts segments path).filter _

/-- The first whole cut is the first decomposition. -/
theorem exists_first_of_head? {segments : List Segment} {path : List Char}
    {texts : List (List Char)} (h : (wholeCuts segments path).head? = some texts) :
    ∃ d : Decomposition segments path, d.First ∧ d.texts = texts := by
  obtain ⟨others, hcuts⟩ := List.head?_eq_some_iff.mp h
  have hmem : texts ∈ wholeCuts segments path := by
    rw [hcuts]
    exact List.mem_cons_self
  obtain ⟨d, rfl⟩ := mem_wholeCuts.mp hmem
  refine ⟨d, fun other => ?_, rfl⟩
  have hother := mem_wholeCuts.mpr ⟨other, rfl⟩
  have hordered := pairwise_wholeCuts segments path
  rw [hcuts] at hother hordered
  rcases List.mem_cons.mp hother with hsame | hlater
  · exact Or.inl hsame
  · exact Or.inr ((List.pairwise_cons.mp hordered).1 _ hlater)

namespace Regex

/-- After the last segment nothing may be left but a slash. -/
theorem findSome?_ways_end (cursor : Cursor) :
    ((ofList [optional (ofList [one (.only '/')]), stop]).ways cursor).findSome?
        (fun after => if after.rest.isEmpty then some after.spans else none) =
      if cursor.rest = [] ∨ cursor.rest = ['/'] then some cursor.spans else none := by
  have hstop (after : Cursor) : ((ofList [stop]).ways after).findSome?
      (fun after => if after.rest.isEmpty then some after.spans else none) =
        if after.rest = [] then some after.spans else none := by
    simp only [ofList, ways]
    cases hrest : after.rest with
    | nil => simp [hrest, atStop]
    | cons c rest => by_cases hline : atStop (c :: rest) = true <;> simp [hrest, hline]
  have hslash : (optional (ofList [one (.only '/')])).ways cursor =
      (if ['/'] <+: cursor.rest then [cursor.moveTo (cursor.rest.drop 1)] else []) ++ [cursor] := by
    rw [ways]
    exact congrArg (· ++ [cursor]) (ways_text '/' [] cursor)
  rw [ofList, ways, findSome?_flatMap, hslash]
  simp only [hstop]
  cases hrest : cursor.rest with
  | nil => simp [hrest]
  | cons c rest =>
    by_cases h : '/' = c
    · by_cases hnil : rest = [] <;> simp [hrest, ← h, hnil, Cursor.moveTo]
    · have h' : ¬ c = '/' := fun e => h e.symm
      simp [hrest, h, h']

end Regex

/-- Where success is a property, the first success is that of the first element with it. -/
theorem findSome?_eq_map_find? {α β : Type} {next : α → Option β} {p : α → Bool} {f : α → β}
    {l : List α} (h : ∀ a ∈ l, next a = if p a then some (f a) else none) :
    l.findSome? next = (l.find? p).map f := by
  induction l with
  | nil => rfl
  | cons a l ih =>
    obtain ⟨ha, hl⟩ := List.forall_mem_cons.mp h
    rw [List.findSome?_cons, List.find?_cons, ha, ih hl]
    cases p a <;> rfl

namespace Template

/-- The place after the texts of a decomposition. -/
def cursorAfter (template : Template) (path : String) (texts : List (List Char)) : Regex.Cursor :=
  (Regex.Cursor.atStart path.toList).passAll 1 template.segments texts

/-- A matcher finds the first whole cut. -/
theorem capture?_matcher (template : Template) (path : String) :
    template.matcher.capture? path =
      (wholeCuts template.segments path.toList).head?.map fun texts =>
        (template.cursorAfter path texts).spans := by
  have hstart : Regex.start.ways (.atStart path.toList) = [.atStart path.toList] := rfl
  rw [Matcher.capture?, Regex.fullMatch?, Regex.run_eq_findSome?]
  show ((Regex.ofList (.start :: _)).ways _).findSome? _ = _
  rw [Regex.ofList, Regex.ways, hstart, List.flatMap_singleton, Regex.ways_ofList_append,
    Regex.ways, Regex.findSome?_flatMap, Regex.ways_partsFrom, List.findSome?_map, wholeCuts,
    List.head?_filter]
  refine findSome?_eq_map_find? fun texts htexts => ?_
  have hrest : (template.cursorAfter path texts).rest = path.toList.drop texts.flatten.length :=
    Regex.rest_passAll (mem_cuts.mp htexts).1.length_eq.symm
  rw [Function.comp_apply, Regex.findSome?_ways_end, ← hrest]
  simp only [decide_eq_true_eq]
  rfl

/-- A template serves the paths that its segments decompose. -/
theorem accepts_matcher_iff {template : Template} {path : String} :
    template.matcher.accepts path = true ↔ Decomposes template.segments path.toList := by
  rw [Matcher.accepts, capture?_matcher, Option.isSome_map, List.isSome_head?,
    decomposes_iff_nonempty]
  constructor
  · intro h
    obtain ⟨texts, htexts⟩ := List.exists_mem_of_ne_nil _ h
    obtain ⟨d, _⟩ := mem_wholeCuts.mp htexts
    exact ⟨d⟩
  · intro h
    obtain ⟨d⟩ := h
    exact List.ne_nil_of_mem (mem_wholeCuts.mpr ⟨d, rfl⟩)

end Template

end PathRouter
