import PathRouter.Proofs.Matcher.Filling
import PathRouter.Proofs.Template.Pieces

/-!
# What a catch-all covers

A catch-all at the end of a template takes what longer templates with the same first segments take
for the others, as long as that is one component at least and on one line. Parameters and literals
may hold line breaks, which a catch-all does not take, so a path with a line break beyond the first
segments is served by the longer template only.
-/
namespace PathRouter

open Template (parse)

variable {path : List Char}

/-- At the end of a template, a catch-all takes what is on one line and more than a slash. -/
theorem decomposes_catchAll_iff {last : Segment} (h : last.kind = .catchAll) :
    Decomposes [last] path ↔ '\n' ∉ path ∧ ∃ part ≠ [], path = '/' :: part := by
  have htakes (text : List Char) :
      last.Takes text ↔ ∃ part ≠ [], '\n' ∉ part ∧ text = '/' :: part := by
    rw [Segment.Takes, h]
  constructor
  · intro hdecomposes
    obtain ⟨text, after, rfl, htext, hafter⟩ := hdecomposes
    obtain ⟨part, hpart, hline, rfl⟩ := (htakes text).mp htext
    refine ⟨?_, part ++ after, by simp [hpart], rfl⟩
    rcases hafter with rfl | rfl <;> simp [hline]
  · intro hpath
    obtain ⟨hline, part, hpart, rfl⟩ := hpath
    have htext : last.Takes ('/' :: part) :=
      (htakes _).mpr ⟨part, hpart, fun hmem => hline (List.mem_cons_of_mem _ hmem), rfl⟩
    exact ⟨'/' :: part, [], (List.append_nil _).symm, htext, Or.inl rfl⟩

/-- A segment that must take a component takes more than a slash. -/
theorem Segment.Takes.exists_part {segment : Segment} {text : List Char} (h : segment.Takes text)
    (hkind : segment.kind ≠ .optionalCatchAll) (hfilled : segment.value ≠ "") :
    ∃ part ≠ [], text = '/' :: part := by
  unfold Takes at h
  cases hcase : segment.kind with
  | literal =>
    rw [hcase] at h
    exact ⟨segment.value.toList, fun hnil => hfilled (String.toList_eq_nil_iff.mp hnil), h⟩
  | param | optionalParam | catchAll =>
    rw [hcase] at h
    obtain ⟨part, hpart, _, htext⟩ := h
    exact ⟨part, hpart, htext⟩
  | optionalCatchAll => exact absurd hcase hkind

theorem Decomposes.exists_part {first : Segment} {rest : List Segment}
    (h : Decomposes (first :: rest) path) (hkind : first.kind ≠ .optionalCatchAll)
    (hfilled : first.value ≠ "") : ∃ part ≠ [], path = '/' :: part := by
  obtain ⟨text, after, rfl, htext, _⟩ := h
  obtain ⟨part, hpart, rfl⟩ := htext.exists_part hkind hfilled
  exact ⟨part ++ after, by simp [hpart], rfl⟩

section Single

variable {front : List Segment} {texts : List (List Char)}
  (hsingle : ∀ segment ∈ front, segment.repeats = false)
  (hvalue : ∀ segment ∈ front, '/' ∉ segment.value.toList)
  (htexts : List.Forall₂ Segment.Takes front texts)
include hsingle hvalue htexts

/-- Single segments take one component each. -/
theorem exists_render_of_takes_single : ∃ parts : List (List Char),
    parts.length = front.length ∧ (∀ part ∈ parts, '/' ∉ part) ∧
      texts.flatten = render parts := by
  induction htexts with
  | nil => exact ⟨[], rfl, by simp, rfl⟩
  | @cons segment text front texts htext _ ih =>
    obtain ⟨hs, hsingle⟩ := List.forall_mem_cons.mp hsingle
    obtain ⟨hv, hvalue⟩ := List.forall_mem_cons.mp hvalue
    obtain ⟨part, hslash, rfl⟩ := Segment.exists_of_takes_single hs hv htext
    obtain ⟨parts, hlength, hslashes, hparts⟩ := ih hsingle hvalue
    refine ⟨part :: parts, by rw [List.length_cons, hlength, List.length_cons],
      List.forall_mem_cons.mpr ⟨hslash, hslashes⟩, ?_⟩
    rw [List.flatten_cons, hparts]
    rfl

/-- What single segments leave of a path is its pieces beyond as many. -/
theorem line_iff_of_takes_single {path : String} {part : List Char}
    (hpath : path.toList = texts.flatten ++ '/' :: part) :
    '\n' ∉ '/' :: part ↔ ∀ piece ∈ (pieces path).drop front.length, '\n' ∉ piece := by
  obtain ⟨parts, hlength, hslashes, hparts⟩ := exists_render_of_takes_single hsingle hvalue htexts
  have hpieces : pieces path = parts ++ part.splitOn '/' := by
    apply pieces_eq_of_render
    · exact List.append_ne_nil_of_right_ne_nil _ (List.splitOn_ne_nil _ _)
    · exact List.forall_mem_append.mpr
        ⟨hslashes, fun _ hpiece => Template.not_mem_of_mem_splitOn hpiece⟩
    · rw [hpath, hparts, render_append, render_splitOn]
  rw [hpieces, ← hlength, List.drop_left, ← render_splitOn, mem_render_iff (by decide)]
  simp

end Single

/-- In a template that strict reading passes, only single segments come before a catch-all. -/
theorem Template.single_of_validate {route : String} {read : Template}
    (hvalid : (parse route).validate = .ok read) {front : List Segment} {last : Segment}
    (hsegments : (parse route).segments = front ++ [last]) (hlast : last.isDynamic = true) :
    ∀ segment ∈ front, segment.repeats = false := by
  have hdefect := segmentsDefect?_of_validate hvalid
  have hnamed := named_parse route
  have hmem : last ∈ (parse route).segments := by simp [hsegments]
  unfold Named at hnamed
  rw [hsegments] at hdefect hnamed
  refine Segment.single_of_segmentsDefect?_eq_none hdefect hnamed fun hempty => ?_
  have hliteral := isDynamic_of_value_eq_empty last hmem hempty
  rw [hlast] at hliteral
  cases hliteral

/-- A template that ends in a catch-all serves what a longer one with the same first segments
serves, if the path is on one line. For a route that strict reading passes, it is enough that the
path beyond the first segments is on one line, and nothing less will do. -/
theorem catch_all_covers_longer_templates {template longer : Template} {front rest : List Segment}
    {last first : Segment} (htemplate : template.segments = front ++ [last])
    (hlast : last.kind = .catchAll) (hlonger : longer.segments = front ++ first :: rest)
    (hfirst : first.kind ≠ .optionalCatchAll) (hfilled : first.value ≠ "") :
    ∃ matcher longerMatcher, template.compile = .ok matcher ∧
      longer.compile = .ok longerMatcher ∧
      ∀ path, longerMatcher.accepts path = true →
        ('\n' ∉ path.toList → matcher.accepts path = true) ∧
        ∀ route, template = parse route → template.validate = .ok template →
          (matcher.accepts path = true ↔
            ∀ piece ∈ (pieces path).drop front.length, '\n' ∉ piece) := by
  refine ⟨_, _, template.compile_eq, longer.compile_eq, fun path hserves => ?_⟩
  rw [Template.accepts_matcher_iff, hlonger, decomposes_append_iff] at hserves
  obtain ⟨texts, after, htexts, hafter, hpath⟩ := hserves
  obtain ⟨part, hpart, rfl⟩ := hafter.exists_part hfirst hfilled
  -- The longer template cuts the path where the catch-all can take the rest of its line.
  have hcovers (hline : '\n' ∉ '/' :: part) : template.matcher.accepts path = true := by
    rw [Template.accepts_matcher_iff, htemplate, decomposes_append_iff]
    exact ⟨texts, _, htexts, (decomposes_catchAll_iff hlast).mpr ⟨hline, part, hpart, rfl⟩, hpath⟩
  refine ⟨fun hline => hcovers fun hmem => hline ?_, ?_⟩
  · rw [hpath]
    exact List.mem_append_right _ hmem
  · rintro route rfl hvalid
    have hdynamic : last.isDynamic = true := by rw [Segment.isDynamic, hlast]; rfl
    have hsingle := Template.single_of_validate hvalid htemplate hdynamic
    have hvalue : ∀ segment ∈ front, '/' ∉ segment.value.toList := by
      intro segment hsegment
      have hmem : segment ∈ (parse route).segments := by
        rw [htemplate]
        exact List.mem_append_left _ hsegment
      exact Template.slash_not_mem_value hmem
    constructor
    · intro haccepts
      rw [Template.accepts_matcher_iff, htemplate, decomposes_append_iff] at haccepts
      obtain ⟨texts', after', htexts', hafter', hpath'⟩ := haccepts
      obtain ⟨hline, part', _, rfl⟩ := (decomposes_catchAll_iff hlast).mp hafter'
      exact (line_iff_of_takes_single hsingle hvalue htexts' hpath').mp hline
    · intro hline
      exact hcovers ((line_iff_of_takes_single hsingle hvalue htexts hpath).mpr hline)

theorem docs_catch_all_covers_editing_page :
    ∃ matcher, (parse "/docs/[lang]/[...path]").compile = .ok matcher ∧
      matcher.accepts "/docs/e\nn/a/edit/" = true ∧
      matcher.accepts "/docs/en/a\n/edit/" = false := by
  have htemplate : (parse "/docs/[lang]/[...path]").segments =
      [⟨"docs", .literal, none⟩, ⟨"[lang]", .param, some "lang"⟩] ++
        [⟨"[...path]", .catchAll, some "path"⟩] := by decide
  have hlonger : (parse "/docs/[lang]/[page]/edit").segments =
      [⟨"docs", .literal, none⟩, ⟨"[lang]", .param, some "lang"⟩] ++
        ⟨"[page]", .param, some "page"⟩ :: [⟨"edit", .literal, none⟩] := by decide
  obtain ⟨matcher, longerMatcher, hcompile, hlongerCompile, hcovers⟩ :=
    catch_all_covers_longer_templates htemplate rfl hlonger (by decide) (by decide)
  obtain rfl := Except.ok.inj (hlongerCompile.symm.trans (Template.compile_eq _))
  refine ⟨matcher, hcompile, ?_, ?_⟩
  · exact ((hcovers "/docs/e\nn/a/edit/" (by decide)).2 _ rfl rfl).mpr (by decide)
  · rw [Bool.eq_false_iff, ne_eq, (hcovers "/docs/en/a\n/edit/" (by decide)).2 _ rfl rfl]
    decide

/-- A parameter takes a component with a line break, and the catch-all in its place does not. -/
theorem line_break_escapes_catch_all :
    (parse "/[...path]").validate = .ok (parse "/[...path]") ∧
      (parse "/[id]").validate = .ok (parse "/[id]") ∧
      (parse "/[...path]").segments = [⟨"[...path]", .catchAll, some "path"⟩] ∧
      (parse "/[id]").segments = [⟨"[id]", .param, some "id"⟩] ∧
      ∃ matcher longerMatcher, (parse "/[...path]").compile = .ok matcher ∧
        (parse "/[id]").compile = .ok longerMatcher ∧
        longerMatcher.accepts "/a\n" = true ∧ matcher.accepts "/a\n" = false :=
  ⟨rfl, rfl, by decide, by decide, _, _, Template.compile_eq _, Template.compile_eq _, by decide,
    by decide⟩

end PathRouter
