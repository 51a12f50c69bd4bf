import Mathlib.Data.List.Lex
import PathRouter.Proofs.Matcher.Coverage

/-!
# A slash at the end of a path

A slash that is put after a path changes neither whether a template serves the path nor what it
finds there. The slash could also go to a catch-all at the end of the template, but the catch-all
gives it up: without the slash its text is shorter and so comes first. This holds for templates that
strict reading passes and whose segments all have text, and for paths that do not end in a slash
already.
-/
namespace PathRouter

open Template (parse)

theorem Preferred.asymm {a b : List Char} (h : Preferred a b) : ¬ Preferred b a := by
  intro h'
  obtain ⟨ha, hab⟩ := h
  obtain ⟨hb, hba⟩ := h'
  rcases hab with hnil | hab
  · exact hb hnil
  · rcases hba with hnil | hba
    · exact ha hnil
    · omega

theorem lex_preferred_asymm {as bs : List (List Char)} (h : List.Lex Preferred as bs) :
    ¬ List.Lex Preferred bs as :=
  have : Std.Asymm Preferred := ⟨fun _ _ => Preferred.asymm⟩
  (List.Lex.asymm Preferred).asymm as bs h

namespace Decomposition

variable {segments : List Segment} {path slashed : List Char}

theorem First.texts_eq {d other : Decomposition segments path} (h : d.First) (h' : other.First) :
    other.texts = d.texts := by
  rcases h other with hsame | hlater
  · exact hsame
  · rcases h' d with hsame | hearlier
    · exact hsame.symm
    · exact absurd hearlier (lex_preferred_asymm hlater)

theorem rest_eq_nil (d : Decomposition segments path) (hpath : path.getLast? ≠ some '/') :
    d.rest = [] := by
  rcases d.rest_eq with hrest | hrest
  · exact hrest
  · refine absurd ?_ hpath
    rw [d.path_eq, hrest, List.getLast?_concat]

/-- The decomposition that leaves over a slash put after the path. -/
def withSlash (d : Decomposition segments path) (hrest : d.rest = [])
    (hslashed : slashed = path ++ ['/']) : Decomposition segments slashed where
  texts := d.texts
  rest := ['/']
  taken := d.taken
  rest_eq := Or.inr rfl
  path_eq := by
    have hpath := d.path_eq
    rw [hrest, List.append_nil] at hpath
    exact hslashed.trans (congrArg (· ++ ['/']) hpath)

/-- The decomposition of what comes before a slash that is left over. -/
def withoutSlash (d : Decomposition segments slashed) (hrest : d.rest = ['/'])
    (hslashed : slashed = path ++ ['/']) : Decomposition segments path where
  texts := d.texts
  rest := []
  taken := d.taken
  rest_eq := Or.inl rfl
  path_eq := by
    have hpath := hslashed.symm.trans d.path_eq
    rw [hrest] at hpath
    exact (List.append_cancel_right hpath).trans (List.append_nil _).symm

theorem First.withoutSlash {d : Decomposition segments slashed} (h : d.First)
    (hrest : d.rest = ['/']) (hslashed : slashed = path ++ ['/'])
    (hpath : path.getLast? ≠ some '/') : (d.withoutSlash hrest hslashed).First :=
  fun other => h (other.withSlash (other.rest_eq_nil hpath) hslashed)

end Decomposition

theorem exists_of_forall₂_concat {α β : Type} {r : α → β → Prop} {front : List α} {last : α}
    {l : List β} (h : List.Forall₂ r (front ++ [last]) l) :
    ∃ others b, l = others ++ [b] ∧ List.Forall₂ r front others ∧ r last b := by
  induction front generalizing l with
  | nil =>
    cases h with
    | cons hlast hnil =>
      cases hnil
      exact ⟨[], _, rfl, .nil, hlast⟩
  | cons a front ih =>
    cases h with
    | cons ha h =>
      obtain ⟨others, b, rfl, hfront, hlast⟩ := ih h
      exact ⟨_ :: others, b, rfl, .cons ha hfront, hlast⟩

namespace Segment

variable {segment : Segment} {text : List Char}

/-- The text of a single segment that is not empty does not end in a slash. -/
theorem getLast?_ne_of_takes_single (hs : segment.repeats = false)
    (hvalue : '/' ∉ segment.value.toList) (hfilled : segment.value ≠ "")
    (h : segment.Takes text) : text.getLast? ≠ some '/' := by
  have hkind : segment.kind ≠ .optionalCatchAll := by
    intro hkind
    rw [repeats, hkind] at hs
    cases hs
  obtain ⟨part, hslash, rfl⟩ := exists_of_takes_single hs hvalue h
  obtain ⟨part', hne, hpart⟩ := h.exists_part hkind hfilled
  obtain rfl := (List.cons.inj hpart).2
  rw [List.getLast?_cons_of_ne_nil hne]
  exact fun hlast => hslash (List.mem_of_getLast? hlast)

theorem takes_of_repeats (h : segment.repeats = true) (hne : text ≠ []) :
    segment.Takes text ↔ ∃ part ≠ [], '\n' ∉ part ∧ text = '/' :: part := by
  unfold repeats at h
  unfold Takes
  cases hkind : segment.kind <;> simp_all [Kind.repeats]

end Segment

section Last

variable {front : List Segment} {last : Segment}
  (hsingle : ∀ segment ∈ front, segment.repeats = false)
  (hvalue : ∀ segment ∈ front ++ [last], '/' ∉ segment.value.toList)
  (hfilled : ∀ segment ∈ front ++ [last], segment.value ≠ "")
include hsingle hvalue hfilled

theorem getLast?_flatten_ne {texts : List (List Char)}
    (h : List.Forall₂ Segment.Takes front texts) : texts.flatten.getLast? ≠ some '/' := by
  induction h with
  | nil => simp
  | @cons segment text front texts htext _ ih =>
    obtain ⟨hs, hsingle⟩ := List.forall_mem_cons.mp hsingle
    obtain ⟨hv, hvalue⟩ := List.forall_mem_cons.mp hvalue
    obtain ⟨hf, hfilled⟩ := List.forall_mem_cons.mp hfilled
    have htext := Segment.getLast?_ne_of_takes_single hs hv hf htext
    rw [List.flatten_cons, List.getLast?_append, Ne, Option.or_eq_some_iff, not_or]
    exact ⟨ih hsingle hvalue hfilled, fun hlast => htext hlast.2⟩

/-- The first decomposition of a path with a slash put after it leaves the slash over. -/
theorem Decomposition.First.rest_eq_slash {segments : List Segment}
    (hsegments : segments = front ++ [last]) {path slashed : List Char}
    (hslashed : slashed = path ++ ['/']) (hpath : path.getLast? ≠ some '/')
    {d : Decomposition segments slashed} (h : d.First) : d.rest = ['/'] := by
  subst hsegments hslashed
  rcases d.rest_eq with hrest | hrest
  case inr => exact hrest
  obtain ⟨texts, text, htexts, hfront, hlast⟩ := exists_of_forall₂_concat d.taken
  have hflat : path ++ ['/'] = texts.flatten ++ text := by
    refine d.path_eq.trans ?_
    rw [hrest, htexts]
    simp
  by_cases hnil : text = []
  · refine absurd ?_ (getLast?_flatten_ne hsingle hvalue hfilled hfront)
    rw [hnil, List.append_nil] at hflat
    rw [← hflat, List.getLast?_concat]
  have hend : text.getLast? = some '/' := by
    rw [← List.getLast?_append_of_ne_nil texts.flatten hnil, ← hflat, List.getLast?_concat]
  cases hrepeats : last.repeats with
  | false =>
    exact absurd hend (Segment.getLast?_ne_of_takes_single hrepeats (hvalue last (by simp))
      (hfilled last (by simp)) hlast)
  | true =>
    obtain ⟨part, hpart, hline, rfl⟩ := (Segment.takes_of_repeats hrepeats hnil).mp hlast
    rw [List.getLast?_cons_of_ne_nil hpart] at hend
    obtain ⟨shorter, rfl⟩ := List.getLast?_eq_some_iff.mp hend
    have hbefore : path = texts.flatten ++ '/' :: shorter :=
      List.append_cancel_right (hflat.trans (by simp))
    by_cases hshorter : shorter = []
    · refine absurd ?_ hpath
      rw [hbefore, hshorter, List.getLast?_concat]
    -- The catch-all could leave the slash over, and that decomposition would come first.
    have htakes : last.Takes ('/' :: shorter) :=
      (Segment.takes_of_repeats hrepeats (List.cons_ne_nil _ _)).mpr
        ⟨shorter, hshorter, fun hmem => hline (List.mem_append_left _ hmem), rfl⟩
    let other : Decomposition (front ++ [last]) (path ++ ['/']) :=
      ⟨texts ++ ['/' :: shorter], ['/'], List.rel_append hfront (.cons htakes .nil), Or.inr rfl,
        by simp [hbefore]⟩
    have hearlier : List.Lex Preferred other.texts d.texts := by
      rw [htexts]
      exact List.Lex.append_left _ (.rel ⟨List.cons_ne_nil _ _, Or.inr (by simp)⟩) texts
    rcases h other with hsame | hlater
    · rw [hsame] at hearlier
      exact absurd hearlier (lex_preferred_asymm hearlier)
    · exact absurd hearlier (lex_preferred_asymm hlater)

end Last

/-- In a template that strict reading passes and whose segments have text, all segments but the
last one are single. -/
theorem Template.exists_last_of_validate {route : String} {template : Template}
    (hvalid : (parse route).validate = .ok template)
    (hfilled : ∀ segment ∈ (parse route).segments, segment.value ≠ "") :
    ∃ front last, (parse route).segments = front ++ [last] ∧
      ∀ segment ∈ front, segment.repeats = false := by
  have hne : (parse route).segments ≠ [] := by
    rw [parse]
    simp
  have hdefect := segmentsDefect?_of_validate hvalid
  have hnamed := named_parse route
  unfold Named at hnamed
  rw [← List.dropLast_append_getLast hne] at hdefect hnamed
  exact ⟨_, _, (List.dropLast_append_getLast hne).symm,
    Segment.single_of_segmentsDefect?_eq_none hdefect hnamed (hfilled _ (List.getLast_mem hne))⟩

section Valid

variable {route : String} {template : Template} {path : String}
  (hvalid : (parse route).validate = .ok template)
  (hfilled : ∀ segment ∈ (parse route).segments, segment.value ≠ "")
  (hpath : path.toList.getLast? ≠ some '/')
include hvalid hfilled hpath

theorem Template.rest_eq_slash_of_first
    {d : Decomposition (parse route).segments (path ++ "/").toList} (h : d.First) :
    d.rest = ['/'] := by
  obtain ⟨front, last, hsegments, hsingle⟩ := exists_last_of_validate hvalid hfilled
  refine h.rest_eq_slash hsingle ?_ ?_ hsegments String.toList_append hpath
  · exact hsegments ▸ fun _ => slash_not_mem_value
  · exact hsegments ▸ hfilled

theorem Template.accepts_slash :
    (parse route).matcher.accepts (path ++ "/") = (parse route).matcher.accepts path := by
  rw [Bool.eq_iff_iff]
  constructor
  · intro hserves
    obtain ⟨d, hfirst, _⟩ := exists_first_of_accepts (named_parse route) hserves
    have hrest := rest_eq_slash_of_first hvalid hfilled hpath hfirst
    rw [accepts_matcher_iff, decomposes_iff_nonempty]
    exact ⟨d.withoutSlash hrest String.toList_append⟩
  · intro hserves
    rw [accepts_matcher_iff, decomposes_iff_nonempty] at hserves ⊢
    obtain ⟨d⟩ := hserves
    exact ⟨d.withSlash (d.rest_eq_nil hpath) String.toList_append⟩

/-- Both paths are decomposed into the same texts. -/
theorem Template.exists_extract_slash (hserves : (parse route).matcher.accepts path = true)
    (decode : Bool) :
    ∃ params, (parse route).matcher.extract decode (path ++ "/") = .ok (some params) ∧
      (parse route).matcher.extract decode path = .ok (some params) := by
  have hnames := Segment.names_of_segmentsDefect?_eq_none (segmentsDefect?_of_validate hvalid)
  have hserves' := (accepts_slash hvalid hfilled hpath).trans hserves
  obtain ⟨d, hfirst, hread⟩ := exists_first_of_accepts (named_parse route) hserves
  obtain ⟨d', hfirst', hread'⟩ := exists_first_of_accepts (named_parse route) hserves'
  have hrest := rest_eq_slash_of_first hvalid hfilled hpath hfirst'
  have htexts : d'.texts = d.texts :=
    hfirst.texts_eq (hfirst'.withoutSlash hrest String.toList_append hpath)
  obtain ⟨params, hextract, hparams⟩ := hread decode
  obtain ⟨params', hextract', hparams'⟩ := hread' decode
  obtain rfl := hparams hnames
  obtain rfl := hparams' hnames
  rw [htexts] at hextract'
  exact ⟨_, hextract', hextract⟩

end Valid

/-- A template that strict reading passes and whose segments have text finds in a path with a slash
put after it what it finds in the path, or nothing in both, if the path does not end in a slash. -/
theorem trailing_slash_changes_nothing {route : String} {template : Template}
    (hvalid : (parse route).validate = .ok template)
    (hfilled : ∀ segment ∈ template.segments, segment.value ≠ "") :
    ∃ matcher, template.compile = .ok matcher ∧
      ∀ path : String, endsWith '/' path = false →
        matcher.accepts (path ++ "/") = matcher.accepts path ∧
        ∀ decode, ∃ params?, matcher.extract decode (path ++ "/") = .ok params? ∧
          matcher.extract decode path = .ok params? := by
  obtain ⟨_, rfl⟩ := Template.validate_eq_ok_iff.mp hvalid
  refine ⟨_, Template.compile_eq _, fun path hends => ?_⟩
  have hpath : path.toList.getLast? ≠ some '/' := by simpa [endsWith] using hends
  have haccepts := Template.accepts_slash hvalid hfilled hpath
  refine ⟨haccepts, fun decode => ?_⟩
  cases hserves : (parse route).matcher.accepts path with
  | false =>
    exact ⟨none, Template.extract_of_not_accepts (haccepts.trans hserves) decode,
      Template.extract_of_not_accepts hserves decode⟩
  | true =>
    obtain ⟨params, hextract⟩ :=
      Template.exists_extract_slash hvalid hfilled hpath hserves decode
    exact ⟨some params, hextract⟩

/-- The slash after a shop's own page begins no filter, and the one after a filter ends it. -/
theorem trailing_slash_is_no_filter :
    ∃ matcher, (parse "/shop/[[...filters]]").compile = .ok matcher ∧
      matcher.accepts "/shop/" = true ∧ matcher.extract true "/shop/" = .ok (some []) ∧
      matcher.extract true "/shop/red//blue/" =
        .ok (some [("filters", .several ["red", "", "blue"])]) := by
  have hvalid : (parse "/shop/[[...filters]]").validate = .ok (parse "/shop/[[...filters]]") := rfl
  obtain ⟨matcher, hcompile, hslash⟩ := trailing_slash_changes_nothing hvalid (by decide)
  obtain rfl := Except.ok.inj (hcompile.symm.trans (Template.compile_eq _))
  obtain ⟨hserves, hfound⟩ := hslash "/shop" (by decide)
  obtain ⟨params?, hafter, hbefore⟩ := hfound true
  obtain ⟨filters?, hafter', hbefore'⟩ := (hslash "/shop/red//blue" (by decide)).2 true
  obtain rfl : some [] = params? := Except.ok.inj (.trans (by decide) hbefore)
  obtain rfl : some [("filters", .several ["red", "", "blue"])] = filters? :=
    Except.ok.inj (.trans (by decide) hbefore')
  exact ⟨_, hcompile, hserves.trans (by decide), hafter, hafter'⟩

end PathRouter
