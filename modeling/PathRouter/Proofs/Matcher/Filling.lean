import PathRouter.Proofs.Matcher.Parameters
import PathRouter.Proofs.Template.Regularity

/-!
# Filling in parameters

A path is built from a template by putting values in the places of its parameters. The parameters
found in a path so built are the values that were put in, if strict reading passes the template;
and the parameters found in any path build that path again, up to a slash at its end.
-/
namespace PathRouter

open Bindings (value?)

/-- Texts that may stand for the components that a catch-all takes. -/
def IsTail (texts : List String) : Prop :=
  texts ≠ [] ∧ ∀ text ∈ texts, text ≠ "" ∧ IsPlain text.toList

/-- The value with its texts percent-decoded or as they are. -/
def Value.read (decode : Bool) : Value → Value
  | single text => single (if decode then Text.Percent.decode text else text)
  | several texts =>
    several (texts.map fun text => if decode then Text.Percent.decode text else text)

namespace Segment

/-- What a segment contributes to a path, given the value of its parameter, if the value is one of
its kind. -/
def fill? (segment : Segment) (value? : Option Value) : Option (List Char) :=
  match segment.kind, value? with
  | .literal, _ => some ('/' :: segment.value.toList)
  | .param, some (.single text) | .optionalParam, some (.single text) => some ('/' :: text.toList)
  | .catchAll, some (.several texts) | .optionalCatchAll, some (.several texts) =>
    some ('/' :: ['/'].intercalate (texts.map String.toList))
  | .optionalCatchAll, none => some []
  | _, _ => none

/-- Whether a parameter may be given this value. -/
def Suits (segment : Segment) (value? : Option Value) : Prop :=
  match segment.kind with
  | .literal => True
  | .param | .optionalParam =>
    ∃ text, value? = some (.single text) ∧ text ≠ "" ∧ '/' ∉ text.toList
  | .catchAll => ∃ texts, value? = some (.several texts) ∧ IsTail texts
  | .optionalCatchAll => value? = none ∨ ∃ texts, value? = some (.several texts) ∧ IsTail texts

end Segment

namespace Template

/-- The path built from a template and the values assigned to its names. -/
def fill? (template : Template) (assign : String → Option Value) : Option String :=
  (template.segments.mapM fun segment : Segment => segment.fill? (segment.name.bind assign)).map
    fun texts => String.ofList texts.flatten

/-- The values assigned to the names of a template, in the order of the names. -/
def assigned (template : Template) (decode : Bool) (assign : String → Option Value) : Params :=
  template.segments.filterMap fun segment =>
    segment.name.bind fun name => (assign name).map fun value => (name, value.read decode)

end Template

section Values

theorem ofCapture_single (decode : Bool) (text : String) :
    Value.ofCapture false decode text = (Value.single text).read decode := by
  cases decode <;> rfl

theorem ofCapture_several (decode : Bool) {texts : List String} (h : IsTail texts) :
    Value.ofCapture true decode (String.ofList (['/'].intercalate (texts.map String.toList))) =
      (Value.several texts).read decode := by
  obtain ⟨hne, hall⟩ := h
  have hsplit : (['/'].intercalate (texts.map String.toList)).splitOn '/' =
      texts.map String.toList := by
    refine List.splitOn_intercalate '/' (fun part hpart => ?_) (by simpa using hne)
    obtain ⟨text, htext, rfl⟩ := List.mem_map.mp hpart
    exact (hall text htext).2.1
  unfold Value.ofCapture Value.read
  rw [String.toList_ofList, hsplit]
  cases decode <;> simp

theorem cons_intercalate_eq_render {texts : List String} (h : IsTail texts) :
    '/' :: ['/'].intercalate (texts.map String.toList) = render (texts.map String.toList) :=
  (render_eq_cons_intercalate (by simpa using h.1)).symm

/-- The components of a catch-all do not end in a slash. -/
theorem getLast?_render_ne {texts : List String} (h : IsTail texts) :
    (render (texts.map String.toList)).getLast? ≠ some '/' := by
  obtain ⟨hne, hall⟩ := h
  obtain ⟨front, last, rfl⟩ := List.eq_nil_or_concat texts |>.resolve_left hne
  obtain ⟨hlast, hplain, _⟩ := hall last (by simp)
  have hne : last.toList ≠ [] := fun e => hlast (String.toList_eq_nil_iff.mp e)
  simp only [List.concat_eq_append, List.map_append, List.map_singleton, render_append, render_cons,
    render_nil, List.append_nil]
  rw [List.getLast?_append_of_ne_nil _ (List.cons_ne_nil _ _), List.getLast?_cons_of_ne_nil hne]
  exact fun e => hplain (List.mem_of_getLast? e)

end Values

/-- A text that stands for the value of a segment in a path. -/
structure Segment.Holds (segment : Segment) (value? : Option Value) (text : List Char) : Prop where
  filled : segment.fill? value? = some text
  taken : segment.Takes text
  /-- What stands for several components does not end in a slash. -/
  ends : segment.repeats = true → text.getLast? ≠ some '/'
  /-- What is read from the text is the value. -/
  reads : segment.isDynamic = true → ∀ decode,
    text.tail?.map (fun part => Value.ofCapture segment.repeats decode (String.ofList part)) =
      value?.map (Value.read decode)

namespace Segment

variable {segment : Segment} {value? : Option Value}

theorem holds_of_literal (h : segment.kind = .literal) :
    segment.Holds value? ('/' :: segment.value.toList) where
  filled := by simp [fill?, h]
  taken := by simp [Takes, h]
  ends hrepeats := by simp [repeats, h, Kind.repeats] at hrepeats
  reads hdynamic := by simp [isDynamic, h, Kind.isDynamic] at hdynamic

theorem holds_of_single {text : String} (h : segment.kind = .param ∨ segment.kind = .optionalParam)
    (hne : text ≠ "") (hslash : '/' ∉ text.toList) :
    segment.Holds (some (.single text)) ('/' :: text.toList) where
  filled := by rcases h with h | h <;> simp [fill?, h]
  taken := by
    have hne : text.toList ≠ [] := fun e => hne (String.toList_eq_nil_iff.mp e)
    rcases h with h | h <;> simp [Takes, h, hne, hslash]
  ends hrepeats := by rcases h with h | h <;> simp [repeats, h, Kind.repeats] at hrepeats
  reads _ decode := by
    have hrepeats : segment.repeats = false := by
      rcases h with h | h <;> rw [repeats, h] <;> rfl
    rw [hrepeats, List.tail?_cons, Option.map_some, String.ofList_toList, ofCapture_single,
      Option.map_some]

theorem holds_of_several {texts : List String}
    (h : segment.kind = .catchAll ∨ segment.kind = .optionalCatchAll) (htail : IsTail texts) :
    segment.Holds (some (.several texts)) ('/' :: ['/'].intercalate (texts.map String.toList)) where
  filled := by rcases h with h | h <;> simp [fill?, h]
  taken := by
    have hplain : ∀ part ∈ texts.map String.toList, IsPlain part := by
      intro part hpart
      obtain ⟨text, htext, rfl⟩ := List.mem_map.mp hpart
      exact (htail.2 text htext).2
    have hne : texts.map String.toList ≠ [[]] := by
      intro hempty
      obtain ⟨text, rfl, htext⟩ := List.map_eq_singleton_iff.mp hempty
      exact (htail.2 text List.mem_cons_self).1 (String.toList_eq_nil_iff.mp htext)
    have htaken := (exists_render_eq_iff hplain).mpr ⟨by simpa using htail.1, hne⟩
    rw [← cons_intercalate_eq_render htail] at htaken
    rcases h with h | h
    · simpa only [Takes, h] using htaken
    · simpa only [Takes, h] using Or.inr htaken
  ends _ := by
    rw [cons_intercalate_eq_render htail]
    exact getLast?_render_ne htail
  reads _ decode := by
    have hrepeats : segment.repeats = true := by
      rcases h with h | h <;> rw [repeats, h] <;> rfl
    rw [hrepeats, List.tail?_cons, Option.map_some, ofCapture_several decode htail,
      Option.map_some]

theorem holds_of_absent (h : segment.kind = .optionalCatchAll) : segment.Holds none [] where
  filled := by simp [fill?, h]
  taken := by simp [Takes, h]
  ends _ := by simp
  reads _ _ := rfl

theorem exists_holds (h : segment.Suits value?) : ∃ text, segment.Holds value? text := by
  unfold Suits at h
  cases hkind : segment.kind with
  | literal => exact ⟨_, holds_of_literal hkind⟩
  | param =>
    rw [hkind] at h
    obtain ⟨text, rfl, hne, hslash⟩ := h
    exact ⟨_, holds_of_single (Or.inl hkind) hne hslash⟩
  | optionalParam =>
    rw [hkind] at h
    obtain ⟨text, rfl, hne, hslash⟩ := h
    exact ⟨_, holds_of_single (Or.inr hkind) hne hslash⟩
  | catchAll =>
    rw [hkind] at h
    obtain ⟨texts, rfl, htail⟩ := h
    exact ⟨_, holds_of_several (Or.inl hkind) htail⟩
  | optionalCatchAll =>
    rw [hkind] at h
    rcases h with rfl | ⟨texts, rfl, htail⟩
    · exact ⟨_, holds_of_absent hkind⟩
    · exact ⟨_, holds_of_several (Or.inr hkind) htail⟩

end Segment

theorem mapM_eq_some_of_forall₂ {α β : Type} {f : α → Option β} {as : List α} {bs : List β}
    (h : List.Forall₂ (fun a b => f a = some b) as bs) : as.mapM f = some bs := by
  induction h with
  | nil => rfl
  | cons hab _ ih => simp [List.mapM_cons, hab, ih]

theorem exists_forall₂_holds {segments : List Segment} {assign : String → Option Value}
    (h : ∀ segment ∈ segments, segment.Suits (segment.name.bind assign)) :
    ∃ texts, List.Forall₂ (fun segment text =>
      Segment.Holds segment (segment.name.bind assign) text) segments texts := by
  induction segments with
  | nil => exact ⟨[], .nil⟩
  | cons segment segments ih =>
    obtain ⟨hsegment, hsegments⟩ := List.forall_mem_cons.mp h
    obtain ⟨text, htext⟩ := Segment.exists_holds hsegment
    obtain ⟨texts, htexts⟩ := ih hsegments
    exact ⟨text :: texts, .cons htext htexts⟩

/-- What is read from the texts that stand for values is the values. -/
theorem bound_of_holds {segments : List Segment} {assign : String → Option Value}
    {texts : List (List Char)}
    (hnamed : ∀ segment ∈ segments, segment.name.isSome = segment.isDynamic)
    (h : List.Forall₂ (fun segment text => Segment.Holds segment (segment.name.bind assign) text)
      segments texts) (decode : Bool) :
    bound decode segments texts = segments.filterMap fun segment =>
      segment.name.bind fun name => (assign name).map fun value => (name, value.read decode) := by
  induction h with
  | nil => rfl
  | @cons segment text segments texts hholds htexts ih =>
    obtain ⟨hsegment, hsegments⟩ := List.forall_mem_cons.mp hnamed
    rw [bound, List.filterMap_cons, ih hsegments]
    cases hname : segment.name with
    | none => rfl
    | some name =>
      rw [hname] at hsegment
      have hreads := hholds.reads hsegment.symm decode
      rw [hname, Option.bind_some] at hreads
      rw [Option.bind_some]
      cases hvalue : assign name with
      | none =>
        rw [hvalue, Option.map_none, Option.map_eq_none_iff] at hreads
        rw [hreads]
        rfl
      | some value =>
        rw [hvalue, Option.map_some, Option.map_eq_some_iff] at hreads
        obtain ⟨part, hpart, hread⟩ := hreads
        rw [hpart, Option.map_some, ← hread]

section Uniqueness

variable {segments : List Segment}

/-- A single segment takes one component. -/
theorem Segment.exists_of_takes_single {segment : Segment} {text : List Char}
    (hs : segment.repeats = false) (hvalue : '/' ∉ segment.value.toList)
    (h : segment.Takes text) : ∃ part, '/' ∉ part ∧ text = '/' :: part := by
  cases hdynamic : segment.isDynamic with
  | false => exact ⟨_, hvalue, (takes_of_literal hdynamic).mp h⟩
  | true =>
    obtain ⟨part, _, hslash, htext⟩ := (takes_of_single hdynamic hs).mp h
    exact ⟨part, hslash, htext⟩

/-- Literals without text take slashes. -/
theorem eq_replicate_of_takes {texts : List (List Char)}
    (hsegments : ∀ segment ∈ segments, segment.isDynamic = false ∧ segment.value = "")
    (h : List.Forall₂ Segment.Takes segments texts) :
    texts = List.replicate segments.length ['/'] := by
  induction h with
  | nil => rfl
  | @cons segment text segments texts htext _ ih =>
    obtain ⟨⟨hliteral, hvalue⟩, hsegments⟩ := List.forall_mem_cons.mp hsegments
    rw [Segment.takes_of_literal hliteral, hvalue] at htext
    rw [htext, ih hsegments, List.length_cons, List.replicate_succ]
    rfl

theorem atSlash_flatten_append {texts : List (List Char)} {rest : List Char}
    (h : List.Forall₂ Segment.Takes segments texts) (hrest : rest = [] ∨ rest = ['/']) :
    AtSlash (texts.flatten ++ rest) :=
  (decomposes_iff_nonempty.mpr ⟨⟨texts, rest, h, hrest, rfl⟩⟩).atSlash

/-- A path that is built of texts has no other decomposition. -/
theorem texts_eq_of_flatten_eq {fills texts : List (List Char)} {rest : List Char}
    (hrepeats : segments.Pairwise fun a b => a.repeats = true → b.value = "")
    (hempty : ∀ segment ∈ segments, segment.value = "" → segment.isDynamic = false)
    (hvalues : ∀ segment ∈ segments, '/' ∉ segment.value.toList)
    (hfills : List.Forall₂ (fun segment text => Segment.Takes segment text ∧
      (segment.repeats = true → text.getLast? ≠ some '/')) segments fills)
    (htexts : List.Forall₂ Segment.Takes segments texts) (hrest : rest = [] ∨ rest = ['/'])
    (h : fills.flatten = texts.flatten ++ rest) : texts = fills := by
  induction segments generalizing fills texts with
  | nil =>
    cases hfills
    cases htexts
    rfl
  | cons segment segments ih =>
    cases hfills with
    | @cons _ fill _ fills hfill hfills =>
    cases htexts with
    | @cons _ text _ texts htext htexts =>
    obtain ⟨hlater, hrepeats⟩ := List.pairwise_cons.mp hrepeats
    obtain ⟨_, hempty⟩ := List.forall_mem_cons.mp hempty
    obtain ⟨hvalue, hvalues⟩ := List.forall_mem_cons.mp hvalues
    have htaken := hfills.imp fun _ _ h => h.1
    rw [List.flatten_cons, List.flatten_cons, List.append_assoc] at h
    cases hsingle : segment.repeats with
    | false =>
      obtain ⟨a, ha, rfl⟩ := Segment.exists_of_takes_single hsingle hvalue hfill.1
      obtain ⟨b, hb, rfl⟩ := Segment.exists_of_takes_single hsingle hvalue htext
      have hslash := atSlash_flatten_append htaken (Or.inl rfl)
      rw [List.append_nil] at hslash
      obtain ⟨rfl, hothers⟩ := append_inj_of_atSlash ha hb hslash
        (atSlash_flatten_append htexts hrest) (List.cons.inj h).2
      rw [ih hrepeats hempty hvalues hfills htexts hothers]
    | true =>
      have hslashes : ∀ s ∈ segments, s.isDynamic = false ∧ s.value = "" := fun s hs =>
        ⟨hempty s hs (hlater s hs hsingle), hlater s hs hsingle⟩
      obtain rfl := eq_replicate_of_takes hslashes htaken
      obtain rfl := eq_replicate_of_takes hslashes htexts
      rw [List.flatten_replicate_singleton] at h
      rcases hrest with rfl | rfl
      · rw [List.append_nil] at h
        rw [List.append_cancel_right h]
      · rw [← List.replicate_succ', List.replicate_succ, ← List.singleton_append,
          ← List.append_assoc] at h
        have hfill' : fill = text ++ ['/'] := List.append_cancel_right h
        exact absurd (by rw [hfill']; simp) (hfill.2 hsingle)

end Uniqueness

/-- What was put into a path is found in it. -/
theorem Template.extract_fill {route : String} {template : Template}
    (hvalid : (parse route).validate = .ok template) {assign : String → Option Value}
    (hassign : ∀ segment ∈ (parse route).segments, segment.Suits (segment.name.bind assign)) :
    ∃ path, (parse route).fill? assign = some path ∧ ∀ decode,
      (parse route).matcher.extract decode path =
        .ok (some ((parse route).assigned decode assign)) := by
  have hdefect := segmentsDefect?_of_validate hvalid
  have hnamed := named_parse route
  obtain ⟨fills, hfills⟩ := exists_forall₂_holds hassign
  have htaken := hfills.imp fun _ _ h => h.taken
  refine ⟨String.ofList fills.flatten, ?_, fun decode => ?_⟩
  · rw [fill?, mapM_eq_some_of_forall₂ (hfills.imp fun _ _ h => h.filled)]
    rfl
  · have haccepts : (parse route).matcher.accepts (String.ofList fills.flatten) = true := by
      rw [accepts_matcher_iff, decomposes_iff_nonempty, String.toList_ofList]
      exact ⟨⟨fills, [], htaken, Or.inl rfl, (List.append_nil _).symm⟩⟩
    obtain ⟨d, _, hread⟩ := exists_first_of_accepts hnamed haccepts
    obtain ⟨params, hextract, hparams⟩ := hread decode
    have hpath : fills.flatten = d.texts.flatten ++ d.rest :=
      String.toList_ofList.symm.trans d.path_eq
    have htexts : d.texts = fills := texts_eq_of_flatten_eq
      (Segment.pairwise_of_segmentsDefect?_eq_none hdefect hnamed) isDynamic_of_value_eq_empty
      (fun _ => slash_not_mem_value) (hfills.imp fun _ _ h => ⟨h.taken, h.ends⟩) d.taken d.rest_eq
      hpath
    rw [hextract, hparams (Segment.names_of_segmentsDefect?_eq_none hdefect), htexts,
      bound_of_holds hnamed hfills decode]
    rfl

section Back

variable {segments : List Segment}

theorem value?_bound_of_not_mem {texts : List (List Char)} {name : String} (decode : Bool)
    (h : name ∉ segments.filterMap Segment.name) :
    value? name (bound decode segments texts) = none := by
  induction segments generalizing texts with
  | nil => rfl
  | cons segment segments ih =>
    cases texts with
    | nil => rfl
    | cons text texts =>
      rw [bound]
      cases hname : segment.name with
      | none =>
        rw [List.filterMap_cons, hname] at h
        exact ih h
      | some own =>
        rw [List.filterMap_cons, hname, List.mem_cons, not_or] at h
        obtain ⟨hne, hothers⟩ := h
        cases text with
        | nil => exact ih hothers
        | cons c part =>
          rw [List.tail?_cons]
          simp only
          rw [value?, if_neg (fun e => hne e.symm), ih hothers]

/-- The value read from a text, put back, is the text. -/
theorem Segment.fill?_of_takes {segment : Segment} {text : List Char} (h : segment.Takes text)
    {value : Option Value}
    (hvalue : segment.isDynamic = true → value = text.tail?.map fun part =>
      Value.ofCapture segment.repeats false (String.ofList part)) :
    segment.fill? value = some text := by
  unfold Takes at h
  unfold fill?
  unfold isDynamic repeats at hvalue
  cases hkind : segment.kind with
  | literal =>
    rw [hkind] at h
    rw [h]
  | param | optionalParam | catchAll =>
    rw [hkind] at h hvalue
    obtain ⟨part, _, _, rfl⟩ := h
    rw [hvalue rfl]
    simp [Value.ofCapture, Kind.repeats]
  | optionalCatchAll =>
    rw [hkind] at h hvalue
    rw [hvalue rfl]
    rcases h with rfl | ⟨part, _, _, rfl⟩
    · rfl
    · simp [Value.ofCapture, Kind.repeats]

/-- The parameters read from texts give back the texts. -/
theorem forall₂_fill?_of_takes {texts : List (List Char)} {params : Params}
    (hnamed : ∀ segment ∈ segments, segment.name.isSome = segment.isDynamic)
    (hnodup : (segments.filterMap Segment.name).Nodup)
    (htaken : List.Forall₂ Segment.Takes segments texts)
    (hparams : ∀ name ∈ segments.filterMap Segment.name,
      value? name params = value? name (bound false segments texts)) :
    List.Forall₂ (fun segment text =>
      Segment.fill? segment (segment.name.bind fun name => value? name params) = some text)
        segments texts := by
  induction htaken with
  | nil => exact .nil
  | @cons segment text segments texts htakes _ ih =>
    obtain ⟨hsegment, hnamed⟩ := List.forall_mem_cons.mp hnamed
    rw [List.filterMap_cons] at hnodup hparams
    rw [bound] at hparams
    cases hname : segment.name with
    | none =>
      rw [hname] at hsegment hnodup hparams
      refine .cons (Segment.fill?_of_takes htakes fun hdynamic => ?_) (ih hnamed hnodup hparams)
      rw [← hsegment] at hdynamic
      cases hdynamic
    | some own =>
      rw [hname] at hnodup hparams
      obtain ⟨hfresh, hnodup⟩ := List.nodup_cons.mp hnodup
      obtain ⟨hown, hothers⟩ := List.forall_mem_cons.mp hparams
      refine .cons (Segment.fill?_of_takes htakes fun _ => ?_)
        (ih hnamed hnodup fun name hmem => ?_)
      · rw [hname, Option.bind_some, hown]
        cases text with
        | nil => exact value?_bound_of_not_mem false hfresh
        | cons c part => exact if_pos rfl
      · rw [hothers name hmem]
        have hne : own ≠ name := fun e => hfresh (e ▸ hmem)
        cases text with
        | nil => rfl
        | cons c part => exact if_neg hne

/-- What is found in a path builds the path, up to a slash at its end. -/
theorem Template.fill_extract {route path : String} (hnodup : (parse route).paramNames.Nodup)
    {params : Params}
    (hextract : (parse route).matcher.extract false path = .ok (some params)) :
    ∃ text, (parse route).fill? (fun name => value? name params) = some text ∧
      (path = text ∨ path = text ++ "/") := by
  have hnamed := named_parse route
  have haccepts : (parse route).matcher.accepts path = true := by
    by_contra hrejects
    rw [extract_of_not_accepts (Bool.eq_false_iff.mpr hrejects)] at hextract
    cases hextract
  obtain ⟨d, _, hread⟩ := exists_first_of_accepts hnamed haccepts
  obtain ⟨found, hfound, hbound⟩ := hread false
  rw [hextract] at hfound
  obtain rfl : params = found := Option.some.inj (Except.ok.inj hfound)
  obtain rfl := hbound hnodup
  have hfill := forall₂_fill?_of_takes hnamed hnodup d.taken fun _ _ => rfl
  refine ⟨String.ofList d.texts.flatten, ?_, ?_⟩
  · rw [fill?, mapM_eq_some_of_forall₂ hfill]
    rfl
  · have hpath := d.path_eq
    rcases d.rest_eq with hrest | hrest
    · rw [hrest, List.append_nil] at hpath
      exact Or.inl (String.toList_inj.mp (hpath.trans String.toList_ofList.symm))
    · rw [hrest] at hpath
      refine Or.inr (String.toList_inj.mp (hpath.trans ?_))
      rw [String.toList_append, String.toList_ofList]
      rfl

end Back

/-- Values put into a valid template are found in the path so built, and what is found in a path
builds the path again if no name is used twice. -/
theorem filling_inverts_extraction (route : String) :
    ∃ matcher, (Template.parse route).compile = .ok matcher ∧
      (∀ (template : Template) (assign : String → Option Value),
        (Template.parse route).validate = .ok template →
        (∀ segment ∈ (Template.parse route).segments,
          segment.Suits (segment.name.bind assign)) →
        ∃ path, (Template.parse route).fill? assign = some path ∧ ∀ decode,
          matcher.extract decode path =
            .ok (some ((Template.parse route).assigned decode assign))) ∧
      ∀ (path : String) (params : Params), (Template.parse route).paramNames.Nodup →
        matcher.extract false path = .ok (some params) →
        ∃ text, (Template.parse route).fill? (fun name => value? name params) = some text ∧
          (path = text ∨ path = text ++ "/") :=
  ⟨_, Template.compile_eq _, fun _ _ hvalid hassign => Template.extract_fill hvalid hassign,
    fun _ _ hnodup hextract => Template.fill_extract hnodup hextract⟩

theorem filling_inverts_extraction_of_language_and_path :
    ∃ matcher, (Template.parse "/docs/[lang]/[[...path]]/").compile = .ok matcher ∧
      matcher.extract true "/docs/e%2Fn/a%20b/c/" =
        .ok (some [("lang", .single "e/n"), ("path", .several ["a b", "c"])]) ∧
      ∃ text, (Template.parse "/docs/[lang]/[[...path]]/").fill?
          (fun name => value? name [("lang", .single "en")]) = some text ∧
        ("/docs/en//" = text ∨ "/docs/en//" = text ++ "/") := by
  obtain ⟨matcher, hcompile, hfill, hback⟩ :=
    filling_inverts_extraction "/docs/[lang]/[[...path]]/"
  refine ⟨matcher, hcompile, ?_, ?_⟩
  · let assign (name : String) : Option Value :=
      if name = "lang" then some (.single "e%2Fn") else some (.several ["a%20b", "c"])
    have hsegments : (Template.parse "/docs/[lang]/[[...path]]/").segments =
        [⟨"docs", .literal, none⟩, ⟨"[lang]", .param, some "lang"⟩,
          ⟨"[[...path]]", .optionalCatchAll, some "path"⟩, ⟨"", .literal, none⟩] := by
      decide
    have hassign : ∀ segment ∈ (Template.parse "/docs/[lang]/[[...path]]/").segments,
        segment.Suits (segment.name.bind assign) := by
      intro segment hsegment
      rw [hsegments] at hsegment
      simp only [List.mem_cons, List.not_mem_nil, or_false] at hsegment
      rcases hsegment with rfl | rfl | rfl | rfl
      · trivial
      · exact ⟨"e%2Fn", by decide, by decide, by decide⟩
      · exact Or.inr ⟨["a%20b", "c"], by decide, by decide, by simp [IsPlain]⟩
      · trivial
    obtain ⟨path, hpath, hextract⟩ := hfill _ assign (by rfl) hassign
    obtain rfl : "/docs/e%2Fn/a%20b/c/" = path := Option.some.inj (.trans (by decide) hpath)
    exact (hextract true).trans (by decide)
  · refine hback _ _ (by decide) ?_
    obtain rfl := Except.ok.inj (hcompile.symm.trans (Template.compile_eq _))
    decide

end PathRouter
