import PathRouter.Proofs.Matcher.Parameters

/-!
# Groups

Groups are found by name. Of a repeated name the last segment counts: its group is numbered by the
place of that segment among the named ones, while the name stands where it was used first. Where
exactly the dynamic segments are named, that number leads to the segment's own capture. Elsewhere a
group may be numbered beyond the captures, and then every path that the template serves ends in a
fault.
-/
namespace PathRouter

open Bindings (value? keys)
open Template (parse)

/-- Whether the segment after `front` is the last one of the template with this name. -/
def Template.LastNamed (template : Template) (name : String) (front : List Segment)
    (segment : Segment) : Prop :=
  segment.name = some name ∧ ∃ back, template.segments = front ++ segment :: back ∧
    ∀ later ∈ back, later.name ≠ some name

theorem groupsFrom_append (number : Nat) (front back : List Segment) :
    groupsFrom number (front ++ back) =
      groupsFrom number front ++ groupsFrom (number + front.countP (·.name.isSome)) back := by
  induction front generalizing number with
  | nil => rfl
  | cons segment front ih =>
    rw [List.cons_append, List.countP_cons]
    cases hname : segment.name with
    | none =>
      rw [groupsFrom_cons_of_unnamed hname, groupsFrom_cons_of_unnamed hname, ih]
      rfl
    | some name =>
      rw [groupsFrom_cons_of_named hname, groupsFrom_cons_of_named hname, ih, List.cons_append,
        Nat.add_assoc number 1, Nat.add_comm 1]
      rfl

/-- The capture of a dynamic segment stands after those of the dynamic segments before it. -/
theorem join_getElem?_captures {segments front back : List Segment} {segment : Segment}
    (hsegments : segments = front ++ segment :: back) (hdynamic : segment.isDynamic = true)
    {texts : List (List Char)} (hlength : texts.length = segments.length) :
    (captures segments texts)[front.countP Segment.isDynamic]?.join =
      (texts[front.length]?.bind List.tail?).map String.ofList := by
  subst hsegments
  induction front generalizing texts with
  | nil =>
    cases texts with
    | nil => cases hlength
    | cons text texts =>
      rw [List.nil_append, captures, if_pos hdynamic]
      rfl
  | cons first front ih =>
    cases texts with
    | nil => cases hlength
    | cons text texts =>
      rw [List.cons_append, captures, List.countP_cons, List.length_cons, List.getElem?_cons_succ,
        ← ih (Nat.succ.inj hlength)]
      cases first.isDynamic <;> rfl

/-- What a group finds among captures, which are counted from one on. -/
def Group.valueIn? (decode : Bool) (kept : List (Option String)) (group : Group) : Option Value :=
  kept[group.number - 1]?.join.map fun text => Value.ofCapture group.repeats decode text

namespace Template

variable {template : Template}

theorem keys_groups (template : Template) :
    keys template.groups = template.paramNames.eraseDups := by
  have hnames := keys_groupsFrom 1 template.segments
  rw [paramNames, ← hnames]
  exact keys_ofPairs _

theorem nodup_keys_groups (template : Template) : (keys template.groups).Nodup :=
  nodup_keys_ofPairs _

theorem filterMap_groups_eq (template : Template) (decode : Bool) (kept : List (Option String)) :
    (template.groups.filterMap fun (name, group) =>
      kept[group.number - 1]?.join.map fun text =>
        (name, Value.ofCapture group.repeats decode text)) =
      template.groups.filterMap fun pair => (pair.2.valueIn? decode kept).map (pair.1, ·) :=
  List.filterMap_congr fun _ _ => (Option.map_map _ _ _).symm

/-- Of a repeated name the last segment counts. -/
theorem value?_groups_of_lastNamed {name : String} {front : List Segment} {segment : Segment}
    (h : template.LastNamed name front segment) :
    value? name template.groups =
      some ⟨front.countP (·.name.isSome) + 1, segment.repeats, segment.optional⟩ := by
  obtain ⟨hname, back, hsegments, hlater⟩ := h
  have hgroups : template.groups = Bindings.ofPairs (groupsFrom 1 template.segments) := rfl
  have hback (number : Nat) :
      (groupsFrom number back).reverse.find? (fun pair => pair.1 = name) = none := by
    rw [List.find?_eq_none]
    intro pair hpair
    have hmem : pair.1 ∈ back.filterMap Segment.name := by
      rw [← keys_groupsFrom number]
      exact List.mem_map_of_mem (List.mem_reverse.mp hpair)
    obtain ⟨later, hlaterMem, hlaterName⟩ := List.mem_filterMap.mp hmem
    simp only [decide_eq_true_eq]
    exact fun e => hlater later hlaterMem (e ▸ hlaterName)
  rw [hgroups, value?_ofPairs, hsegments, groupsFrom_append, groupsFrom_cons_of_named hname,
    List.reverse_append, List.reverse_cons, List.append_assoc, List.find?_append, hback,
    Option.none_or, List.singleton_append, List.find?_cons_of_pos (by simp), Nat.add_comm]
  rfl

/-- Where exactly the dynamic segments are named, the named ones are counted by counting those. -/
theorem Named.countP_eq (h : template.Named) {front back : List Segment}
    (hsegments : template.segments = front ++ back) :
    front.countP (·.name.isSome) = front.countP Segment.isDynamic := by
  refine List.countP_congr fun segment hsegment => ?_
  have hmem : segment ∈ template.segments := by
    rw [hsegments]
    exact List.mem_append_left _ hsegment
  rw [h segment hmem]

/-- A path that the template serves is a fault just if some group has no capture. -/
theorem extract_eq_missingGroup_iff (template : Template) (path : String) (decode : Bool) :
    template.matcher.extract decode path = .error .missingGroup ↔
      template.matcher.accepts path = true ∧
        ∃ pair ∈ template.groups, template.segments.countP Segment.isDynamic < pair.2.number := by
  cases haccepts : template.matcher.accepts path with
  | false =>
    rw [extract_of_not_accepts haccepts]
    simp
  | true =>
    obtain ⟨spans, hspans⟩ := Option.isSome_iff_exists.mp haccepts
    obtain ⟨d, _, _, _, hextract⟩ := exists_first_of_capture? hspans
    rw [hextract, readParams, length_captures d.taken.length_eq.symm]
    by_cases hmissing : template.groups.any (fun pair =>
        template.segments.countP Segment.isDynamic < pair.2.number) = true
    · rw [if_pos hmissing]
      simpa [Except.map] using hmissing
    · rw [if_neg hmissing]
      simpa [Except.map] using hmissing

/-- A template whose named segments are the dynamic ones gives each name the capture of the last
segment with the name. -/
theorem exists_params_of_accepts (h : template.Named) {path : String}
    (haccepts : template.matcher.accepts path = true) (decode : Bool) :
    ∃ (d : Decomposition template.segments path.toList) (params : Params), d.First ∧
      template.matcher.extract decode path = .ok (some params) ∧
      (keys params).Sublist (keys template.groups) ∧
      ∀ name front segment, template.LastNamed name front segment →
        value? name params = (d.texts[front.length]?.bind List.tail?).map fun part =>
          Value.ofCapture segment.repeats decode (String.ofList part) := by
  obtain ⟨spans, hspans⟩ := Option.isSome_iff_exists.mp haccepts
  obtain ⟨d, hfirst, _, _, hextract⟩ := exists_first_of_capture? hspans
  have hlength := d.taken.length_eq.symm
  have hparams := hextract decode
  rw [readParams_groups h (length_captures hlength), filterMap_groups_eq] at hparams
  refine ⟨d, _, hfirst, hparams, keys_filterMap_sublist _ _, fun name front segment hlast => ?_⟩
  obtain ⟨hname, back, hsegments, _⟩ := id hlast
  have hdynamic : segment.isDynamic = true := by
    rw [← h segment (by simp [hsegments]), hname]
    rfl
  rw [value?_filterMap _ template.nodup_keys_groups, value?_groups_of_lastNamed hlast,
    h.countP_eq hsegments, Option.bind_some, Group.valueIn?, Nat.add_sub_cancel,
    join_getElem?_captures hsegments hdynamic hlength, Option.map_map]
  rfl

end Template

/-- The groups of a template stand under its names, each once and where it was used first. Where
exactly the dynamic segments are named, as in every template that was read, the group of a name is
numbered by the place of the last segment with the name among the dynamic ones and has that
segment's flags; each path then gives either nothing or, under each name, what that segment
captures. A fault comes just from a path that is served by a template with a group beyond its
captures. -/
theorem groups_point_at_own_captures (template : Template) :
    ∃ matcher, template.compile = .ok matcher ∧
      ((∃ raw, template = parse raw) → template.Named) ∧
      (template.Named →
        keys matcher.groups = template.paramNames.eraseDups ∧
        (∀ name front segment, template.LastNamed name front segment →
          value? name matcher.groups =
            some ⟨front.countP Segment.isDynamic + 1, segment.repeats, segment.optional⟩) ∧
        ∀ path decode,
          matcher.accepts path = false ∧ matcher.extract decode path = .ok none ∨
          ∃ (d : Decomposition template.segments path.toList) (params : Params), d.First ∧
            matcher.extract decode path = .ok (some params) ∧
            (keys params).Sublist (keys matcher.groups) ∧
            ∀ name front segment, template.LastNamed name front segment →
              value? name params = (d.texts[front.length]?.bind List.tail?).map fun part =>
                Value.ofCapture segment.repeats decode (String.ofList part)) ∧
      ∀ path decode, matcher.extract decode path = .error .missingGroup ↔
        matcher.accepts path = true ∧
          ∃ pair ∈ matcher.groups, template.segments.countP Segment.isDynamic < pair.2.number := by
  refine ⟨template.matcher, template.compile_eq, ?_, fun hnamed => ⟨?_, ?_, ?_⟩, ?_⟩
  · rintro ⟨raw, rfl⟩
    exact Template.named_parse raw
  · exact template.keys_groups
  · intro name front segment hlast
    obtain ⟨_, back, hsegments, _⟩ := id hlast
    rw [← hnamed.countP_eq hsegments]
    exact Template.value?_groups_of_lastNamed hlast
  · intro path decode
    cases haccepts : template.matcher.accepts path with
    | false => exact .inl ⟨rfl, Template.extract_of_not_accepts haccepts decode⟩
    | true => exact .inr (Template.exists_params_of_accepts hnamed haccepts decode)
  · exact template.extract_eq_missingGroup_iff

/-- A name of a parameter and of a catch-all stands for the catch-all, in the place of the
parameter. The name of a literal leads to a group that is not there. -/
theorem repeated_name_reads_last_segment :
    (∃ matcher, (parse "/[id]/[page]/[...id]").compile = .ok matcher ∧
      keys matcher.groups = ["id", "page"] ∧ value? "id" matcher.groups = some ⟨3, true, false⟩ ∧
      ∃ params, matcher.extract true "/1/2/3/4" = .ok (some params) ∧
        (keys params).Sublist ["id", "page"] ∧
        value? "id" params = some (.several ["3", "4"])) ∧
    ∃ matcher, (Template.mk "/x" [⟨"x", .literal, some "x"⟩]).compile = .ok matcher ∧
      matcher.extract true "/x" = .error .missingGroup := by
  constructor
  · obtain ⟨matcher, hcompile, hread, hgroups, _⟩ :=
      groups_point_at_own_captures (parse "/[id]/[page]/[...id]")
    obtain ⟨hkeys, hnumber, hpaths⟩ := hgroups (hread ⟨_, rfl⟩)
    obtain rfl := Except.ok.inj (hcompile.symm.trans (Template.compile_eq _))
    have hnames : (parse "/[id]/[page]/[...id]").paramNames.eraseDups = ["id", "page"] := by decide
    have hlast : (parse "/[id]/[page]/[...id]").LastNamed "id"
        [⟨"[id]", .param, some "id"⟩, ⟨"[page]", .param, some "page"⟩]
        ⟨"[...id]", .catchAll, some "id"⟩ := ⟨rfl, [], by decide, by decide⟩
    rw [hnames] at hkeys
    refine ⟨_, hcompile, hkeys, hnumber _ _ _ hlast, ?_⟩
    rcases hpaths "/1/2/3/4" true with ⟨hrejects, _⟩ | ⟨d, params, _, hextract, hsublist, _⟩
    · exact absurd hrejects (by decide)
    · rw [hkeys] at hsublist
      refine ⟨params, hextract, hsublist, ?_⟩
      have hvalues : (parse "/[id]/[page]/[...id]").matcher.extract true "/1/2/3/4" =
          .ok (some [("id", .several ["3", "4"]), ("page", .single "2")]) := by decide
      obtain rfl := Option.some.inj (Except.ok.inj (hvalues.symm.trans hextract))
      rfl
  · obtain ⟨matcher, hcompile, _, _, hfault⟩ :=
      groups_point_at_own_captures ⟨"/x", [⟨"x", .literal, some "x"⟩]⟩
    obtain rfl := Except.ok.inj (hcompile.symm.trans (Template.compile_eq _))
    exact ⟨_, hcompile, (hfault "/x" true).mpr (by decide)⟩

end PathRouter
