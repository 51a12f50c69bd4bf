import PathRouter.Proofs.Matcher.Captures
import PathRouter.Proofs.Template.Strictness

/-!
# Parameters of named segments

Where exactly the dynamic segments are named, every group of a template has a capture, so reading
parameters never fails. If no name is used twice, each name gets the capture of its own segment, in
the order of the segments.
-/
namespace PathRouter

/-- The parameters that segments read from their texts, in the order of the segments. -/
def bound (decode : Bool) : List Segment → List (List Char) → Params
  | segment :: rest, text :: texts =>
    match segment.name, text.tail? with
    | some name, some part =>
      (name, Value.ofCapture segment.repeats decode (String.ofList part)) :: bound decode rest texts
    | _, _ => bound decode rest texts
  | _, _ => []

/-- The groups of segments that differ in their names, where `number` is the next group. -/
def groupsFrom (number : Nat) (segments : List Segment) : List (String × Group) :=
  ((segments.filterMap fun segment => segment.name.map (·, segment)).zipIdx number).map
    fun ((name, segment), number) => (name, ⟨number, segment.repeats, segment.optional⟩)

theorem groupsFrom_cons_of_named {number : Nat} {segment : Segment} {segments : List Segment}
    {name : String} (h : segment.name = some name) :
    groupsFrom number (segment :: segments) =
      (name, ⟨number, segment.repeats, segment.optional⟩) :: groupsFrom (number + 1) segments := by
  simp [groupsFrom, h, List.zipIdx_cons]

theorem groupsFrom_cons_of_unnamed {number : Nat} {segment : Segment} {segments : List Segment}
    (h : segment.name = none) :
    groupsFrom number (segment :: segments) = groupsFrom number segments := by
  simp [groupsFrom, h]

theorem keys_groupsFrom (number : Nat) (segments : List Segment) :
    (groupsFrom number segments).map (·.1) = segments.filterMap Segment.name := by
  induction segments generalizing number with
  | nil => rfl
  | cons segment segments ih =>
    cases hname : segment.name with
    | none => rw [groupsFrom_cons_of_unnamed hname, ih, List.filterMap_cons, hname]
    | some name =>
      rw [groupsFrom_cons_of_named hname, List.map_cons, ih, List.filterMap_cons, hname]

/-- Groups pick the captures of their own segments. -/
theorem filterMap_groupsFrom {segments : List Segment} {texts : List (List Char)}
    (hnamed : ∀ segment ∈ segments, segment.name.isSome = segment.isDynamic)
    (hlength : texts.length = segments.length) (decode : Bool) {number : Nat}
    {front kept : List (Option String)} (hnumber : number = front.length + 1)
    (hkept : kept = front ++ captures segments texts) :
    (groupsFrom number segments).filterMap (fun (name, group) =>
      kept[group.number - 1]?.join.map fun text =>
        (name, Value.ofCapture group.repeats decode text)) = bound decode segments texts := by
  induction segments generalizing number texts front with
  | nil => rfl
  | cons segment segments ih =>
    cases texts with
    | nil => cases hlength
    | cons text texts =>
      have hlength := Nat.succ.inj hlength
      obtain ⟨hsegment, hnamed⟩ := List.forall_mem_cons.mp hnamed
      rw [captures, ← hsegment] at hkept
      cases hname : segment.name with
      | none =>
        rw [hname] at hkept
        rw [groupsFrom_cons_of_unnamed hname, ih hnamed hlength hnumber hkept, bound, hname]
      | some name =>
        rw [hname] at hkept
        have hkept' :
            kept = (front ++ [text.tail?.map String.ofList]) ++ captures segments texts := by
          simpa using hkept
        have hown : kept[number - 1]?.join = text.tail?.map String.ofList := by
          rw [hkept', hnumber, Nat.add_sub_cancel]
          simp
        rw [groupsFrom_cons_of_named hname, List.filterMap_cons,
          ih hnamed hlength (by simp [hnumber]) hkept', bound, hname]
        simp only [hown]
        cases text <;> rfl

namespace Template

variable {template : Template}

theorem groups_eq_groupsFrom (h : template.paramNames.Nodup) :
    template.groups = groupsFrom 1 template.segments := by
  refine ofPairs_of_nodup ?_
  rw [← groupsFrom, keys_groupsFrom]
  exact h

/-- Every group has a capture. -/
theorem number_le_of_mem_groups (h : template.Named) {pair : String × Group}
    (hpair : pair ∈ template.groups) :
    pair.2.number ≤ template.segments.countP Segment.isDynamic := by
  obtain ⟨⟨named, number⟩, hnamed, rfl⟩ := List.mem_map.mp (mem_of_mem_ofPairs hpair)
  have hlt := List.snd_lt_add_of_mem_zipIdx hnamed
  rw [List.length_filterMap_eq_countP] at hlt
  have hcount : template.segments.countP
      (fun segment => (segment.name.map (·, segment)).isSome) =
        template.segments.countP Segment.isDynamic := by
    refine List.countP_congr fun segment hsegment => ?_
    rw [Option.isSome_map, h segment hsegment]
  rw [hcount] at hlt
  show number ≤ _
  omega

theorem readParams_groups (h : template.Named) {kept : List (Option String)}
    (hkept : kept.length = template.segments.countP Segment.isDynamic) (decode : Bool) :
    readParams template.groups decode kept =
      .ok (template.groups.filterMap fun (name, group) =>
        kept[group.number - 1]?.join.map fun text =>
          (name, Value.ofCapture group.repeats decode text)) := by
  refine if_neg ?_
  rw [List.any_eq_true]
  intro hmissing
  obtain ⟨pair, hpair, hlt⟩ := hmissing
  have hle := number_le_of_mem_groups h hpair
  rw [decide_eq_true_eq] at hlt
  omega

/-- A template with distinct names reads the texts of the first decomposition. -/
theorem exists_first_of_accepts (h : template.Named) {path : String}
    (haccepts : template.matcher.accepts path = true) :
    ∃ d : Decomposition template.segments path.toList, d.First ∧ ∀ decode, ∃ params,
      template.matcher.extract decode path = .ok (some params) ∧
        (template.paramNames.Nodup → params = bound decode template.segments d.texts) := by
  obtain ⟨spans, hspans⟩ := Option.isSome_iff_exists.mp haccepts
  obtain ⟨d, hfirst, _, _, hextract⟩ := exists_first_of_capture? hspans
  have hlength := d.taken.length_eq.symm
  refine ⟨d, hfirst, fun decode => ?_⟩
  have hparams := hextract decode
  rw [readParams_groups h (length_captures hlength)] at hparams
  refine ⟨_, hparams, fun hnodup => ?_⟩
  rw [groups_eq_groupsFrom hnodup]
  exact filterMap_groupsFrom h hlength decode (show 1 = List.length [] + 1 from rfl) rfl

theorem extract_of_not_accepts {path : String} (h : template.matcher.accepts path = false)
    (decode : Bool) : template.matcher.extract decode path = .ok none := by
  have hnone := Option.isSome_eq_false_iff.mp h
  rw [Matcher.extract, Option.isNone_iff_eq_none.mp hnone]

end Template

end PathRouter
