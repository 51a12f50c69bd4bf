import PathRouter.Proofs.Priority.Probe

/-!
# Exclusion

Of the templates that come before a template, only those with its pattern serve its probe. The
cases are those of precedence: where the key paths part, where one goes on from the other, and
where they are one.
-/
namespace PathRouter

/-- Whether no other template ends in an optional catch-all where this one ends. -/
def Template.Unshared (templates : List Template) (template : Template) : Prop :=
  template.lastKind = .optionalCatchAll ∨
    ∀ other ∈ templates, other.keyPath = template.keyPath → other.lastKind ≠ .optionalCatchAll

namespace Template

section

variable {template : Template}

theorem Trim.exists_segments_of_keyPath (h : template.Trim) {common rest : List Key} {key : Key}
    (hpath : template.keyPath = common ++ key :: rest) :
    ∃ front segment back, template.segments = front ++ segment :: back ∧
      front.map Segment.key = common ∧ segment.key = key ∧ back.map Segment.key = rest := by
  rw [h.keyPath_eq] at hpath
  obtain ⟨front, others, hsegments, hfront, hothers⟩ := List.map_eq_append_iff.mp hpath
  obtain ⟨segment, back, rfl, hkey, hback⟩ := List.map_eq_cons_iff.mp hothers
  exact ⟨front, segment, back, hsegments, hfront, hkey, hback⟩

theorem Trim.lastKind_of_append (h : template.Trim) {front : List Segment} {segment : Segment}
    (hsegments : template.segments = front ++ [segment]) : template.lastKind = segment.kind := by
  rw [h.lastKind_eq]
  simp only [hsegments, List.getLast_append_singleton]

theorem Trim.length_keyPath (h : template.Trim) :
    template.keyPath.length = template.segments.length := by
  rw [h.keyPath_eq, List.length_map]

theorem length_of_map_key {segments : List Segment} {path : List Key}
    (h : segments.map Segment.key = path) : segments.length = path.length := by
  rw [← h, List.length_map]

/-- A template that does not end in a catch-all has single segments only. -/
theorem Trim.single_of_lastKind (h : template.Trim) (hlast : template.lastKind.repeats = false) :
    ∀ segment ∈ template.segments, segment.repeats = false := by
  rw [h.dropLast_append]
  refine List.forall_mem_append.mpr ⟨h.single, List.forall_mem_singleton.mpr ?_⟩
  rw [h.lastKind_eq] at hlast
  exact hlast

/-- The last key says whether the last kind is dynamic. -/
theorem Trim.getLast?_keyPath (h : template.Trim) :
    template.keyPath.getLast? = some .slot ↔ template.lastKind.isDynamic = true := by
  rw [h.keyPath_eq, List.getLast?_map, List.getLast?_eq_some_getLast h.ne_nil, h.lastKind_eq]
  unfold Segment.key Segment.isDynamic
  rw [Option.map_some, Option.some_inj]
  split
  · rename_i hdynamic
    simp [hdynamic]
  · rename_i hdynamic
    simp [hdynamic]

end

section

variable {templates : List Template} {t a : Template} {token : List Char}

theorem not_before_of_apart (htoken : IsToken token templates) (hmem : t ∈ templates)
    (ht : t.Trim) (ha : a.Trim) (hfits : Fits t.segments (a.probe token)) {x y : Key}
    (hapart : branching t.keyPath a.keyPath = .apart x y) : ¬ x.Before y := by
  intro hbefore
  obtain ⟨common, p, q, hpathT, hpathA⟩ := exists_of_branching_apart hapart
  obtain ⟨front, s, back, hsegments, hfront, rfl, _⟩ := ht.exists_segments_of_keyPath hpathT
  obtain ⟨front', r, back', hsegments', hfront', rfl, _⟩ := ha.exists_segments_of_keyPath hpathA
  have hlength : front'.length = front.length :=
    (length_of_map_key hfront').trans (length_of_map_key hfront).symm
  -- Only a literal comes before another key, so the probe holds its text.
  cases hkey : s.key with
  | slot =>
    rw [hkey] at hbefore
    exact hbefore
  | literal text =>
    rw [hsegments] at hfits
    obtain ⟨part, hpart, hadmits⟩ := hfits.admits (ht.single_of_eq_append hsegments)
      (Segment.repeats_eq_false_of_key hkey)
    rw [← hlength, getElem?_probe hsegments', Option.some_inj] at hpart
    rw [hkey] at hadmits
    have hs : s ∈ t.segments := hsegments ▸ List.mem_append_right _ List.mem_cons_self
    have hvalue := Segment.value_of_key hkey
    have hr := Segment.key_of_sample_eq (hvalue ▸ ht.filled s hs)
      (hvalue ▸ htoken.fresh t hmem s hs) (hpart.trans hadmits)
    exact hbefore.ne (hkey.trans hr.symm)

/-- A template that serves the probe of one with a catch-all has no other single segment in the
place of the catch-all. -/
theorem not_fits_of_catchAll (ha : a.Trim) (hrepeats : a.lastKind.repeats = true)
    {front back : List Segment} {s : Segment} (hfront : ∀ r ∈ front, r.repeats = false)
    (hlength : front.length + 1 = a.segments.length) (hs : s.repeats = false)
    (hslot : s.key = .slot) : ¬ Fits (front ++ s :: back) (a.probe token) := by
  intro hfits
  obtain ⟨part, hpart, hadmits⟩ := hfits.admits hfront hs
  have hfront' : front.length = a.segments.dropLast.length := by
    rw [List.length_dropLast]
    omega
  rw [hfront', getElem?_probe ha.dropLast_append, Option.some_inj] at hpart
  rw [ha.lastKind_eq] at hrepeats
  rw [hslot, ← hpart] at hadmits
  exact hadmits (Segment.sample_of_repeats hrepeats token)

theorem not_before_of_below (ht : t.Trim) (ha : a.Trim) (hunshared : a.Unshared templates)
    (hfits : Fits t.segments (a.probe token)) {next : Key}
    (hbelow : branching t.keyPath a.keyPath = .below next) :
    ¬ a.standing.Yields (templates.map standing) next := by
  intro hyields
  obtain ⟨rest, hpath⟩ := exists_of_branching_below hbelow
  obtain ⟨front, s, back, hsegments, hfront, rfl, _⟩ := ht.exists_segments_of_keyPath hpath
  have hsingle := ht.single_of_eq_append hsegments
  rw [hsegments] at hfits
  have hcatchAll (hrepeats : a.lastKind.repeats = true) : False := by
    have hkeys : front.map Segment.key = a.segments.dropLast.map Segment.key ++ [.slot] := by
      have hlast := Segment.key_eq_slot_of_repeats (ha.lastKind_eq ▸ hrepeats)
      rw [hfront, ha.keyPath_eq, ← hlast, ← List.map_singleton, ← List.map_append,
        ← ha.dropLast_append]
    obtain ⟨front, f, rfl, hinit, hf⟩ := List.map_eq_append_iff.mp hkeys
    obtain ⟨f, rfl, hslot⟩ := List.map_eq_singleton_iff.mp hf
    obtain ⟨hsingle, hf⟩ := List.forall_mem_append.mp hsingle
    rw [List.append_assoc] at hfits
    refine not_fits_of_catchAll ha hrepeats hsingle ?_ (hf f (by simp)) hslot hfits
    rw [length_of_map_key hinit, List.length_map, List.length_dropLast]
    have hpos := List.length_pos_iff.mpr ha.ne_nil
    omega
  rcases yields_map_standing.mp hyields with hkind | ⟨v, hv, hpathV, hkind⟩ | ⟨hnext, _⟩
  · exact hcatchAll (by rw [hkind]; rfl)
  · rcases hunshared with hkindA | hnone
    · exact hcatchAll (by rw [hkindA]; rfl)
    · exact hnone v hv hpathV hkind
  · cases hkey : s.key with
    | slot => exact hnext hkey
    | literal text =>
      obtain ⟨part, hpart, hadmits⟩ :=
        hfits.admits hsingle (Segment.repeats_eq_false_of_key hkey)
      have hlength := (length_of_map_key hfront).trans ha.length_keyPath
      rw [hlength] at hpart
      rw [hkey, eq_nil_of_getElem?_probe hpart] at hadmits
      have hs : s ∈ t.segments := hsegments ▸ List.mem_append_right _ List.mem_cons_self
      apply ht.filled s hs
      rw [Segment.value_of_key hkey]
      exact String.toList_eq_nil_iff.mp hadmits.symm

theorem not_before_of_above (htoken : IsToken token templates) (hmem : t ∈ templates)
    (ht : t.Trim) (ha : a.Trim) (hfits : Fits t.segments (a.probe token)) {next : Key}
    (habove : branching t.keyPath a.keyPath = .above next) :
    t.standing.Yields (templates.map standing) next := by
  by_contra hyields
  obtain ⟨rest, hpath⟩ := exists_of_branching_above habove
  obtain ⟨front, r, back, hsegments, hfront, _, _⟩ := ha.exists_segments_of_keyPath hpath
  have hlast : t.lastKind.repeats = false := by
    rw [yields_map_standing, not_or, not_or] at hyields
    obtain ⟨hcatchAll, hoptional, _⟩ := hyields
    cases hkind : t.lastKind with
    | literal | param | optionalParam => rfl
    | catchAll => exact absurd hkind hcatchAll
    | optionalCatchAll => exact absurd ⟨t, hmem, rfl, hkind⟩ hoptional
  have hsingle := ht.single_of_lastKind hlast
  have hlength := (length_of_map_key hfront).trans ht.length_keyPath
  -- Single segments leave one component at most, and an empty one, to the segment that goes on.
  have hshort := hfits.length_le hsingle
  have hpart : (a.probe token)[front.length]? = some (r.sample token) :=
    getElem?_probe hsegments
  rw [hlength] at hpart
  have hrepeats := Segment.repeats_of_sample_eq_nil
    (ha.filled r (hsegments ▸ List.mem_append_right _ List.mem_cons_self)) htoken.ne_nil
    (hfits.eq_nil_of_getElem? hsingle hpart)
  obtain rfl := ha.eq_nil_of_repeats hsegments hrepeats
  have hlastA : a.lastKind.repeats = true := by
    rw [ha.lastKind_of_append hsegments]
    exact hrepeats
  rw [length_probe, hlastA, hsegments, List.length_append, hlength, if_pos rfl,
    List.length_singleton] at hshort
  omega

theorem rank_eq_of_same (ht : t.Trim) (ha : a.Trim) (hmem : t ∈ templates)
    (hunshared : a.Unshared templates) (hfits : Fits t.segments (a.probe token))
    (hpath : t.keyPath = a.keyPath) (hrank : t.lastKind.rank ≤ a.lastKind.rank) :
    t.lastKind.rank = a.lastKind.rank := by
  by_contra hne
  have hlast := ht.getLast?_keyPath
  rw [hpath, ha.getLast?_keyPath] at hlast
  cases hkindT : t.lastKind with
  | literal =>
    rw [hkindT] at hlast hne
    cases hkindA : a.lastKind <;> simp_all [Kind.isDynamic, Kind.rank]
  | optionalCatchAll =>
    rcases hunshared with hkindA | hnone
    · exact hne (by rw [hkindT, hkindA])
    · exact hnone t hmem hpath hkindT
  | catchAll =>
    have hle := Kind.rank_le_catchAll a.lastKind
    rw [hkindT] at hne hrank
    omega
  | param | optionalParam =>
    have hkindA : a.lastKind = .catchAll := by
      rw [hkindT] at hne hrank
      cases hkind : a.lastKind <;> simp_all [Kind.rank]
    have hsingle := ht.single_of_lastKind (by rw [hkindT]; rfl)
    rw [ht.dropLast_append] at hfits hsingle
    refine not_fits_of_catchAll ha (by rw [hkindA]; rfl) ht.single ?_ ?_ ?_ hfits
    · have hlength := congrArg List.length hpath
      rw [ht.length_keyPath, ha.length_keyPath] at hlength
      have hpos := List.length_pos_iff.mpr ht.ne_nil
      rw [List.length_dropLast]
      omega
    · exact hsingle _ (by simp)
    · unfold Segment.key Segment.isDynamic
      rw [← ht.lastKind_eq, hkindT]
      rfl

/-- A template that serves the probe of another one and comes before it has its pattern. -/
theorem pattern_eq_of_precedes (htoken : IsToken token templates) (hmem : t ∈ templates)
    (ht : t.Trim) (ha : a.Trim) (hunshared : a.Unshared templates)
    (hfits : Fits t.segments (a.probe token))
    (hbefore : Precedes (templates.map standing) t.standing a.standing) :
    t.pattern = a.pattern := by
  cases hbranching : branching t.standing.path a.standing.path with
  | same =>
    have hpath := eq_of_branching_same hbranching
    have hrank : t.lastKind.rank ≤ a.lastKind.rank := by
      rcases (precedes_iff_of_same hpath).mp hbefore with h | ⟨h, _⟩
      · exact Nat.le_of_lt h
      · exact Nat.le_of_eq h
    exact pattern_eq_of_keyPath_eq ht ha hpath
      (rank_eq_of_same ht ha hmem hunshared hfits hpath hrank)
  | above next =>
    exact absurd (not_before_of_above htoken hmem ht ha hfits hbranching)
      ((precedes_iff_of_above hbranching).mp hbefore)
  | below next =>
    exact absurd ((precedes_iff_of_below hbranching).mp hbefore)
      (not_before_of_below ht ha hunshared hfits hbranching)
  | apart x y =>
    exact absurd ((precedes_iff_of_apart hbranching).mp hbefore)
      (not_before_of_apart htoken hmem ht ha hfits hbranching)

end

end Template

end PathRouter
