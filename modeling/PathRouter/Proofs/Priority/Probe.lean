import Mathlib.Data.Fintype.EquivFin
import PathRouter.Proofs.Priority.PairwiseLaw
import PathRouter.Proofs.Template.Pattern

/-!
# Probes

A path made for one template among others: a token that no segment spells stands where a component
is free, and a catch-all holds two empty components. Of the templates that serve the probe, none
with another pattern comes before the one that it was made for.
-/
namespace PathRouter

/-- The component for a segment in a probe; the one for a catch-all is followed by another. -/
def Segment.sample (token : List Char) (segment : Segment) : List Char :=
  match segment.kind with
  | .literal => segment.value.toList
  | .param | .optionalParam => token
  | .catchAll | .optionalCatchAll => []

def Template.probe (token : List Char) (template : Template) : List (List Char) :=
  template.segments.map (Segment.sample token) ++ if template.lastKind.repeats then [[]] else []

structure IsToken (token : List Char) (templates : List Template) : Prop where
  ne_nil : token ≠ []
  plain : IsPlain token
  fresh : ∀ template ∈ templates, ∀ segment ∈ template.segments, segment.value.toList ≠ token

theorem exists_isToken (templates : List Template) : ∃ token, IsToken token templates := by
  let texts := (templates.flatMap (·.segments)).map fun s => s.value.toList
  obtain ⟨n, hn⟩ := Infinite.exists_notMem_finset (texts.map (·.length - 1)).toFinset
  refine ⟨List.replicate (n + 1) 'x', List.cons_ne_nil _ _, ⟨?_, ?_⟩, ?_⟩
  · rw [List.mem_replicate]
    exact fun h => absurd h.2 (by decide)
  · rw [List.mem_replicate]
    exact fun h => absurd h.2 (by decide)
  · intro template htemplate segment hsegment htoken
    refine hn (List.mem_toFinset.mpr (List.mem_map.mpr ⟨segment.value.toList, ?_, ?_⟩))
    · exact List.mem_map_of_mem (List.mem_flatMap.mpr ⟨template, htemplate, hsegment⟩)
    · rw [htoken, List.length_replicate, Nat.add_sub_cancel]

/-- Whether a segment with this key can hold the component, if it holds just one. -/
def Key.Admits : Key → List Char → Prop
  | literal text, part => part = text.toList
  | slot, part => part ≠ []

namespace Segment

theorem covers_iff_of_single {segment : Segment} (h : segment.repeats = false)
    (components : List (List Char)) :
    segment.Covers components ↔ ∃ part, segment.key.Admits part ∧ components = [part] := by
  unfold repeats at h
  unfold Covers key isDynamic
  cases hkind : segment.kind <;> simp_all [Kind.isDynamic, Kind.repeats, Key.Admits]

theorem repeats_eq_false_of_key {segment : Segment} {text : String}
    (h : segment.key = .literal text) : segment.repeats = false := by
  unfold key isDynamic at h
  unfold repeats
  cases hkind : segment.kind <;> simp_all [Kind.isDynamic, Kind.repeats]

theorem value_of_key {segment : Segment} {text : String} (h : segment.key = .literal text) :
    segment.value = text := by
  unfold key at h
  split at h
  · cases h
  · exact Key.literal.inj h

theorem key_eq_slot_of_repeats {segment : Segment} (h : segment.repeats = true) :
    segment.key = .slot := by
  cases hkey : segment.key with
  | literal text =>
    rw [repeats_eq_false_of_key hkey] at h
    cases h
  | slot => rfl

theorem sample_of_repeats {segment : Segment} (h : segment.repeats = true) (token : List Char) :
    segment.sample token = [] := by
  unfold repeats at h
  unfold sample
  cases hkind : segment.kind <;> simp_all [Kind.repeats]

theorem repeats_of_sample_eq_nil {segment : Segment} {token : List Char}
    (hvalue : segment.value ≠ "") (htoken : token ≠ []) (h : segment.sample token = []) :
    segment.repeats = true := by
  unfold sample at h
  unfold repeats
  cases hkind : segment.kind <;> simp_all [Kind.repeats]

theorem admits_sample {segment : Segment} {token : List Char} (htoken : token ≠ [])
    (h : segment.repeats = false) : segment.key.Admits (segment.sample token) := by
  unfold repeats at h
  unfold key isDynamic sample
  cases hkind : segment.kind <;> simp_all [Kind.isDynamic, Kind.repeats, Key.Admits]

/-- Only the literal itself puts its text into a probe. -/
theorem key_of_sample_eq {segment : Segment} {token : List Char} {text : String}
    (htext : text ≠ "") (htoken : text.toList ≠ token) (h : segment.sample token = text.toList) :
    segment.key = .literal text := by
  unfold sample at h
  unfold key isDynamic
  cases hkind : segment.kind <;> simp_all [Kind.isDynamic, String.toList_inj]

end Segment

section Fits

variable {front back : List Segment} {segment : Segment} {components : List (List Char)}

/-- A segment after single ones looks at the component in its own place. -/
theorem Fits.admits (hfront : ∀ s ∈ front, s.repeats = false) (hsegment : segment.repeats = false)
    (h : Fits (front ++ segment :: back) components) :
    ∃ part, components[front.length]? = some part ∧ segment.key.Admits part := by
  induction front generalizing components with
  | nil =>
    obtain ⟨cover, others, rfl, hcover, _⟩ := h
    obtain ⟨part, hpart, rfl⟩ := (Segment.covers_iff_of_single hsegment cover).mp hcover
    exact ⟨part, rfl, hpart⟩
  | cons s front ih =>
    obtain ⟨hs, hfront⟩ := List.forall_mem_cons.mp hfront
    obtain ⟨cover, others, rfl, hcover, hothers⟩ := h
    obtain ⟨_, _, rfl⟩ := (Segment.covers_iff_of_single hs cover).mp hcover
    obtain ⟨part, hpart, hadmits⟩ := ih hfront hothers
    exact ⟨part, by simpa using hpart, hadmits⟩

theorem Fits.length_le {segments : List Segment} (hsingle : ∀ s ∈ segments, s.repeats = false)
    (h : Fits segments components) : components.length ≤ segments.length + 1 := by
  induction segments generalizing components with
  | nil => rcases h with rfl | rfl <;> simp
  | cons s segments ih =>
    obtain ⟨hs, hsingle⟩ := List.forall_mem_cons.mp hsingle
    obtain ⟨cover, others, rfl, hcover, hothers⟩ := h
    obtain ⟨_, _, rfl⟩ := (Segment.covers_iff_of_single hs cover).mp hcover
    have hlength := ih hsingle hothers
    simp only [List.length_append, List.length_cons, List.length_nil]
    omega

/-- Where single segments leave one more component, it is empty. -/
theorem Fits.eq_nil_of_getElem? {segments : List Segment} {part : List Char}
    (hsingle : ∀ s ∈ segments, s.repeats = false) (h : Fits segments components)
    (hpart : components[segments.length]? = some part) : part = [] := by
  induction segments generalizing components with
  | nil =>
    rcases h with rfl | rfl
    · cases hpart
    · exact (Option.some.inj hpart).symm
  | cons s segments ih =>
    obtain ⟨hs, hsingle⟩ := List.forall_mem_cons.mp hsingle
    obtain ⟨cover, others, rfl, hcover, hothers⟩ := h
    obtain ⟨_, _, rfl⟩ := (Segment.covers_iff_of_single hs cover).mp hcover
    exact ih hsingle hothers (by simpa using hpart)

theorem fits_samples_append {token : List Char} (htoken : token ≠ [])
    (hfront : ∀ s ∈ front, s.repeats = false) (h : Fits back components) :
    Fits (front ++ back) (front.map (Segment.sample token) ++ components) := by
  induction front with
  | nil => exact h
  | cons s front ih =>
    obtain ⟨hs, hfront⟩ := List.forall_mem_cons.mp hfront
    refine ⟨[s.sample token], _, rfl, ?_, ih hfront⟩
    exact (Segment.covers_iff_of_single hs _).mpr ⟨_, Segment.admits_sample htoken hs, rfl⟩

end Fits

namespace Template

variable {template : Template} {token : List Char}

theorem Trim.dropLast_append (h : template.Trim) :
    template.segments = template.segments.dropLast ++ [template.segments.getLast h.ne_nil] :=
  (List.dropLast_append_getLast h.ne_nil).symm

/-- A template serves its probe. -/
theorem Trim.fits_probe (h : template.Trim) (htoken : token ≠ []) :
    Fits template.segments (template.probe token) := by
  have hlast : Fits [template.segments.getLast h.ne_nil]
      ([(template.segments.getLast h.ne_nil).sample token] ++
        if template.lastKind.repeats then [[]] else []) := by
    rw [h.lastKind_eq]
    refine ⟨_, [], (List.append_nil _).symm, ?_, Or.inl rfl⟩
    cases hrepeats : (template.segments.getLast h.ne_nil).repeats with
    | false =>
      rw [if_neg (by simpa [Segment.repeats] using hrepeats)]
      exact (Segment.covers_iff_of_single hrepeats _).mpr
        ⟨_, Segment.admits_sample htoken hrepeats, rfl⟩
    | true =>
      rw [if_pos (by simpa [Segment.repeats] using hrepeats)]
      unfold Segment.repeats at hrepeats
      unfold Segment.Covers
      cases hkind : (template.segments.getLast h.ne_nil).kind <;> simp_all [Kind.repeats]
  have hfits := fits_samples_append htoken h.single hlast
  rw [← h.dropLast_append, ← List.append_assoc, ← List.map_singleton, ← List.map_append,
    ← h.dropLast_append] at hfits
  exact hfits

theorem Trim.plain_probe (h : template.Trim) (htoken : IsPlain token) :
    ∀ part ∈ template.probe token, IsPlain part := by
  have hnil : IsPlain [] := ⟨List.not_mem_nil, List.not_mem_nil⟩
  refine List.forall_mem_append.mpr ⟨?_, ?_⟩
  · intro part hpart
    obtain ⟨segment, hsegment, rfl⟩ := List.mem_map.mp hpart
    unfold Segment.sample
    cases segment.kind with
    | literal => exact h.plain segment hsegment
    | param | optionalParam => exact htoken
    | catchAll | optionalCatchAll => exact hnil
  · split
    · exact List.forall_mem_singleton.mpr hnil
    · exact fun _ hpart => nomatch hpart

theorem length_probe (template : Template) (token : List Char) :
    (template.probe token).length =
      template.segments.length + if template.lastKind.repeats then 1 else 0 := by
  rw [probe, List.length_append, List.length_map]
  split <;> rfl

theorem getElem?_probe {front back : List Segment} {segment : Segment}
    (h : template.segments = front ++ segment :: back) :
    (template.probe token)[front.length]? = some (segment.sample token) := by
  simp [probe, h]

theorem eq_nil_of_getElem?_probe {part : List Char}
    (h : (template.probe token)[template.segments.length]? = some part) : part = [] := by
  rw [probe, List.getElem?_append_right (by simp), List.length_map, Nat.sub_self] at h
  split at h
  · exact (Option.some.inj h).symm
  · cases h

end Template

end PathRouter
