import PathRouter.Proofs.Matcher.Decomposition

/-!
# Components of a path

A path that is written as components, each with a slash before it, is decomposed component by
component: no segment takes a part of a component, or parts of two. An empty component stands for
a slash that is doubled or comes last.
-/
namespace PathRouter

def render (components : List (List Char)) : List Char := components.flatMap ('/' :: ·)

/-- Free of slashes and line breaks. -/
def IsPlain (text : List Char) : Prop := '/' ∉ text ∧ '\n' ∉ text

/-- The components that a segment takes together. -/
def Segment.Covers (segment : Segment) (components : List (List Char)) : Prop :=
  match segment.kind with
  | .literal => components = [segment.value.toList]
  | .param | .optionalParam => ∃ part ≠ [], components = [part]
  | .catchAll => components ≠ [] ∧ components ≠ [[]]
  | .optionalCatchAll => components ≠ [[]]

def Fits : List Segment → List (List Char) → Prop
  | [], components => components = [] ∨ components = [[]]
  | segment :: rest, components =>
    ∃ front others, components = front ++ others ∧ segment.Covers front ∧ Fits rest others

@[simp] theorem render_nil : render [] = [] := rfl

@[simp] theorem render_cons (part : List Char) (components : List (List Char)) :
    render (part :: components) = '/' :: (part ++ render components) := rfl

@[simp] theorem render_append (front others : List (List Char)) :
    render (front ++ others) = render front ++ render others := List.flatMap_append

theorem render_eq_nil_iff {components : List (List Char)} :
    render components = [] ↔ components = [] := by
  cases components <;> simp

theorem mem_render_iff {c : Char} (hc : c ≠ '/') {components : List (List Char)} :
    c ∈ render components ↔ ∃ part ∈ components, c ∈ part := by
  simp [render, hc]

/-- Empty, or with a slash first. -/
def AtSlash (text : List Char) : Prop := ∀ c ∈ text.head?, c = '/'

theorem atSlash_nil : AtSlash [] := by
  intro c hc
  cases hc

theorem atSlash_render (components : List (List Char)) : AtSlash (render components) := by
  intro c hc
  cases components with
  | nil => cases hc
  | cons part components => exact (Option.some.inj hc).symm

/-- Where what follows is empty or starts with a slash, a text without slashes ends at one place. -/
theorem append_inj_of_atSlash {a b u v : List Char} (ha : '/' ∉ a) (hb : '/' ∉ b)
    (hu : AtSlash u) (hv : AtSlash v) (h : a ++ u = b ++ v) : a = b ∧ u = v := by
  induction a generalizing b with
  | nil =>
    cases b with
    | nil => exact ⟨rfl, h⟩
    | cons c b =>
      have hslash := hu c (by rw [← List.nil_append u, h]; rfl)
      exact absurd (hslash ▸ List.mem_cons_self) hb
  | cons c a ih =>
    cases b with
    | nil =>
      have hslash := hv c (by rw [← List.nil_append v, ← h]; rfl)
      exact absurd (hslash ▸ List.mem_cons_self) ha
    | cons d b =>
      obtain ⟨rfl, _⟩ := List.cons.inj h
      obtain ⟨rfl, rfl⟩ := ih (fun hmem => ha (List.mem_cons_of_mem _ hmem))
        (fun hmem => hb (List.mem_cons_of_mem _ hmem)) (by simpa using h)
      exact ⟨rfl, rfl⟩

theorem render_inj {components others : List (List Char)} (hc : ∀ part ∈ components, '/' ∉ part)
    (ho : ∀ part ∈ others, '/' ∉ part) (h : render components = render others) :
    components = others := by
  induction components generalizing others with
  | nil => exact (render_eq_nil_iff.mp h.symm).symm
  | cons part components ih =>
    cases others with
    | nil => cases h
    | cons other rest =>
      obtain ⟨hpart, hc'⟩ := List.forall_mem_cons.mp hc
      obtain ⟨hother, ho'⟩ := List.forall_mem_cons.mp ho
      obtain ⟨rfl, hrest⟩ := append_inj_of_atSlash hpart hother (atSlash_render components)
        (atSlash_render rest) (List.cons.inj h).2
      rw [ih hc' ho' hrest]

/-- A path is cut before a slash only between components. -/
theorem exists_of_render_eq_append {components : List (List Char)} {text after : List Char}
    (hplain : ∀ part ∈ components, '/' ∉ part) (htext : AtSlash text) (hafter : AtSlash after)
    (h : render components = text ++ after) :
    ∃ front others, components = front ++ others ∧ text = render front ∧
      after = render others := by
  induction components generalizing text with
  | nil =>
    obtain ⟨rfl, rfl⟩ := List.append_eq_nil_iff.mp h.symm
    exact ⟨[], [], rfl, rfl, rfl⟩
  | cons part components ih =>
    cases text with
    | nil => exact ⟨[], part :: components, rfl, rfl, h.symm⟩
    | cons c text =>
      obtain ⟨hpart, hothers⟩ := List.forall_mem_cons.mp hplain
      obtain ⟨rfl, hsplit⟩ : '/' = c ∧ part ++ render components = text ++ after :=
        List.cons.inj h
      -- The text after its slash goes on to the end of the first component at least.
      obtain ⟨tail, rfl, htail⟩ : ∃ tail, text = part ++ tail ∧
          render components = tail ++ after := by
        rcases List.append_eq_append_iff.mp hsplit with ⟨tail, rfl, htail⟩ | ⟨excess, rfl, hexcess⟩
        · exact ⟨tail, rfl, htail⟩
        · cases excess with
          | nil => exact ⟨[], by simp, hexcess.symm⟩
          | cons d excess =>
            have hslash := hafter d (by rw [hexcess]; rfl)
            exact absurd (hslash ▸ List.mem_append_right _ List.mem_cons_self) hpart
      have hslash : AtSlash tail := by
        intro d hd
        cases tail with
        | nil => cases hd
        | cons e tail =>
          apply atSlash_render components d
          rw [htail]
          exact hd
      obtain ⟨front, others, rfl, rfl, rfl⟩ := ih hothers hslash htail
      exact ⟨part :: front, others, rfl, rfl, rfl⟩

theorem Segment.Takes.atSlash {segment : Segment} {text : List Char} (h : segment.Takes text) :
    AtSlash text := by
  have hslash (part : List Char) : AtSlash ('/' :: part) := fun _ hc => (Option.some.inj hc).symm
  unfold Takes at h
  cases hkind : segment.kind with
  | literal =>
    rw [hkind] at h
    exact h ▸ hslash _
  | param | optionalParam | catchAll =>
    rw [hkind] at h
    obtain ⟨part, _, _, rfl⟩ := h
    exact hslash part
  | optionalCatchAll =>
    rw [hkind] at h
    rcases h with rfl | ⟨part, _, _, rfl⟩
    · exact atSlash_nil
    · exact hslash part

theorem Decomposes.atSlash {segments : List Segment} {path : List Char}
    (h : Decomposes segments path) : AtSlash path := by
  induction segments generalizing path with
  | nil =>
    rcases h with rfl | rfl
    · exact atSlash_nil
    · exact fun _ hc => (Option.some.inj hc).symm
  | cons segment segments ih =>
    obtain ⟨text, after, rfl, htext, hafter⟩ := h
    intro c hc
    cases text with
    | nil => exact ih hafter c hc
    | cons d text => exact htext.atSlash c hc

section Plain

variable {components : List (List Char)}

theorem not_mem_render (h : ∀ part ∈ components, IsPlain part) : '\n' ∉ render components := by
  rw [mem_render_iff (by decide)]
  intro hmem
  obtain ⟨part, hpart, hmem⟩ := hmem
  exact (h part hpart).2 hmem

/-- A single component is rendered by nothing but itself. -/
theorem render_eq_cons_iff (h : ∀ part ∈ components, IsPlain part) {part : List Char}
    (hpart : '/' ∉ part) : render components = '/' :: part ↔ components = [part] := by
  constructor
  · intro hrender
    cases components with
    | nil => cases hrender
    | cons first others =>
      have htail := (List.cons.inj hrender).2
      rw [← List.append_nil part] at htail
      obtain ⟨rfl, hothers⟩ := append_inj_of_atSlash (h first List.mem_cons_self).1 hpart
        (atSlash_render others) atSlash_nil htail
      rw [render_eq_nil_iff.mp hothers]
  · rintro rfl
    simp

theorem exists_render_eq_iff (h : ∀ part ∈ components, IsPlain part) :
    (∃ part ≠ [], '\n' ∉ part ∧ render components = '/' :: part) ↔
      components ≠ [] ∧ components ≠ [[]] := by
  constructor
  · intro htext
    obtain ⟨part, hpart, _, hrender⟩ := htext
    constructor
    · rintro rfl
      cases hrender
    · rintro rfl
      exact hpart (List.cons.inj hrender).2.symm
  · intro hne
    obtain ⟨hnil, hsingle⟩ := hne
    cases components with
    | nil => exact absurd rfl hnil
    | cons first others =>
      refine ⟨first ++ render others, ?_, ?_, rfl⟩
      · intro hempty
        obtain ⟨rfl, hothers⟩ := List.append_eq_nil_iff.mp hempty
        exact hsingle (by rw [render_eq_nil_iff.mp hothers])
      · exact fun hmem => not_mem_render h (List.mem_cons_of_mem _ hmem)

theorem Segment.takes_render_iff {segment : Segment}
    (hvalue : segment.kind = .literal → '/' ∉ segment.value.toList)
    (h : ∀ part ∈ components, IsPlain part) :
    segment.Takes (render components) ↔ segment.Covers components := by
  unfold Takes Covers
  cases hkind : segment.kind with
  | literal => exact render_eq_cons_iff h (hvalue hkind)
  | param | optionalParam =>
    constructor
    · intro htakes
      obtain ⟨part, hpart, hslash, hrender⟩ := htakes
      exact ⟨part, hpart, (render_eq_cons_iff h hslash).mp hrender⟩
    · intro hcovers
      obtain ⟨part, hpart, rfl⟩ := hcovers
      exact ⟨part, hpart, (h part List.mem_cons_self).1, by simp⟩
  | catchAll => exact exists_render_eq_iff h
  | optionalCatchAll =>
    simp only [render_eq_nil_iff, exists_render_eq_iff h]
    by_cases hnil : components = []
    · simp [hnil]
    · simp [hnil]

/-- On components, decomposing is fitting. -/
theorem decomposes_render_iff {segments : List Segment}
    (hvalues : ∀ segment ∈ segments, segment.kind = .literal → '/' ∉ segment.value.toList)
    (h : ∀ part ∈ components, IsPlain part) :
    Decomposes segments (render components) ↔ Fits segments components := by
  induction segments generalizing components with
  | nil =>
    rw [Decomposes, Fits, render_eq_nil_iff]
    exact or_congr_right (render_eq_cons_iff h List.not_mem_nil)
  | cons segment segments ih =>
    obtain ⟨hvalue, hrest⟩ := List.forall_mem_cons.mp hvalues
    constructor
    · intro hdecomposed
      obtain ⟨text, after, hrender, htext, hafter⟩ := hdecomposed
      obtain ⟨front, others, rfl, rfl, rfl⟩ := exists_of_render_eq_append
        (fun part hpart => (h part hpart).1) htext.atSlash hafter.atSlash hrender
      obtain ⟨hfront, hothers⟩ := List.forall_mem_append.mp h
      exact ⟨front, others, rfl, (Segment.takes_render_iff hvalue hfront).mp htext,
        (ih hrest hothers).mp hafter⟩
    · intro hfits
      obtain ⟨front, others, rfl, htext, hafter⟩ := hfits
      obtain ⟨hfront, hothers⟩ := List.forall_mem_append.mp h
      exact ⟨render front, render others, render_append front others,
        (Segment.takes_render_iff hvalue hfront).mpr htext, (ih hrest hothers).mpr hafter⟩

end Plain

end PathRouter
