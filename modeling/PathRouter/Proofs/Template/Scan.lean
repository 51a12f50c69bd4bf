import PathRouter.Proofs.Template.Pieces
import PathRouter.Template.DynamicScan

/-!
# One pass against cutting

Whether a route holds a parameter is told in one pass over its text or from its pieces, and the two
agree but for one case: in the last piece, the pass takes a closing bracket for the end when only a
line break comes after it, while a piece with that line break is a literal.
-/
namespace PathRouter

open Template (parse)

/-- Wholly bracketed but for a line break at the end. -/
def BracketedLine (text : List Char) : Prop :=
  ∃ line, isBracketed line = true ∧ text = line ++ ['\n']

theorem isBracketed_cons_cons_iff {c : Char} {rest : List Char} :
    isBracketed ('[' :: c :: rest) = true ↔ [']'] <:+ rest := by
  rw [Segment.isBracketed_iff]
  constructor
  · intro h
    obtain ⟨_, hlast, hne⟩ := h
    cases rest with
    | nil =>
      have hc : c = ']' := Option.some.inj hlast
      exact absurd (by rw [hc]) hne
    | cons d rest =>
      rw [List.getLast?_cons_cons, List.getLast?_cons_cons] at hlast
      obtain ⟨name, hname⟩ := List.getLast?_eq_some_iff.mp hlast
      exact ⟨name, hname.symm⟩
  · intro h
    obtain ⟨name, rfl⟩ := h
    refine ⟨rfl, ?_, by simp⟩
    rw [← List.cons_append, ← List.cons_append, List.getLast?_concat]

theorem bracketedLine_cons_cons_iff {c : Char} {rest : List Char} :
    BracketedLine ('[' :: c :: rest) ↔ [']', '\n'] <:+ rest := by
  constructor
  · intro h
    obtain ⟨line, hline, htext⟩ := h
    match line, hline with
    | d :: e :: others, hline =>
      obtain ⟨rfl, rfl, rfl⟩ : '[' = d ∧ c = e ∧ rest = others ++ ['\n'] := by simpa using htext
      obtain ⟨name, rfl⟩ := isBracketed_cons_cons_iff.mp hline
      exact ⟨name, by simp⟩
  · intro h
    obtain ⟨name, rfl⟩ := h
    refine ⟨'[' :: c :: (name ++ [']']), ?_, by simp⟩
    exact isBracketed_cons_cons_iff.mpr (List.suffix_append _ _)

theorem exists_cons_cons_of_isBracketed {text : List Char} (h : isBracketed text = true) :
    ∃ c rest, text = '[' :: c :: rest := by
  obtain ⟨hhead, hlast, _⟩ := Segment.isBracketed_iff.mp h
  obtain ⟨tail, rfl⟩ := List.head?_eq_some_iff.mp hhead
  cases tail with
  | nil => exact absurd (Option.some.inj hlast) (by decide)
  | cons c rest => exact ⟨c, rest, rfl⟩

theorem exists_cons_cons_of_bracketed {text : List Char}
    (h : isBracketed text = true ∨ BracketedLine text) : ∃ c rest, text = '[' :: c :: rest := by
  rcases h with h | ⟨line, hline, rfl⟩
  · exact exists_cons_cons_of_isBracketed h
  · obtain ⟨c, rest, rfl⟩ := exists_cons_cons_of_isBracketed hline
    exact ⟨c, rest ++ ['\n'], rfl⟩

theorem opensParameter_iff {text : List Char} :
    opensParameter text = true ↔
      ∃ c rest, text = '/' :: '[' :: c :: rest ∧ c ≠ '/' ∧ closes rest = true := by
  constructor
  · intro h
    unfold opensParameter at h
    split at h
    · rename_i c rest
      exact ⟨c, rest, rfl, by simpa using h⟩
    · cases h
  · intro h
    obtain ⟨c, rest, rfl, hc, hrest⟩ := h
    simp [opensParameter, hc, hrest]

section Slashless

variable {part after : List Char} (hpart : '/' ∉ part) (hafter : AtSlash after)
include hpart hafter

/-- Before what comes after it, a text without slashes ends a segment if it is empty, or if it is
the line break that ends the route. -/
theorem endsSegment_append_iff :
    endsSegment (part ++ after) = true ↔ part = [] ∨ (part = ['\n'] ∧ after = []) := by
  cases part with
  | nil =>
    cases after with
    | nil => simp [endsSegment]
    | cons c after =>
      have hslash : c = '/' := hafter c rfl
      simp [endsSegment, hslash]
  | cons c part =>
    have hc : c ≠ '/' := fun h => hpart (h ▸ List.mem_cons_self)
    rw [List.cons_append]
    unfold endsSegment
    split <;> simp_all

theorem closes_append_iff :
    closes (part ++ after) = true ↔ [']'] <:+ part ∨ ([']', '\n'] <:+ part ∧ after = []) := by
  induction part with
  | nil =>
    cases after with
    | nil => simp [closes]
    | cons c after =>
      have hslash : c = '/' := hafter c rfl
      simp [closes, hslash]
  | cons c part ih =>
    obtain ⟨hc, hrest⟩ : c ≠ '/' ∧ '/' ∉ part := by simpa [eq_comm] using hpart
    rw [List.cons_append, closes, Bool.or_eq_true, Bool.and_eq_true, Bool.and_eq_true,
      endsSegment_append_iff hrest hafter, ih hrest, List.suffix_cons_iff, List.suffix_cons_iff]
    simp only [beq_iff_eq, bne_iff_ne, ne_eq, hc, not_false_eq_true, true_and, List.cons.injEq]
    grind

/-- At a slash, the pass finds a wholly bracketed piece, or one with the final line break. -/
theorem opensParameter_append_iff :
    opensParameter ('/' :: (part ++ after)) = true ↔
      isBracketed part = true ∨ (BracketedLine part ∧ after = []) := by
  by_cases hshape : ∃ c rest, part = '[' :: c :: rest
  · obtain ⟨c, rest, rfl⟩ := hshape
    obtain ⟨hc, hrest⟩ : c ≠ '/' ∧ '/' ∉ rest := by simpa [eq_comm] using hpart
    rw [List.cons_append, List.cons_append, opensParameter, Bool.and_eq_true, bne_iff_ne,
      closes_append_iff hrest hafter, isBracketed_cons_cons_iff, bracketedLine_cons_cons_iff]
    exact and_iff_right hc
  · have hneither : ¬ (isBracketed part = true ∨ (BracketedLine part ∧ after = [])) :=
      fun h => hshape (exists_cons_cons_of_bracketed (h.imp_right And.left))
    refine iff_of_false (fun hopens => hshape ?_) hneither
    obtain ⟨c, rest, heq, hc, _⟩ := opensParameter_iff.mp hopens
    -- A shorter piece would leave the slash after it among the first two characters.
    match part, (List.cons.inj heq).2 with
    | [], hafter' =>
      have hslash := hafter '[' (by rw [← List.nil_append after, hafter']; rfl)
      exact absurd hslash (by decide)
    | [d], heq =>
      have hafter' : after = c :: rest := (List.cons.inj heq).2
      exact absurd (hafter c (by rw [hafter']; rfl)) hc
    | d :: e :: others, heq => exact ⟨e, others, by rw [(List.cons.inj heq).1]⟩

omit hafter in
/-- The pass finds nothing within a piece. -/
theorem holdsParameter_append : holdsParameter (part ++ after) = holdsParameter after := by
  induction part with
  | nil => rfl
  | cons c part ih =>
    obtain ⟨hc, hrest⟩ : c ≠ '/' ∧ '/' ∉ part := by simpa [eq_comm] using hpart
    have hclosed : opensParameter (c :: (part ++ after)) = false := by
      rw [Bool.eq_false_iff]
      intro hopens
      obtain ⟨_, _, heq, _⟩ := opensParameter_iff.mp hopens
      exact hc (List.cons.inj heq).1
    rw [List.cons_append, holdsParameter, hclosed, ih hrest, Bool.false_or]

end Slashless

/-- Over components, the pass finds the bracketed ones, and the last one also if a line break
follows its brackets. -/
theorem holdsParameter_render_iff {components : List (List Char)}
    (h : ∀ part ∈ components, '/' ∉ part) :
    holdsParameter (render components) = true ↔
      (∃ part ∈ components, isBracketed part = true) ∨
        ∃ part, components.getLast? = some part ∧ BracketedLine part := by
  induction components with
  | nil => simp [holdsParameter]
  | cons part components ih =>
    obtain ⟨hpart, hothers⟩ := List.forall_mem_cons.mp h
    rw [render_cons, holdsParameter, Bool.or_eq_true,
      opensParameter_append_iff hpart (atSlash_render components), holdsParameter_append hpart,
      ih hothers, render_eq_nil_iff, List.exists_mem_cons_iff]
    cases components with
    | nil => simp
    | cons next components =>
      rw [List.getLast?_cons_cons]
      simp [or_assoc]

theorem isDynamic_parse_iff (raw : String) :
    (parse raw).isDynamic = true ↔ ∃ text ∈ pieces raw, isBracketed text = true := by
  rw [Template.isDynamic, List.any_eq_true, segments_parse]
  simp only [List.mem_map, exists_exists_and_eq_and, ← Segment.isSome_name_ofChars,
    Segment.isSome_name_eq_isBracketed]

theorem getLast?_of_bracketedLine_piece {raw : String} (h : raw.toList.head? = some '/')
    {part : List Char} (hpart : (pieces raw).getLast? = some part) (hline : BracketedLine part) :
    raw.toList.getLast? = some '\n' := by
  obtain ⟨front, hfront⟩ := List.getLast?_eq_some_iff.mp hpart
  obtain ⟨line, _, rfl⟩ := hline
  rw [← render_pieces h, hfront, render_append, render_cons, render_nil, List.append_nil,
    ← List.cons_append, ← List.append_assoc, List.getLast?_concat]

/-- A template is dynamic if one of its pieces is wholly bracketed. The pass over the text says the
same, but for a last piece that is wholly bracketed up to a line break, so on routes that end
otherwise the two agree. -/
theorem dynamic_scan_agrees_up_to_final_line_break {raw : String}
    (h : raw.toList.head? = some '/') :
    ((parse raw).isDynamic = true ↔ ∃ text ∈ pieces raw, isBracketed text = true) ∧
      (isDynamicRoute raw = true ↔ (parse raw).isDynamic = true ∨
        ∃ text, (pieces raw).getLast? = some text ∧ BracketedLine text) ∧
      (raw.toList.getLast? ≠ some '\n' → isDynamicRoute raw = (parse raw).isDynamic) := by
  have hscan : isDynamicRoute raw = true ↔ (parse raw).isDynamic = true ∨
      ∃ text, (pieces raw).getLast? = some text ∧ BracketedLine text := by
    rw [isDynamicRoute, ← render_pieces h,
      holdsParameter_render_iff fun _ htext => slash_not_mem_piece htext, isDynamic_parse_iff]
  refine ⟨isDynamic_parse_iff raw, hscan, fun hend => ?_⟩
  rw [Bool.eq_iff_iff, hscan, or_iff_left]
  intro hline
  obtain ⟨text, htext, hline⟩ := hline
  exact hend (getLast?_of_bracketedLine_piece h htext hline)

theorem nested_brackets_are_dynamic_either_way :
    "/a]/[[]x]/b".toList.head? = some '/' ∧ isDynamicRoute "/a]/[[]x]/b" = true ∧
      (parse "/a]/[[]x]/b").isDynamic = true := by
  have hslash : "/a]/[[]x]/b".toList.head? = some '/' := by decide
  obtain ⟨hparse, _, hagree⟩ := dynamic_scan_agrees_up_to_final_line_break hslash
  have hdynamic := hparse.mpr ⟨"[[]x]".toList, by decide, by decide⟩
  exact ⟨hslash, (hagree (by decide)).trans hdynamic, hdynamic⟩

/-- With a line break after the brackets, the pass still finds a parameter and reading does not. -/
theorem final_line_break_hides_parameter :
    "/[a]\n".toList.head? = some '/' ∧ isDynamicRoute "/[a]\n" = true ∧
      (parse "/[a]\n").isDynamic = false := by
  decide

end PathRouter
