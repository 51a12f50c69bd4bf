import PathRouter.Proofs.Template.Spelling

/-!
# The grammar of strict routes

Strict reading passes just the routes of a grammar that says nothing of how they are checked: after
a slash, segments that either hold no bracket or spell a parameter, with brackets that pair up;
catch-alls only where the text ends but for slashes; and no name twice. Each segment of the grammar
spells one kind and one name, and these are what is read.
-/
namespace PathRouter

open Template (parse)

/-- No closing bracket comes before its partner, and no bracket is left open. -/
structure Balanced (text : List Char) : Prop where
  closed_le : ∀ front, front <+: text → front.count ']' ≤ front.count '['
  closed_eq : text.count ']' = text.count '['

def BracketFree (text : List Char) : Prop := '[' ∉ text ∧ ']' ∉ text

/-- Whether the text is a parameter of this kind and with this name. -/
structure Spells (text : List Char) (kind : Kind) (name : List Char) : Prop where
  isDynamic : kind.isDynamic = true
  isName : IsName name
  text_eq : text = kind.spell name

/-- The texts between the slashes of a route, after the first one. -/
def pieces (raw : String) : List (List Char) := raw.toList.tail.splitOn '/'

structure Grammatical (raw : String) : Prop where
  slash : raw.toList.head? = some '/'
  spelled : ∀ text ∈ pieces raw,
    BracketFree text ∨ (Balanced text ∧ ∃ kind name, Spells text kind name)
  /-- Only empty texts come after a catch-all. -/
  last : (pieces raw).Pairwise fun text later =>
    ∀ kind name, Spells text kind name → kind.repeats = true → later = []
  /-- No name is used twice, with whatever kinds. -/
  distinct : (pieces raw).Pairwise fun text later =>
    ∀ kind kind' name, Spells text kind name → ¬ Spells later kind' name

theorem forall_prefix_cons_iff {α : Type} {p : List α → Prop} {a : α} {l : List α} :
    (∀ front, front <+: a :: l → p front) ↔ p [] ∧ ∀ front, front <+: l → p (a :: front) := by
  constructor
  · exact fun h => ⟨h [] List.nil_prefix, fun front hfront =>
      h (a :: front) (List.cons_prefix_cons.mpr ⟨rfl, hfront⟩)⟩
  · intro h front hfront
    rcases List.prefix_cons_iff.mp hfront with rfl | ⟨rest, rfl, hrest⟩
    · exact h.1
    · exact h.2 rest hrest

/-- With `depth` brackets open, the text closes all of them and never more than are open. -/
theorem balancedFrom_iff (depth : Nat) (text : List Char) :
    balancedFrom depth text = true ↔
      (∀ front, front <+: text → front.count ']' ≤ depth + front.count '[') ∧
        text.count ']' = depth + text.count '[' := by
  fun_induction balancedFrom depth text with
  | case1 depth =>
    simp only [List.prefix_nil, forall_eq, List.count_nil, beq_iff_eq]
    omega
  | case2 depth rest ih =>
    rw [ih, forall_prefix_cons_iff]
    refine and_congr ?_ ?_
    · simp [Nat.add_assoc, Nat.add_comm 1]
    · simp [Nat.add_assoc, Nat.add_comm 1]
  | case3 rest =>
    -- The first character closes a bracket that was never opened.
    rw [forall_prefix_cons_iff]
    refine iff_of_false Bool.false_ne_true fun h => ?_
    have hfirst := h.1.2 [] List.nil_prefix
    simp at hfirst
  | case4 depth rest ih =>
    rw [ih, forall_prefix_cons_iff]
    refine and_congr ?_ ?_
    · simp [Nat.add_right_comm]
    · simp [Nat.add_right_comm]
  | case5 depth c rest h1 h2 h3 ih =>
    have hopen : c ≠ '[' := h1
    have hclose : c ≠ ']' := by
      rintro rfl
      cases depth with
      | zero => exact h2 rfl rfl
      | succ depth => exact h3 depth rfl rfl
    rw [ih, forall_prefix_cons_iff]
    simp [hopen, hclose]

theorem balanced_iff {text : List Char} : balancedFrom 0 text = true ↔ Balanced text := by
  rw [balancedFrom_iff]
  simp only [Nat.zero_add]
  exact ⟨fun h => ⟨h.1, h.2⟩, fun h => ⟨h.closed_le, h.closed_eq⟩⟩

theorem BracketFree.balanced {text : List Char} (h : BracketFree text) : Balanced text := by
  refine ⟨fun front hfront => ?_, ?_⟩
  · rw [List.count_eq_zero.mpr fun hmem => h.2 (hfront.mem hmem)]
    exact Nat.zero_le _
  · rw [List.count_eq_zero.mpr h.1, List.count_eq_zero.mpr h.2]

theorem Balanced.bracketFree {text : List Char} (h : Balanced text) (hopen : '[' ∉ text) :
    BracketFree text := by
  refine ⟨hopen, List.count_eq_zero.mp ?_⟩
  rw [h.closed_eq, List.count_eq_zero.mpr hopen]

namespace Segment

theorem bracketDefect?_eq_none_iff {segment : Segment} :
    segment.bracketDefect? = none ↔ Balanced segment.value.toList ∧
      ('[' ∈ segment.value.toList → segment.value.toList.head? = some '[' ∧
        segment.value.toList.getLast? = some ']') ∧ segment.value ≠ "[]" := by
  rw [← balanced_iff]
  unfold bracketDefect? startsWith endsWith
  split
  · simp_all
  split
  · rename_i hinside
    simp only [Bool.and_eq_true, List.contains_iff_mem, Bool.not_eq_true', Bool.and_eq_false_iff,
      beq_eq_false_iff_ne] at hinside
    refine iff_of_false nofun fun h => ?_
    obtain ⟨hhead, hlast⟩ := h.2.1 hinside.1
    exact hinside.2.elim (· hhead) (· hlast)
  split
  · simp_all
  · simp_all

/-- A segment that is read has a name just if it is wholly bracketed. -/
theorem isSome_name_eq_isBracketed (text : List Char) :
    (ofChars text).name.isSome = isBracketed text := by
  unfold ofChars
  split <;> simp_all

theorem spells_of_name {text : List Char} {name : String} (h : (ofChars text).name = some name)
    (hname : IsName name.toList) : Spells text (ofChars text).kind name.toList := by
  have hspelling := spelling_ofChars text
  rw [spelling, h] at hspelling
  refine ⟨?_, hname, hspelling.symm⟩
  have hnamed := isSome_name_ofChars text
  rw [h] at hnamed
  exact hnamed.symm

end Segment

namespace Spells

variable {text : List Char} {kind : Kind} {name : List Char}

/-- What a text spells is what it is read as. -/
theorem ofChars_eq (h : Spells text kind name) :
    Segment.ofChars text = ⟨String.ofList text, kind, some (String.ofList name)⟩ := by
  rw [h.text_eq, Segment.ofChars_spell (h.isName.legible h.isDynamic)]

theorem isBracketed (h : Spells text kind name) : isBracketed text = true := by
  rw [← Segment.isSome_name_eq_isBracketed, h.ofChars_eq]
  rfl

end Spells

namespace Segment

theorem isBracketed_iff {text : List Char} :
    isBracketed text = true ↔
      text.head? = some '[' ∧ text.getLast? = some ']' ∧ text ≠ ['[', ']'] := by
  unfold isBracketed
  match text with
  | [] => simp
  | [c] =>
    simp
    rintro rfl
    decide
  | [c, d] => simp +contextual
  | c :: d :: e :: rest => simp

/-- A text without brackets is a literal. -/
theorem ofChars_of_bracketFree {text : List Char} (h : BracketFree text) :
    ofChars text = ⟨String.ofList text, .literal, none⟩ := by
  have hbracketed : ¬ isBracketed text = true := by
    rw [isBracketed_iff]
    intro hwrapped
    exact h.1 (List.mem_of_mem_head? hwrapped.1)
  rw [ofChars, if_neg hbracketed]

/-- A single segment is passed just if it holds no bracket or spells a parameter. -/
theorem sound_ofChars_iff (text : List Char) :
    (ofChars text).Sound [] ↔
      BracketFree text ∨ (Balanced text ∧ ∃ kind name, Spells text kind name) := by
  have hbrackets := @bracketDefect?_eq_none_iff (ofChars text)
  have hnamed := isSome_name_eq_isBracketed text
  have hempty : String.ofList text ≠ "[]" ↔ text ≠ ['[', ']'] := by
    rw [ne_eq, ← String.toList_inj, String.toList_ofList]
    rfl
  rw [value_ofChars, String.toList_ofList, hempty] at hbrackets
  constructor
  · intro h
    obtain ⟨hbalanced, hwrapped, hne⟩ := hbrackets.mp h.brackets
    cases hname : (ofChars text).name with
    | some name => exact Or.inr ⟨hbalanced, _, _, spells_of_name hname (h.isName name hname)⟩
    | none =>
      refine Or.inl (hbalanced.bracketFree fun hmem => ?_)
      obtain ⟨hhead, hlast⟩ := hwrapped hmem
      rw [hname, isBracketed_iff.mpr ⟨hhead, hlast, hne⟩] at hnamed
      cases hnamed
  · intro h
    rcases h with hfree | ⟨hbalanced, kind, name, hspells⟩
    · have hnone : (ofChars text).name = none := by rw [ofChars_of_bracketFree hfree]
      refine ⟨hbrackets.mpr ⟨hfree.balanced, fun hmem => absurd hmem hfree.1, ?_⟩, ?_, ?_, ?_⟩
      · rintro rfl
        exact hfree.1 List.mem_cons_self
      · rw [hnone]
        exact nofun
      · rw [hnone]
        exact nofun
      · rw [hnone]
        exact nofun
    · obtain ⟨hhead, hlast, hne⟩ := isBracketed_iff.mp hspells.isBracketed
      refine ⟨hbrackets.mpr ⟨hbalanced, fun _ => ⟨hhead, hlast⟩, hne⟩, ?_, ?_, ?_⟩
      · rw [hspells.ofChars_eq]
        intro n hn
        rw [← Option.some.inj hn, String.toList_ofList]
        exact hspells.isName
      · exact fun _ _ => List.not_mem_nil
      · intro _ _ hvalue
        rw [value_ofChars, String.ofList_eq_empty_iff] at hvalue
        rw [hvalue] at hhead
        cases hhead

/-- Two segments go together just if they spell different names, and nothing follows a catch-all. -/
theorem allows_ofChars_iff {text : List Char} (h : (ofChars text).Sound []) (later : List Char) :
    (ofChars text).Allows (ofChars later) ↔
      (∀ kind name, Spells text kind name → kind.repeats = true → later = []) ∧
        ∀ kind kind' name, Spells text kind name → ¬ Spells later kind' name := by
  have hlater : (ofChars later).value = "" ↔ later = [] := by
    rw [value_ofChars, String.ofList_eq_empty_iff]
  constructor
  · intro hallows
    refine ⟨fun kind name hspells hrepeats => ?_, fun kind kind' name hspells hspells' => ?_⟩
    · have hempty := hallows.empty
      rw [hspells.ofChars_eq] at hempty
      exact hlater.mp (hempty rfl hrepeats)
    · have hne := hallows.name_ne (String.ofList name)
      rw [hspells.ofChars_eq, hspells'.ofChars_eq] at hne
      exact hne rfl rfl
  · intro hgrammar
    obtain ⟨hlast, hdistinct⟩ := hgrammar
    refine ⟨fun name hname hname' => ?_, fun hsome hrepeats => ?_⟩
    · have hisName := h.isName name hname
      exact hdistinct _ _ _ (spells_of_name hname hisName) (spells_of_name hname' hisName)
    · obtain ⟨name, hname⟩ := Option.isSome_iff_exists.mp hsome
      exact hlater.mpr (hlast _ _ (spells_of_name hname (h.isName name hname)) hrepeats)

end Segment

theorem segments_parse (raw : String) :
    (parse raw).segments = (pieces raw).map Segment.ofChars := rfl

/-- Strict reading finds no defect just in the routes of the grammar. -/
theorem defect?_parse_eq_none_iff {raw : String} :
    (parse raw).defect? = none ↔ Grammatical raw := by
  have hslash : startsWith '/' (parse raw).raw = true ↔ raw.toList.head? = some '/' := by
    rw [startsWith, beq_iff_eq, Template.raw_parse]
  have hpieces : segmentsDefect? [] (parse raw).segments = none ↔
      (∀ text ∈ pieces raw, (Segment.ofChars text).Sound []) ∧
        (pieces raw).Pairwise fun text later =>
          (Segment.ofChars text).Allows (Segment.ofChars later) := by
    rw [Segment.segmentsDefect?_eq_none_iff, segments_parse, List.forall_mem_map, List.pairwise_map]
  unfold Template.defect?
  split
  · rename_i hstarts
    rw [hpieces]
    constructor
    · intro h
      obtain ⟨hsound, hpairs⟩ := h
      have hlaw := hpairs.imp_of_mem fun {text later} htext _ hallows =>
        (Segment.allows_ofChars_iff (hsound text htext) later).mp hallows
      exact ⟨hslash.mp hstarts, fun text htext => (Segment.sound_ofChars_iff text).mp
        (hsound text htext), hlaw.imp fun h => h.1, hlaw.imp fun h => h.2⟩
    · intro h
      have hsound : ∀ text ∈ pieces raw, (Segment.ofChars text).Sound [] :=
        fun text htext => (Segment.sound_ofChars_iff text).mpr (h.spelled text htext)
      refine ⟨hsound, (h.last.and h.distinct).imp_of_mem fun {text later} htext _ hlaw => ?_⟩
      exact (Segment.allows_ofChars_iff (hsound text htext) later).mpr hlaw
  · rename_i hstarts
    exact iff_of_false nofun fun h => hstarts (hslash.mpr h.slash)

/-- Strict reading passes just the routes of the grammar. What it passes is read as without it:
the segments are the texts between the slashes, those without brackets are literals, and a text that
spells a kind and a name has this kind and this name. What it refuses is named by the fault. -/
theorem strict_reading_follows_grammar (raw : String) :
    ((∃ template, (parse raw).validate = .ok template) ↔ Grammatical raw) ∧
    (∀ template, (parse raw).validate = .ok template →
      template = parse raw ∧
      template.segments.map (fun segment => segment.value.toList) = pieces raw ∧
      ∀ segment ∈ template.segments,
        (BracketFree segment.value.toList → segment.kind = .literal ∧ segment.name = none) ∧
        ∀ kind name, Spells segment.value.toList kind name →
          segment.kind = kind ∧ segment.name = some (String.ofList name)) ∧
    (¬ Grammatical raw → ∃ reason, (parse raw).validate = .error (.invalidRoute raw reason)) := by
  refine ⟨?_, ?_, ?_⟩
  · rw [← defect?_parse_eq_none_iff]
    constructor
    · intro h
      obtain ⟨template, hvalid⟩ := h
      exact (Template.validate_eq_ok_iff.mp hvalid).1
    · exact fun h => ⟨parse raw, Template.validate_eq_ok_iff.mpr ⟨h, rfl⟩⟩
  · intro template hvalid
    obtain ⟨_, rfl⟩ := Template.validate_eq_ok_iff.mp hvalid
    refine ⟨rfl, Template.map_value_parse raw, fun segment hsegment => ?_⟩
    obtain ⟨text, _, rfl⟩ := List.mem_map.mp hsegment
    rw [Segment.value_ofChars, String.toList_ofList]
    refine ⟨fun hfree => ?_, fun kind name hspells => ?_⟩
    · rw [Segment.ofChars_of_bracketFree hfree]
      exact ⟨rfl, rfl⟩
    · rw [hspells.ofChars_eq]
      exact ⟨rfl, rfl⟩
  · intro hinvalid
    rw [← defect?_parse_eq_none_iff] at hinvalid
    refine Template.exists_reason_of_validate fun hvalid => ?_
    exact hinvalid (Template.validate_eq_ok_iff.mp hvalid).1

theorem archive_route_is_grammatical : Grammatical "/archive/[year]/[[...path]]/" :=
  (strict_reading_follows_grammar "/archive/[year]/[[...path]]/").1.mp ⟨_, rfl⟩

end PathRouter
