import PathRouter.Matcher

/-!
# Compilation

The text of a template's expression is read back as one regular expression, whatever the segments
hold. So compiling never fails.
-/
namespace PathRouter

open Regex (Token)

namespace Segment

/-- How many groups the segment's part of an expression numbers. -/
def groupCount (segment : Segment) : Nat := if segment.isDynamic then 1 else 0

def tokens (segment : Segment) : List Token :=
  match segment.kind with
  | .literal => .set (.only '/') :: segment.value.toList.map fun c => .set (.only c)
  | .param | .optionalParam =>
    [.set (.only '/'), .openNumbered, .set .notSlash, .few, .close]
  | .catchAll => [.set (.only '/'), .openNumbered, .set .notNewline, .few, .close]
  | .optionalCatchAll =>
    [.openPlain, .set (.only '/'), .openNumbered, .set .notNewline, .few, .close, .close,
      .optional]

/-- The segment's part of an expression in which `number` is the next group. -/
def parts (number : Nat) (segment : Segment) : List Regex :=
  match segment.kind with
  | .literal => .one (.only '/') :: segment.value.toList.map fun c => .one (.only c)
  | .param | .optionalParam => [.one (.only '/'), .group number (.ofList [.few .notSlash])]
  | .catchAll => [.one (.only '/'), .group number (.ofList [.few .notNewline])]
  | .optionalCatchAll =>
    [.optional (.ofList [.one (.only '/'), .group number (.ofList [.few .notNewline])])]

def partsFrom : Nat → List Segment → List Regex
  | _, [] => []
  | number, segment :: rest => segment.parts number ++ partsFrom (number + segment.groupCount) rest

end Segment

/-- The regular expression of a template. -/
def Template.regex (template : Template) : Regex :=
  .ofList (.start :: (Segment.partsFrom 1 template.segments ++
    [.optional (.ofList [.one (.only '/')]), .stop]))

namespace Regex

theorem tokens?_cons_of_not_special {c : Char} (h : c ∉ special) (rest : List Char) :
    tokens? (c :: rest) = (tokens? rest).map (.set (.only c) :: ·) := by
  conv => lhs; unfold tokens?
  split <;> simp_all [special]

theorem tokens?_escapeChars (text rest : List Char) :
    tokens? (escapeChars text ++ rest) =
      (tokens? rest).map ((text.map fun c => .set (.only c)) ++ ·) := by
  induction text with
  | nil => simp [escapeChars]
  | cons c text ih =>
    have hcons : escapeChars (c :: text) ++ rest =
        (if c ∈ special then ['\\', c] else [c]) ++ (escapeChars text ++ rest) := by
      rw [escapeChars, List.flatMap_cons, List.append_assoc]
      rfl
    rw [hcons]
    split
    · rename_i hc
      have hescaped (rest : List Char) : tokens? ('\\' :: c :: rest) =
          (tokens? rest).map (.set (.only c) :: ·) := by
        rw [tokens?, if_pos hc]
      rw [List.cons_append, List.cons_append, List.nil_append, hescaped, ih, Option.map_map]
      rfl
    · rename_i hc
      rw [List.cons_append, List.nil_append, tokens?_cons_of_not_special hc, ih, Option.map_map]
      rfl

theorem tokens?_piece (segment : Segment) (rest : List Char) :
    tokens? ((segment.piece escapeLiteral).toList ++ rest) =
      (tokens? rest).map (segment.tokens ++ ·) := by
  have hslash := tokens?_cons_of_not_special (c := '/') (by decide)
  unfold Segment.piece Segment.tokens
  cases segment.kind with
  | literal =>
    simp only [String.toList_append, escapeLiteral, String.toList_ofList]
    show tokens? ('/' :: (escapeChars segment.value.toList ++ rest)) = _
    rw [hslash, tokens?_escapeChars, Option.map_map]
    rfl
  | param | optionalParam | catchAll | optionalCatchAll =>
    simp [tokens?, hslash, Option.map_map, Function.comp_def]

theorem ofTokens?_only (text : List Char) (rest : List Token) (next : Nat) (parts : List Regex)
    (opened : List OpenGroup) :
    ofTokens? ((text.map fun c => .set (.only c)) ++ rest) next parts opened =
      ofTokens? rest next ((text.map fun c => one (.only c)).reverse ++ parts) opened := by
  induction text generalizing parts with
  | nil => rfl
  | cons c text ih =>
    rw [List.map_cons, List.cons_append, ofTokens?, ih, List.map_cons, List.reverse_cons,
      List.append_assoc]
    rfl

theorem ofTokens?_segment (segment : Segment) (rest : List Token) (next : Nat)
    (parts : List Regex) (opened : List OpenGroup) :
    ofTokens? (segment.tokens ++ rest) next parts opened =
      ofTokens? rest (next + segment.groupCount) ((segment.parts next).reverse ++ parts)
        opened := by
  unfold Segment.tokens Segment.parts Segment.groupCount Segment.isDynamic
  cases segment.kind with
  | literal =>
    simp only [List.cons_append, ofTokens?, ofTokens?_only, List.reverse_cons, List.append_assoc]
    rfl
  | param | optionalParam | catchAll | optionalCatchAll => rfl

theorem tokens?_pieces (segments : List Segment) (rest : List Char) :
    tokens? ((String.join (segments.map (Segment.piece escapeLiteral))).toList ++ rest) =
      (tokens? rest).map (segments.flatMap Segment.tokens ++ ·) := by
  induction segments with
  | nil => simp
  | cons segment segments ih =>
    rw [List.map_cons, String.join_cons, String.toList_append, List.append_assoc, tokens?_piece,
      ih, Option.map_map]
    simp only [List.flatMap_cons, List.append_assoc, Function.comp_def]

theorem ofTokens?_segments (segments : List Segment) (rest : List Token) (next : Nat)
    (parts : List Regex) :
    ∃ after, ofTokens? (segments.flatMap Segment.tokens ++ rest) next parts [] =
      ofTokens? rest after ((Segment.partsFrom next segments).reverse ++ parts) [] := by
  induction segments generalizing next parts with
  | nil => exact ⟨next, rfl⟩
  | cons segment segments ih =>
    obtain ⟨after, h⟩ := ih (next + segment.groupCount) ((segment.parts next).reverse ++ parts)
    refine ⟨after, ?_⟩
    rw [List.flatMap_cons, List.append_assoc, ofTokens?_segment, h, Segment.partsFrom,
      List.reverse_append, List.append_assoc]

/-- The tokens that every expression ends in. -/
def lastTokens : List Token := [.openPlain, .set (.only '/'), .close, .optional, .stop]

theorem tokens?_expression (template : Template) :
    tokens? (template.expression escapeLiteral).toList =
      some (.start :: (template.segments.flatMap Segment.tokens ++ lastTokens)) := by
  have hlast : tokens? "(?:/)?$".toList = some lastTokens := by decide
  rw [Template.expression, String.append_assoc, String.toList_append, String.toList_append]
  show tokens? ('^' :: ([] ++ _)) = _
  rw [List.nil_append, tokens?, tokens?_pieces, hlast]
  rfl

theorem parse?_expression (template : Template) :
    parse? (template.expression escapeLiteral) = some template.regex := by
  obtain ⟨after, h⟩ := ofTokens?_segments template.segments lastTokens 1 [start]
  rw [parse?, tokens?_expression]
  show ofTokens? (.start :: _) 1 [] [] = _
  rw [ofTokens?, h]
  simp only [lastTokens, ofTokens?, OpenGroup.close, List.reverse_cons, List.reverse_append,
    List.reverse_reverse, List.append_assoc, List.reverse_nil, List.nil_append,
    List.cons_append]
  rfl

end Regex

def Template.matcher (template : Template) : Matcher :=
  ⟨template.raw, template.expression escapeLiteral, template.regex, template.groups⟩

/-- Every template compiles. -/
theorem Template.compile_eq (template : Template) : template.compile = .ok template.matcher := by
  rw [compile, compileWith, Regex.parse?_expression]
  rfl

end PathRouter
