import PathRouter.Proofs.Matcher.Compilation
import PathRouter.Proofs.Template.Pattern

/-!
# Encoding

The text of an expression says which pattern it was made from. Its tokens are read from left to
right: the first of them say what the first segment is, and where its tokens end the next segment
begins. Literals do not disturb this, since they hold no slash, and a character of theirs that has
a meaning of its own stands behind a backslash.
-/
namespace PathRouter

open Regex (Token lastTokens tokens?_expression)
open Template (parse)

/-- A segment of the shape. -/
def Shape.segment : Shape → Segment
  | literal text => ⟨text, .literal, none⟩
  | param => ⟨"", .param, none⟩
  | catchAll => ⟨"", .catchAll, none⟩
  | optionalCatchAll => ⟨"", .optionalCatchAll, none⟩

namespace Segment

theorem piece_segment_shape (segment : Segment) (escape : String → String) :
    segment.shape.segment.piece escape = segment.piece escape := by
  unfold piece shape
  cases segment.kind <;> rfl

theorem tokens_segment_shape (segment : Segment) :
    segment.shape.segment.tokens = segment.tokens := by
  unfold tokens shape
  cases segment.kind <;> rfl

end Segment

/-- The pattern is all that an expression says of its template. -/
theorem Template.expression_congr {a b : Template} (h : a.pattern = b.pattern)
    (escape : String → String) : a.expression escape = b.expression escape := by
  have hpieces (template : Template) : template.segments.map (Segment.piece escape) =
      template.pattern.map fun shape => shape.segment.piece escape := by
    rw [pattern, List.map_map]
    exact List.map_congr_left fun segment _ => (segment.piece_segment_shape escape).symm
  rw [expression, expression, hpieces a, hpieces b, h]

/-- Tokens that begin where a segment or the end of an expression may begin. -/
def AtPiece (tokens : List Token) : Prop :=
  tokens.head? = some (.set (.only '/')) ∨ tokens.head? = some .openPlain

theorem atPiece_tokens (segments : List Segment) :
    AtPiece (segments.flatMap Segment.tokens ++ lastTokens) := by
  cases segments with
  | nil => exact Or.inr rfl
  | cons segment segments =>
    rw [List.flatMap_cons]
    unfold Segment.tokens
    cases segment.kind with
    | literal | param | optionalParam | catchAll => exact Or.inl rfl
    | optionalCatchAll => exact Or.inr rfl

namespace Shape

/-- The characters that stand for themselves up to the next slash. -/
def textOf : List Token → List Char
  | .set (.only c) :: rest => if c = '/' then [] else c :: textOf rest
  | _ => []

/-- The shape of the segment that the tokens begin with, if they do. -/
def ofTokens? : List Token → Option Shape
  | .openPlain :: .set (.only '/') :: .openNumbered :: _ => some optionalCatchAll
  | .set (.only '/') :: .openNumbered :: .set .notSlash :: _ => some param
  | .set (.only '/') :: .openNumbered :: _ => some catchAll
  | .set (.only '/') :: rest => some (literal (String.ofList (textOf rest)))
  | _ => none

theorem textOf_append {text : List Char} (htext : '/' ∉ text) {tokens : List Token}
    (h : AtPiece tokens) : textOf (text.map (fun c => .set (.only c)) ++ tokens) = text := by
  induction text with
  | nil =>
    rcases h with h | h
    · obtain ⟨rest, rfl⟩ := List.head?_eq_some_iff.mp h
      rfl
    · obtain ⟨rest, rfl⟩ := List.head?_eq_some_iff.mp h
      rfl
  | cons c text ih =>
    rw [List.mem_cons, not_or] at htext
    rw [List.map_cons, List.cons_append, textOf, if_neg (Ne.symm htext.1), ih htext.2]

theorem ofTokens?_slash {rest : List Token} (h : rest.head? ≠ some .openNumbered) :
    ofTokens? (.set (.only '/') :: rest) = some (literal (String.ofList (textOf rest))) := by
  unfold ofTokens?
  split <;> simp_all

/-- A segment is known from its tokens, whatever comes after them. -/
theorem ofTokens?_append {segment : Segment} (hvalue : '/' ∉ segment.value.toList)
    {tokens : List Token} (h : AtPiece tokens) :
    ofTokens? (segment.tokens ++ tokens) = some segment.shape := by
  unfold Segment.tokens Segment.shape
  cases segment.kind with
  | literal =>
    have hnext : (segment.value.toList.map (fun c => Token.set (.only c)) ++ tokens).head? ≠
        some .openNumbered := by
      cases segment.value.toList with
      | nil => rcases h with h | h <;> simp [h]
      | cons c text => simp
    simp only
    rw [List.cons_append, ofTokens?_slash hnext, textOf_append hvalue h, String.ofList_toList]
  | param | optionalParam | catchAll | optionalCatchAll => rfl

theorem ofTokens?_lastTokens : ofTokens? lastTokens = none := rfl

end Shape

theorem Segment.map_shape_eq_of_tokens {as bs : List Segment}
    (ha : ∀ s ∈ as, '/' ∉ s.value.toList) (hb : ∀ s ∈ bs, '/' ∉ s.value.toList)
    (h : as.flatMap tokens ++ lastTokens = bs.flatMap tokens ++ lastTokens) :
    as.map shape = bs.map shape := by
  have hfirst {s : Segment} {ss : List Segment} (hs : '/' ∉ s.value.toList) :
      Shape.ofTokens? ((s :: ss).flatMap tokens ++ lastTokens) = some s.shape := by
    rw [List.flatMap_cons, List.append_assoc]
    exact Shape.ofTokens?_append hs (atPiece_tokens ss)
  induction as generalizing bs with
  | nil =>
    cases bs with
    | nil => rfl
    | cons b bs =>
      have hshape := congrArg Shape.ofTokens? h
      rw [List.flatMap_nil, List.nil_append, Shape.ofTokens?_lastTokens,
        hfirst (hb b List.mem_cons_self)] at hshape
      cases hshape
  | cons a as ih =>
    obtain ⟨ha, has⟩ := List.forall_mem_cons.mp ha
    have hshape := congrArg Shape.ofTokens? h
    rw [hfirst ha] at hshape
    cases bs with
    | nil =>
      rw [List.flatMap_nil, List.nil_append, Shape.ofTokens?_lastTokens] at hshape
      cases hshape
    | cons b bs =>
      obtain ⟨hb, hbs⟩ := List.forall_mem_cons.mp hb
      rw [hfirst hb] at hshape
      have hshape := Option.some.inj hshape
      have htokens : a.tokens = b.tokens := by
        rw [← tokens_segment_shape a, hshape, tokens_segment_shape]
      rw [List.flatMap_cons, List.flatMap_cons, List.append_assoc, List.append_assoc,
        htokens] at h
      rw [List.map_cons, List.map_cons, hshape, ih has hbs (List.append_cancel_left h)]

/-- Where no segment holds a slash, the text of the expression and the pattern say the same. -/
theorem Template.expression_eq_iff {a b : Template}
    (ha : ∀ s ∈ a.segments, '/' ∉ s.value.toList) (hb : ∀ s ∈ b.segments, '/' ∉ s.value.toList) :
    a.expression escapeLiteral = b.expression escapeLiteral ↔ a.pattern = b.pattern := by
  refine ⟨fun h => ?_, fun h => expression_congr h escapeLiteral⟩
  have htokens := congrArg (fun text => Regex.tokens? text.toList) h
  simp only [tokens?_expression] at htokens
  exact Segment.map_shape_eq_of_tokens ha hb (List.cons.inj (Option.some.inj htokens)).2

-- A literal with a slash, which no route is read to, passes for two segments.
example : (⟨"", [⟨"a/b", .literal, none⟩]⟩ : Template).expression escapeLiteral =
    (parse "/a/b").expression escapeLiteral := by decide

/-- Two routes are compiled to the same text exactly if their segments agree one by one: literals
with the same text, or parameters of the same kind, where double brackets around a single parameter
make no difference. -/
theorem expression_encodes_pattern (a b : String) :
    ∃ first second, (parse a).compile = .ok first ∧ (parse b).compile = .ok second ∧
      (first.expression = second.expression ↔ (parse a).pattern = (parse b).pattern) :=
  ⟨(parse a).matcher, (parse b).matcher, Template.compile_eq _, Template.compile_eq _,
    Template.expression_eq_iff (fun _ hs => Template.slash_not_mem_value hs)
      fun _ hs => Template.slash_not_mem_value hs⟩

end PathRouter
