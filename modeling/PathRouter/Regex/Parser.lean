import PathRouter.Regex.Token

/-!
# Reading an expression

The tokens are taken from left to right. Groups are numbered by their opening brackets, from one
on; a bracket without a partner makes the text no expression.
-/
namespace PathRouter.Regex

/-- A group that is still open: its number, if it has one, and what stands before it, the last
part first. -/
structure OpenGroup where
  number? : Option Nat
  before : List Regex

/-- The expression of a closed group with these parts, the last one first. -/
def OpenGroup.close (opened : OpenGroup) (parts : List Regex) : Regex :=
  match opened.number? with
  | some number => group number (ofList parts.reverse)
  | none => ofList parts.reverse

/-- Reads on with the number of the next group, the parts of the innermost open group, the last
one first, and the open groups, the innermost one first. -/
def ofTokens? : List Token → Nat → List Regex → List OpenGroup → Option Regex
  | [], _, parts, [] => some (ofList parts.reverse)
  | [], _, _, _ :: _ => none
  | .set s :: rest, next, parts, opened => ofTokens? rest next (one s :: parts) opened
  | .start :: rest, next, parts, opened => ofTokens? rest next (start :: parts) opened
  | .stop :: rest, next, parts, opened => ofTokens? rest next (stop :: parts) opened
  | .openNumbered :: rest, next, parts, opened =>
    ofTokens? rest (next + 1) [] (⟨some next, parts⟩ :: opened)
  | .openPlain :: rest, next, parts, opened => ofTokens? rest next [] (⟨none, parts⟩ :: opened)
  | .close :: rest, next, parts, innermost :: opened =>
    ofTokens? rest next (innermost.close parts :: innermost.before) opened
  | .close :: _, _, _, [] => none
  | .few :: rest, next, one s :: parts, opened => ofTokens? rest next (few s :: parts) opened
  | .few :: _, _, _, _ => none
  | .optional :: rest, next, part :: parts, opened =>
    ofTokens? rest next (optional part :: parts) opened
  | .optional :: _, _, [], _ => none

def parse? (text : String) : Option Regex := do
  ofTokens? (← tokens? text.toList) 1 [] []

end PathRouter.Regex
