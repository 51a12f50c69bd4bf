import PathRouter.Regex.Token
import PathRouter.Template

/-!
# The expression of a template

Every segment contributes a piece that carries its own leading slash; the slash of an optional
catch-all is part of what may be absent. A slash at the end of a path may always be there.
-/
namespace PathRouter

/-- Puts a backslash before each character with a meaning of its own in expressions. -/
def escapeChars (text : List Char) : List Char :=
  text.flatMap fun c => if c ∈ Regex.special then ['\\', c] else [c]

def escapeLiteral (text : String) : String := String.ofList (escapeChars text.toList)

/-- The piece of a segment; `escape` says how the text of a literal is written. -/
def Segment.piece (escape : String → String) (segment : Segment) : String :=
  match segment.kind with
  | .literal => "/" ++ escape segment.value
  | .param | .optionalParam => "/([^/]+?)"
  | .catchAll => "/(.+?)"
  | .optionalCatchAll => "(?:/(.+?))?"

def Template.expression (escape : String → String) (template : Template) : String :=
  "^" ++ String.join (template.segments.map (Segment.piece escape)) ++ "(?:/)?$"

end PathRouter
