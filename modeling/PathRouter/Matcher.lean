import PathRouter.Matcher.Params
import PathRouter.Regex.Matching
import PathRouter.Regex.Parser
import PathRouter.Template.Expression

/-!
# Matchers

A matcher is a template made ready to be tried on paths: its expression, read as a regular
expression, and for each parameter the group that holds its text.
-/
namespace PathRouter

/-- Where the text of a parameter is kept, and how it is to be read. -/
structure Group where
  number : Nat
  repeats : Bool
  optional : Bool
  deriving DecidableEq, Repr

structure Matcher where
  route : String
  expression : String
  regex : Regex
  groups : Bindings String Group

/-- The groups of the named segments, numbered in order from one on. Of a repeated name the last
segment counts, in the place of the first. -/
def Template.groups (template : Template) : Bindings String Group :=
  let named := template.segments.filterMap fun segment => segment.name.map (·, segment)
  Bindings.ofPairs <| (named.zipIdx 1).map fun ((name, segment), number) =>
    (name, ⟨number, segment.repeats, segment.optional⟩)

/-- Compiles a template whose literals are written with `escape`. -/
def Template.compileWith (escape : String → String) (template : Template) : Except Fault Matcher :=
  let expression := template.expression escape
  match Regex.parse? expression with
  | some regex => .ok ⟨template.raw, expression, regex, template.groups⟩
  | none => .error (.badExpression template.raw expression)

def Template.compile (template : Template) : Except Fault Matcher :=
  template.compileWith escapeLiteral

namespace Matcher

/-- The stretches of the path kept by the groups, if the template serves the path. -/
def capture? (matcher : Matcher) (path : String) : Option (List (Nat × Regex.Span)) :=
  matcher.regex.fullMatch? path.toList

def accepts (matcher : Matcher) (path : String) : Bool := (matcher.capture? path).isSome

/-- The parameters among the captured stretches, in the order of the groups. A group that took no
part is left out; one that the expression does not have is a fault. -/
def params (matcher : Matcher) (decode : Bool) (spans : List (Nat × Regex.Span)) :
    Except Fault Params :=
  if matcher.groups.any fun pair => matcher.regex.groupCount < pair.2.number then
    .error .missingGroup
  else
    .ok <| matcher.groups.filterMap fun (name, group) =>
      (spans.lookup group.number).map fun span =>
        (name, Value.ofCapture group.repeats decode span.text)

/-- The parameters that the template finds in a path, or nothing if it does not serve the path. -/
def extract (matcher : Matcher) (decode : Bool) (path : String) : Except Fault (Option Params) :=
  match matcher.capture? path with
  | none => .ok none
  | some spans => (matcher.params decode spans).map some

end Matcher

end PathRouter
