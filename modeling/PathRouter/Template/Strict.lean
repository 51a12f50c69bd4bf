import PathRouter.Settings
import PathRouter.Template

/-!
# Strict reading

Reading accepts any text as a template; strict reading refuses those whose meaning would be
doubtful. Of several defects the first counts: segments are looked at from left to right, and for
each one the brackets before the name.
-/
namespace PathRouter

open Text (quoted)

/-- Why strict reading refuses a template. -/
inductive Defect
  | noLeadingSlash
  | unbalancedBrackets (segment : String)
  | bracketsInside (segment : String)
  | noName (segment : String)
  | bracketInName (name : String)
  | dotInName (name : String)
  | catchAllNotLast
  | repeatedName (name : String)
  deriving DecidableEq, Repr

def Defect.reason : Defect → String
  | noLeadingSlash => "route must start with '/'"
  | unbalancedBrackets segment => "unbalanced brackets in segment " ++ quoted segment
  | bracketsInside segment => "brackets must wrap the whole segment " ++ quoted segment
  | noName segment => "empty parameter name in " ++ quoted segment
  | bracketInName name =>
    "parameter names may not start or end with brackets (" ++ quoted name ++ ")"
  | dotInName name => "parameter names may not start with periods (" ++ quoted name ++ ")"
  | catchAllNotLast => "catch-all must be the last segment"
  | repeatedName name => "parameter name " ++ quoted name ++ " is used more than once"

/-- Whether, with `depth` brackets open, the text closes all of them and never more than are
open. -/
def balancedFrom : (depth : Nat) → List Char → Bool
  | depth, [] => depth == 0
  | depth, '[' :: rest => balancedFrom (depth + 1) rest
  | 0, ']' :: _ => false
  | depth + 1, ']' :: rest => balancedFrom depth rest
  | depth, _ :: rest => balancedFrom depth rest

def startsWith (c : Char) (text : String) : Bool := text.toList.head? == some c

def endsWith (c : Char) (text : String) : Bool := text.toList.getLast? == some c

namespace Segment

/-- What is wrong with the brackets of a segment. -/
def bracketDefect? (segment : Segment) : Option Defect :=
  if !balancedFrom 0 segment.value.toList then some (.unbalancedBrackets segment.value)
  else if segment.value.toList.contains '[' &&
      !(startsWith '[' segment.value && endsWith ']' segment.value) then
    some (.bracketsInside segment.value)
  else if segment.value == "[]" then some (.noName segment.value)
  else none

/-- What is wrong with the name of a segment, given the names before it and whether it is the last
segment that is not empty. -/
def nameDefect? (earlier : List String) (isLast : Bool) (segment : Segment) (name : String) :
    Option Defect :=
  if name == "" then some (.noName segment.value)
  else if startsWith '[' name || endsWith ']' name then some (.bracketInName name)
  else if startsWith '.' name then some (.dotInName name)
  else if segment.repeats && !isLast then some .catchAllNotLast
  else if earlier.contains name then some (.repeatedName name)
  else none

end Segment

/-- The first defect of the segments that come after segments with the names `earlier`. -/
def segmentsDefect? (earlier : List String) : List Segment → Option Defect
  | [] => none
  | segment :: rest =>
    let isLast := segment.value != "" && rest.all (·.value == "")
    match segment.bracketDefect?, segment.name with
    | some defect, _ => some defect
    | none, none => segmentsDefect? earlier rest
    | none, some name =>
      match segment.nameDefect? earlier isLast name with
      | some defect => some defect
      | none => segmentsDefect? (name :: earlier) rest

namespace Template

def defect? (template : Template) : Option Defect :=
  if startsWith '/' template.raw then segmentsDefect? [] template.segments
  else some .noLeadingSlash

/-- The template itself if it has no defect. -/
def validate (template : Template) : Except Fault Template :=
  match template.defect? with
  | some defect => .error (.invalidRoute template.raw defect.reason)
  | none => .ok template

/-- Reads a route as the settings say. -/
def read (settings : Settings) (raw : String) : Except Fault Template :=
  if settings.strict then (parse raw).validate else .ok (parse raw)

/-- Reads routes up to the first one that is refused. -/
def readAll (settings : Settings) (routes : List String) : Except Fault (List Template) :=
  routes.mapM (read settings)

end Template

end PathRouter
