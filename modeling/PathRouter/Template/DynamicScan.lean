import PathRouter.Template

/-!
# Looking for a parameter without cutting

Whether a route holds a parameter can be told from its text in one pass: somewhere a slash is
followed by brackets around at least one character other than a slash, and the closing bracket
ends the segment. A line break at the very end of the text also ends the last segment.
-/
namespace PathRouter

/-- Where a segment may end: before a slash, at the end of the text, or before a line break that
ends the text. -/
def endsSegment : List Char → Bool
  | [] => true
  | '/' :: _ => true
  | ['\n'] => true
  | _ => false

/-- Whether a closing bracket that ends the segment comes before the next slash. -/
def closes : List Char → Bool
  | [] => false
  | c :: rest => (c == ']' && endsSegment rest) || (c != '/' && closes rest)

/-- Whether the text starts with a slash and a wholly bracketed segment. -/
def opensParameter : List Char → Bool
  | '/' :: '[' :: c :: rest => c != '/' && closes rest
  | _ => false

def holdsParameter : List Char → Bool
  | [] => false
  | c :: rest => opensParameter (c :: rest) || holdsParameter rest

def isDynamicRoute (raw : String) : Bool := holdsParameter raw.toList

end PathRouter
