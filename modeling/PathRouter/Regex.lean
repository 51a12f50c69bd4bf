/-!
# Regular expressions

The fragment of regular expressions that route templates need: single characters, a lazy
repetition of a set of characters, an optional part that is tried before it is left out, numbered
groups and the two anchors.
-/
namespace PathRouter

/-- What one place of an expression accepts. -/
inductive CharSet
  | only (c : Char)
  /-- Anything but a slash; a line break is accepted. -/
  | notSlash
  /-- Anything but a line break. -/
  | notNewline
  deriving DecidableEq, Repr

def CharSet.contains : CharSet → Char → Bool
  | only c, d => c == d
  | notSlash, d => d != '/'
  | notNewline, d => d != '\n'

inductive Regex
  | empty
  | one (set : CharSet)
  /-- One or more characters of the set, as few as the rest of the expression allows. -/
  | few (set : CharSet)
  /-- The inner expression where that leads to a match, nothing otherwise. -/
  | optional (inner : Regex)
  /-- The inner expression, its text kept under a number. -/
  | group (number : Nat) (inner : Regex)
  /-- Before the first character. -/
  | start
  /-- After the last character, or before a line break that is the last one. -/
  | stop
  | seq (first second : Regex)
  deriving DecidableEq, Repr

namespace Regex

def ofList : List Regex → Regex
  | [] => empty
  | first :: rest => seq first (ofList rest)

/-- How many groups keep their text. -/
def groupCount : Regex → Nat
  | optional inner => inner.groupCount
  | group _ inner => inner.groupCount + 1
  | seq first second => first.groupCount + second.groupCount
  | empty | one _ | few _ | start | stop => 0

end Regex

end PathRouter
