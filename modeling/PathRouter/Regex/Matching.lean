import PathRouter.Regex

/-!
# Matching

An expression is tried at a place of the text with the rest of the expression as a continuation.
The first of its ways to go on that lets the continuation succeed counts; groups of abandoned ways
leave nothing behind.
-/
namespace PathRouter.Regex

/-- A stretch of a text, as the rest of the text from where it starts and from where it stops. -/
structure Span where
  start : List Char
  stop : List Char

def Span.text (span : Span) : String :=
  String.ofList (span.start.take (span.start.length - span.stop.length))

/-- A place in a text. -/
structure Cursor where
  rest : List Char
  /-- Whether something has been read. -/
  moved : Bool
  /-- The stretches of the groups passed, by their numbers, the last one first. -/
  spans : List (Nat × Span)

namespace Cursor

def atStart (text : List Char) : Cursor := ⟨text, false, []⟩

def moveTo (cursor : Cursor) (rest : List Char) : Cursor := { cursor with rest, moved := true }

def keep (cursor : Cursor) (number : Nat) (start : List Char) : Cursor :=
  { cursor with spans := (number, ⟨start, cursor.rest⟩) :: cursor.spans }

end Cursor

/-- Reads one or more characters of the set, as few as the continuation allows. -/
def runFew {β : Type} (set : CharSet) (next : List Char → Option β) : List Char → Option β
  | [] => none
  | c :: rest =>
    if set.contains c then
      match next rest with
      | some result => some result
      | none => runFew set next rest
    else none

/-- Whether the text from here on is at most one line break. -/
def atStop : List Char → Bool
  | [] => true
  | [c] => c == '\n'
  | _ => false

/-- The continuation's first success over the ways in which the expression matches from here. -/
def run {β : Type} : Regex → Cursor → (Cursor → Option β) → Option β
  | empty, cursor, next => next cursor
  | one set, cursor, next =>
    match cursor.rest with
    | [] => none
    | c :: rest => if set.contains c then next (cursor.moveTo rest) else none
  | few set, cursor, next => runFew set (fun rest => next (cursor.moveTo rest)) cursor.rest
  | optional inner, cursor, next =>
    match inner.run cursor next with
    | some result => some result
    | none => next cursor
  | group number inner, cursor, next =>
    inner.run cursor fun after => next (after.keep number cursor.rest)
  | start, cursor, next => if cursor.moved then none else next cursor
  | stop, cursor, next => if atStop cursor.rest then next cursor else none
  | seq first second, cursor, next => first.run cursor fun after => second.run after next

/-- The groups of the first way in which the expression matches the whole text. -/
def fullMatch? (regex : Regex) (text : List Char) : Option (List (Nat × Span)) :=
  regex.run (.atStart text) fun cursor => if cursor.rest.isEmpty then some cursor.spans else none

end PathRouter.Regex
