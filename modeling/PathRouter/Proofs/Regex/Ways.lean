import PathRouter.Regex.Matching

/-!
# Ways to match

Matching tries the ways in which an expression goes on one after another. Here they are listed, in
the order in which they are tried, so that what a match finds is the first listed way that serves.
-/
namespace PathRouter.Regex

/-- The rests of a text after one or more characters of the set, the shortest stretch first. -/
def fewStops (set : CharSet) : List Char → List (List Char)
  | [] => []
  | c :: rest => if set.contains c then rest :: fewStops set rest else []

/-- The places to which the expression leads, in the order in which they are tried. -/
def ways : Regex → Cursor → List Cursor
  | empty, cursor => [cursor]
  | one set, cursor =>
    match cursor.rest with
    | [] => []
    | c :: rest => if set.contains c then [cursor.moveTo rest] else []
  | few set, cursor => (fewStops set cursor.rest).map cursor.moveTo
  | optional inner, cursor => inner.ways cursor ++ [cursor]
  | group number inner, cursor => (inner.ways cursor).map (·.keep number cursor.rest)
  | start, cursor => if cursor.moved then [] else [cursor]
  | stop, cursor => if atStop cursor.rest then [cursor] else []
  | seq first second, cursor => (first.ways cursor).flatMap second.ways

theorem runFew_eq {β : Type} (set : CharSet) (next : List Char → Option β) (text : List Char) :
    runFew set next text = (fewStops set text).findSome? next := by
  induction text with
  | nil => rfl
  | cons c rest ih =>
    rw [runFew, fewStops]
    split
    · rw [List.findSome?_cons, ih]
      cases next rest <;> rfl
    · rfl

theorem findSome?_flatMap {α β γ : Type} (f : α → List β) (next : β → Option γ) (l : List α) :
    (l.flatMap f).findSome? next = l.findSome? fun a => (f a).findSome? next := by
  induction l with
  | nil => rfl
  | cons a l ih =>
    rw [List.flatMap_cons, List.findSome?_append, ih, List.findSome?_cons]
    cases (f a).findSome? next <;> rfl

theorem run_eq_findSome? {β : Type} (regex : Regex) (cursor : Cursor)
    (next : Cursor → Option β) :
    regex.run cursor next = (regex.ways cursor).findSome? next := by
  induction regex generalizing cursor next with
  | empty => simp [run, ways]
  | one set =>
    rw [run, ways]
    cases cursor.rest with
    | nil => rfl
    | cons c rest =>
      simp only
      split
      · simp
      · rfl
  | few set =>
    rw [run, ways, runFew_eq, List.findSome?_map]
    rfl
  | optional inner ih =>
    rw [run, ways, List.findSome?_append, ih]
    cases (inner.ways cursor).findSome? next <;> simp
  | group number inner ih =>
    rw [run, ways, List.findSome?_map, ih]
    rfl
  | start =>
    rw [run, ways]
    split
    · rfl
    · simp
  | stop =>
    rw [run, ways]
    split
    · simp
    · rfl
  | seq first second ih₁ ih₂ =>
    rw [run, ways, findSome?_flatMap, ih₁]
    simp only [ih₂]

@[simp] theorem rest_moveTo (cursor : Cursor) (rest : List Char) :
    (cursor.moveTo rest).rest = rest := rfl

theorem ways_ofList_append (front back : List Regex) (cursor : Cursor) :
    (ofList (front ++ back)).ways cursor = (seq (ofList front) (ofList back)).ways cursor := by
  induction front generalizing cursor with
  | nil => simp [ofList, ways]
  | cons first front ih =>
    simp only [List.cons_append, ofList, ways, List.flatMap_assoc]
    congr 1
    funext after
    exact ih after

end PathRouter.Regex
