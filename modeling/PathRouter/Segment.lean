import PathRouter.Fault

/-!
# Segments

A segment is the text between two slashes of a route template. Text in brackets is a parameter,
anything else is a literal:

* `[name]` holds one path segment, and so does `[[name]]`;
* `[...name]` holds one or more path segments;
* `[[...name]]` holds any number of path segments, none included.

Reading never fails: brackets that do not wrap the text leave a literal.
-/
namespace PathRouter

/-- What a segment stands for. -/
inductive Kind
  | literal
  | param
  | optionalParam
  | catchAll
  | optionalCatchAll
  deriving DecidableEq, Repr

namespace Kind

def isDynamic : Kind → Bool
  | literal => false
  | _ => true

/-- Written with a second pair of brackets. -/
def optional : Kind → Bool
  | optionalParam | optionalCatchAll => true
  | _ => false

/-- Able to hold more than one path segment. -/
def repeats : Kind → Bool
  | catchAll | optionalCatchAll => true
  | _ => false

/-- The dynamic kind with these two flags. -/
def ofFlags : (optional repeats : Bool) → Kind
  | false, false => param
  | true, false => optionalParam
  | false, true => catchAll
  | true, true => optionalCatchAll

/-- The dynamic kind of two flags, either of which may be unknown. -/
def ofKnownFlags : (optional repeats : Option Bool) → Except Fault Kind
  | some optional, some repeats => .ok (ofFlags optional repeats)
  | _, _ => .error .unknownFlags

def label : Kind → String
  | literal => "literal"
  | param => "param"
  | optionalParam => "optional_param"
  | catchAll => "catch_all"
  | optionalCatchAll => "optional_catch_all"

def ofLabel? (label : String) : Option Kind :=
  [literal, param, optionalParam, catchAll, optionalCatchAll].find? (·.label = label)

end Kind

/-- What the text inside the brackets of a dynamic segment says. -/
structure Parameter where
  name : String
  optional : Bool
  repeats : Bool
  deriving DecidableEq, Repr

/-- A segment of a route template. Those that are read are named exactly if they are dynamic;
segments put together by hand need not be. -/
structure Segment where
  value : String
  kind : Kind := .literal
  name : Option String := none
  deriving DecidableEq, Repr

/-- Brackets around at least one character. -/
def isBracketed (text : List Char) : Bool :=
  2 < text.length && text.head? == some '[' && text.getLast? == some ']'

/-- The text without its first and its last character. -/
def withoutEnds (text : List Char) : List Char := text.tail.dropLast

/-- The mark of a parameter that may hold several path segments. -/
def ellipsis : List Char := ['.', '.', '.']

theorem eq_of_isBracketed {text : List Char} (h : isBracketed text = true) :
    text = '[' :: (withoutEnds text ++ [']']) := by
  simp only [isBracketed, Bool.and_eq_true, decide_eq_true_eq, beq_iff_eq] at h
  obtain ⟨⟨hlength, hhead⟩, hlast⟩ := h
  match text with
  | c :: d :: rest =>
    have hc : c = '[' := Option.some.inj hhead
    have hd : (d :: rest).getLast (List.cons_ne_nil d rest) = ']' := by
      rw [List.getLast?_cons_cons, List.getLast?_eq_some_getLast (List.cons_ne_nil d rest)] at hlast
      exact Option.some.inj hlast
    rw [withoutEnds, List.tail_cons, ← hd, List.dropLast_concat_getLast, hc]

/-- The text of a segment of a kind around a name. -/
def Kind.spell : Kind → List Char → List Char
  | literal, name => name
  | param, name => '[' :: (name ++ [']'])
  | optionalParam, name => '[' :: '[' :: (name ++ [']', ']'])
  | catchAll, name => '[' :: (ellipsis ++ name ++ [']'])
  | optionalCatchAll, name => '[' :: '[' :: (ellipsis ++ name ++ [']', ']'])

namespace Parameter

/-- Reads the text inside the outer brackets. -/
def ofChars (inner : List Char) : Parameter :=
  let optional := isBracketed inner
  let core := if optional then withoutEnds inner else inner
  let repeats := ellipsis.isPrefixOf core
  ⟨String.ofList (if repeats then core.drop ellipsis.length else core), optional, repeats⟩

def parse (inner : String) : Parameter := ofChars inner.toList

def kind (parameter : Parameter) : Kind := .ofFlags parameter.optional parameter.repeats

/-- Reading the text inside the brackets loses nothing but the brackets and the ellipsis. -/
theorem spell_ofChars (inner : List Char) :
    (ofChars inner).kind.spell (ofChars inner).name.toList = '[' :: (inner ++ [']']) := by
  have strip (core : List Char) (h : ellipsis.isPrefixOf core = true) :
      ellipsis ++ core.drop ellipsis.length = core := by
    obtain ⟨rest, rfl⟩ := List.isPrefixOf_iff_prefix.mp h
    rw [List.drop_left]
  unfold ofChars kind
  by_cases hb : isBracketed inner = true
  · have hi := congrArg (fun text => '[' :: (text ++ [']'])) (eq_of_isBracketed hb)
    simp only [List.cons_append, List.append_assoc, List.nil_append] at hi
    by_cases he : ellipsis.isPrefixOf (withoutEnds inner) = true
    · have hs := strip _ he
      simp only [hb, he, if_true, Kind.ofFlags, Kind.spell, String.toList_ofList]
      rw [hs, hi]
    · simp only [hb, he, if_true, Kind.ofFlags, Kind.spell, String.toList_ofList,
        Bool.false_eq_true, if_false]
      rw [hi]
  · by_cases he : ellipsis.isPrefixOf inner = true
    · have hs := strip _ he
      simp only [hb, he, if_true, Kind.ofFlags, Kind.spell, String.toList_ofList,
        Bool.false_eq_true, if_false]
      rw [hs]
    · simp only [hb, he, Kind.ofFlags, Kind.spell, String.toList_ofList,
        Bool.false_eq_true, if_false]

end Parameter

namespace Segment

def isDynamic (segment : Segment) : Bool := segment.kind.isDynamic

def optional (segment : Segment) : Bool := segment.kind.optional

def repeats (segment : Segment) : Bool := segment.kind.repeats

def ofChars (text : List Char) : Segment :=
  if isBracketed text then
    let parameter := Parameter.ofChars (withoutEnds text)
    ⟨String.ofList text, parameter.kind, some parameter.name⟩
  else ⟨String.ofList text, .literal, none⟩

def parse (text : String) : Segment := ofChars text.toList

/-- The text that a segment would be read from. -/
def spelling (segment : Segment) : List Char :=
  match segment.name with
  | some name => segment.kind.spell name.toList
  | none => segment.value.toList

/-- Reading keeps the text. -/
@[simp] theorem value_ofChars (text : List Char) : (ofChars text).value = String.ofList text := by
  unfold ofChars
  split <;> rfl

/-- A segment that is read has a name exactly if it is dynamic. -/
theorem isSome_name_ofChars (text : List Char) :
    (ofChars text).name.isSome = (ofChars text).isDynamic := by
  unfold ofChars
  split
  · simp only [Option.isSome_some, isDynamic, Parameter.kind]
    cases (Parameter.ofChars (withoutEnds text)).optional <;>
      cases (Parameter.ofChars (withoutEnds text)).repeats <;> rfl
  · rfl

/-- What a segment says determines the text that it was read from. -/
theorem spelling_ofChars (text : List Char) : (ofChars text).spelling = text := by
  unfold ofChars
  split
  · rename_i h
    simp only [spelling, Parameter.spell_ofChars]
    exact (eq_of_isBracketed h).symm
  · simp only [spelling, String.toList_ofList]

end Segment

end PathRouter
