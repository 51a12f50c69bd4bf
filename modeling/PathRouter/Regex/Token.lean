import PathRouter.Regex

/-!
# Tokens of an expression

The characters with a meaning of their own stand for themselves only after a backslash. Of the
combinations that they form, those listed here are known.
-/
namespace PathRouter.Regex

inductive Token
  | set (s : CharSet)
  /-- `(`, which numbers its group. -/
  | openNumbered
  /-- `(?:`, which does not. -/
  | openPlain
  | close
  /-- `+?` -/
  | few
  /-- `?` -/
  | optional
  | start
  | stop
  deriving DecidableEq, Repr

/-- The characters with a meaning of their own. -/
def special : List Char :=
  ['|', '\\', '{', '}', '(', ')', '[', ']', '^', '$', '+', '*', '?', '.', '-']

/-- The tokens of a text, or nothing if it holds a combination that is not known. -/
def tokens? : List Char → Option (List Token)
  | [] => some []
  | '\\' :: c :: rest => if c ∈ special then (tokens? rest).map (.set (.only c) :: ·) else none
  | '(' :: '?' :: ':' :: rest => (tokens? rest).map (.openPlain :: ·)
  | '(' :: rest => (tokens? rest).map (.openNumbered :: ·)
  | ')' :: rest => (tokens? rest).map (.close :: ·)
  | '[' :: '^' :: '/' :: ']' :: rest => (tokens? rest).map (.set .notSlash :: ·)
  | '.' :: rest => (tokens? rest).map (.set .notNewline :: ·)
  | '+' :: '?' :: rest => (tokens? rest).map (.few :: ·)
  | '?' :: rest => (tokens? rest).map (.optional :: ·)
  | '^' :: rest => (tokens? rest).map (.start :: ·)
  | '$' :: rest => (tokens? rest).map (.stop :: ·)
  | c :: rest => if c ∈ special then none else (tokens? rest).map (.set (.only c) :: ·)

end PathRouter.Regex
