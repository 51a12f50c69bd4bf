import PathRouter.Bindings
import PathRouter.Text.Percent

/-!
# Parameters of a path

What a template finds in a path: for each name one text, or for a catch-all the texts between the
slashes.
-/
namespace PathRouter

inductive Value
  | single (text : String)
  | several (texts : List String)
  deriving DecidableEq, Repr

abbrev Params := Bindings String Value

/-- The value of a captured text. The texts of a catch-all are cut apart before they are decoded,
so an encoded slash separates nothing. -/
def Value.ofCapture (repeats decode : Bool) (text : String) : Value :=
  let read := if decode then Text.Percent.decode else id
  if repeats then .several ((text.toList.splitOn '/').map fun part => read (String.ofList part))
  else .single (read text)

/-- A path's template and what it found in the path. -/
structure RouteMatch where
  route : String
  params : Params
  deriving Repr

/-- Two matches are equal if they name the same route and bind the same names to the same values,
in whatever order. -/
def RouteMatch.agrees (a b : RouteMatch) : Bool :=
  a.route == b.route && a.params.length == b.params.length &&
    a.params.all fun pair => Bindings.value? pair.1 b.params == some pair.2

/-- How many different matches there are among two. -/
def RouteMatch.countDistinct (a b : RouteMatch) : Nat := if a.agrees b then 1 else 2

end PathRouter
