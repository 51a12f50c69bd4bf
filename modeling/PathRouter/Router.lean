import PathRouter.Matcher

/-!
# The state of a router

Matchers are compiled once and kept by the text of their template until they are dropped. A
matcher found by its text is used as it is, whatever template asks for it. What is compiled and
which paths find no template is recorded.
-/
namespace PathRouter

open Text (quoted)

/-- What a router records. -/
inductive Record
  | compiled (raw expression : String)
  | noMatch (path : String) (candidates : Nat)
  | ordered (count : Nat)
  deriving DecidableEq, Repr

def Record.message : Record → String
  | compiled raw expression => "Compiled " ++ quoted raw ++ " -> " ++ expression
  | noMatch path candidates =>
    "No route matches " ++ quoted path ++ " (" ++ toString candidates ++ " candidates)"
  | ordered count => "Ordered " ++ toString count ++ " routes"

/-- A matcher that is kept. Serial numbers tell apart matchers compiled at different times. -/
structure Entry where
  matcher : Matcher
  serial : Nat

structure Router where
  memo : Bindings String Entry
  /-- How many matchers have been compiled, those dropped since included. -/
  compilations : Nat
  /-- The records, the oldest one first. -/
  log : List Record

namespace Router

def empty : Router := ⟨[], 0, []⟩

def holds (raw : String) (router : Router) : Bool := (Bindings.value? raw router.memo).isSome

def record (event : Record) (router : Router) : Router :=
  { router with log := router.log ++ [event] }

/-- Keeps a matcher that has just been compiled. -/
def keep (raw : String) (matcher : Matcher) (router : Router) : Router :=
  { memo := Bindings.put raw ⟨matcher, router.compilations⟩ router.memo
    compilations := router.compilations + 1
    log := router.log ++ [.compiled raw matcher.expression] }

/-- Drops every matcher. -/
def clear (router : Router) : Router := { router with memo := [] }

end Router

/-- A computation that uses a router and may end with a fault. What it did to the router before
the fault stays. -/
abbrev Routing := ExceptT Fault (StateM Router)

namespace Routing

def record (event : Record) : Routing Unit := modify (·.record event)

/-- The matcher kept under the text of a template, compiled from the template if there is none. -/
def fetch (template : Template) : Routing Entry := do
  match Bindings.value? template.raw (← get).memo with
  | some entry => return entry
  | none =>
    let matcher ← template.compile
    let serial := (← get).compilations
    modify (·.keep template.raw matcher)
    return ⟨matcher, serial⟩

/-- A matcher that is kept is found, and nothing else happens. -/
theorem fetch_of_kept {template : Template} {router : Router} {entry : Entry}
    (h : Bindings.value? template.raw router.memo = some entry) :
    (fetch template).run router = (.ok entry, router) := by
  simp only [fetch, bind, ExceptT.bind, ExceptT.mk, ExceptT.run, StateT.bind, ExceptT.bindCont,
    get, getThe, MonadStateOf.get, liftM, monadLift, MonadLift.monadLift, ExceptT.lift,
    StateT.get, Functor.map, StateT.map, pure, ExceptT.pure]
  simp only [h]
  rfl

/-- A matcher that is not kept is compiled and kept. -/
theorem fetch_of_absent {template : Template} {router : Router} {matcher : Matcher}
    (h : Bindings.value? template.raw router.memo = none) (hc : template.compile = .ok matcher) :
    (fetch template).run router =
      (.ok ⟨matcher, router.compilations⟩, router.keep template.raw matcher) := by
  simp only [fetch, bind, ExceptT.bind, ExceptT.mk, ExceptT.run, StateT.bind, ExceptT.bindCont,
    get, getThe, MonadStateOf.get, liftM, monadLift, MonadLift.monadLift, ExceptT.lift,
    StateT.get, Functor.map, StateT.map, pure, ExceptT.pure]
  simp only [h, hc]
  rfl

end Routing

end PathRouter
