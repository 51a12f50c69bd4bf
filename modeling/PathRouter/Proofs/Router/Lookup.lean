import PathRouter.Proofs.Bindings.Pairs
import PathRouter.Proofs.Matcher.Compilation
import PathRouter.Router

/-!
# Look-ups

All that requests do to the matchers that a router keeps, short of dropping them, is to look up
templates one after another. A template whose text is kept under changes nothing; any other one is
compiled, and its matcher is kept after the others under the next serial number. So the first
template with a text decides on the matcher of that text.
-/
namespace PathRouter

open Bindings (value? keys)

namespace Router

/-- The entry that looking up a template gives. -/
def entryFor (template : Template) (router : Router) : Entry :=
  (value? template.raw router.memo).getD ⟨template.matcher, router.compilations⟩

def lookUp (router : Router) (template : Template) : Router :=
  if router.holds template.raw then router else router.keep template.raw template.matcher

def lookUpAll (templates : List Template) (router : Router) : Router := templates.foldl lookUp router

def recordAll (events : List Record) (router : Router) : Router :=
  { router with log := router.log ++ events }

theorem recordAll_nil (router : Router) : router.recordAll [] = router := by
  rw [recordAll, List.append_nil]

/-- What looking up the templates makes of a router, but for its log: the entries `added` come after
those before, numbered one after another, and each is the matcher of the first template with its
text. -/
structure Grows (templates : List Template) (added : Bindings String Entry)
    (before after : Router) : Prop where
  memo_eq : after.memo = before.memo ++ added
  compilations_eq : after.compilations = before.compilations + added.length
  serials_eq : added.map (·.2.serial) = List.range' before.compilations added.length
  nodup_keys : (keys before.memo).Nodup → (keys after.memo).Nodup
  matcher_eq : ∀ raw, (value? raw after.memo).map (·.matcher) =
    ((value? raw before.memo).map (·.matcher)).or
      ((templates.find? (·.raw == raw)).map Template.matcher)

namespace Grows

theorem refl (router : Router) : Grows [] [] router router := by
  refine ⟨(List.append_nil _).symm, rfl, rfl, id, fun raw => ?_⟩
  rw [List.find?_nil, Option.map_none, Option.or_none]

theorem trans {templates templates' : List Template} {added added' : Bindings String Entry}
    {before mid after : Router} (h : Grows templates added before mid)
    (h' : Grows templates' added' mid after) :
    Grows (templates ++ templates') (added ++ added') before after := by
  refine ⟨?_, ?_, ?_, fun hkeys => h'.nodup_keys (h.nodup_keys hkeys), fun raw => ?_⟩
  · rw [h'.memo_eq, h.memo_eq, List.append_assoc]
  · rw [h'.compilations_eq, h.compilations_eq, List.length_append, Nat.add_assoc]
  · rw [List.map_append, h.serials_eq, h'.serials_eq, h.compilations_eq, List.length_append,
      ← List.range'_append_1]
  · rw [h'.matcher_eq, h.matcher_eq, List.find?_append, Option.or_assoc]
    cases templates.find? (·.raw == raw) <;> rfl

/-- The log does not matter. -/
theorem withLogs {templates : List Template} {added : Bindings String Entry}
    {before after : Router} (h : Grows templates added before after) (log log' : List Record) :
    Grows templates added { before with log } { after with log := log' } :=
  ⟨h.memo_eq, h.compilations_eq, h.serials_eq, h.nodup_keys, h.matcher_eq⟩

end Grows

theorem lookUp_of_holds {router : Router} {template : Template}
    (h : router.holds template.raw = true) : router.lookUp template = router := if_pos h

theorem entryFor_of_value? {router : Router} {template : Template} {entry : Entry}
    (h : value? template.raw router.memo = some entry) : router.entryFor template = entry := by
  rw [entryFor, h, Option.getD_some]

theorem value?_lookUp (template : Template) (router : Router) :
    value? template.raw (router.lookUp template).memo = some (router.entryFor template) := by
  unfold lookUp holds
  cases hentry : value? template.raw router.memo with
  | some entry =>
    rw [entryFor_of_value? hentry]
    exact hentry
  | none =>
    rw [entryFor, hentry]
    exact (Bindings.value?_put _ _ _ _).trans (if_pos rfl)

theorem find?_singleton_of_ne {template : Template} {raw : String} (h : raw ≠ template.raw) :
    [template].find? (·.raw == raw) = none := by
  simp [h.symm]

theorem grows_of_held {template : Template} {router : Router} {entry : Entry}
    (h : value? template.raw router.memo = some entry) : Grows [template] [] router router := by
  refine ⟨(List.append_nil _).symm, rfl, rfl, id, fun raw => ?_⟩
  by_cases hraw : raw = template.raw
  · rw [hraw, h]
    rfl
  · rw [find?_singleton_of_ne hraw, Option.map_none, Option.or_none]

theorem grows_keep {template : Template} {router : Router}
    (h : value? template.raw router.memo = none) :
    Grows [template] [(template.raw, ⟨template.matcher, router.compilations⟩)] router
      (router.keep template.raw template.matcher) := by
  have hkey : template.raw ∉ keys router.memo := Bindings.value?_eq_none_iff.mp h
  refine ⟨put_of_not_mem hkey, rfl, rfl, Bindings.nodup_keys_alter, fun raw => ?_⟩
  rw [keep, Bindings.value?_put]
  by_cases hraw : raw = template.raw
  · rw [hraw, if_pos rfl, h]
    simp
  · rw [if_neg hraw, find?_singleton_of_ne hraw, Option.map_none, Option.or_none]

theorem exists_grows_lookUp (template : Template) (router : Router) :
    ∃ added, Grows [template] added router (router.lookUp template) ∧
      (router.lookUp template).log = router.log ++
        added.map fun pair => .compiled pair.1 pair.2.matcher.expression := by
  unfold lookUp holds
  cases hentry : value? template.raw router.memo with
  | some entry => exact ⟨[], grows_of_held hentry, (List.append_nil _).symm⟩
  | none => exact ⟨_, grows_keep hentry, rfl⟩

theorem exists_grows_lookUpAll (templates : List Template) (router : Router) :
    ∃ added, Grows templates added router (router.lookUpAll templates) ∧
      (router.lookUpAll templates).log = router.log ++
        added.map fun pair => .compiled pair.1 pair.2.matcher.expression := by
  induction templates generalizing router with
  | nil => exact ⟨[], .refl router, (List.append_nil _).symm⟩
  | cons template templates ih =>
    obtain ⟨added, hgrows, hlog⟩ := exists_grows_lookUp template router
    obtain ⟨added', hgrows', hlog'⟩ := ih (router.lookUp template)
    refine ⟨added ++ added', hgrows.trans hgrows', ?_⟩
    rw [List.map_append, ← List.append_assoc, ← hlog]
    exact hlog'

/-- The matcher that a text has once the templates are looked up: the one that is kept, or else that
of the first template with the text. -/
def matcherAmong? (templates : List Template) (raw : String) (router : Router) : Option Matcher :=
  ((value? raw router.memo).map (·.matcher)).or
    ((templates.find? (·.raw == raw)).map Template.matcher)

theorem matcherAmong?_lookUp (template : Template) (rest : List Template) (raw : String)
    (router : Router) :
    (router.lookUp template).matcherAmong? rest raw =
      router.matcherAmong? (template :: rest) raw := by
  obtain ⟨_, hgrows, _⟩ := exists_grows_lookUp template router
  rw [matcherAmong?, hgrows.matcher_eq, matcherAmong?, Option.or_assoc, List.find?_cons,
    List.find?_cons]
  cases template.raw == raw <;> rfl

/-- The template that is looked up first is tried with the matcher that it is given. -/
theorem matcherAmong?_cons_self (template : Template) (rest : List Template) (router : Router) :
    router.matcherAmong? (template :: rest) template.raw =
      some (router.entryFor template).matcher := by
  rw [← matcherAmong?_lookUp, matcherAmong?, value?_lookUp]
  rfl

/-- What was looked up is kept. -/
theorem holds_lookUpAll {template : Template} {templates : List Template}
    (h : template ∈ templates) (router : Router) :
    (router.lookUpAll templates).holds template.raw = true := by
  obtain ⟨_, hgrows, _⟩ := exists_grows_lookUpAll templates router
  have hmatcher := hgrows.matcher_eq template.raw
  have hfind : (templates.find? (·.raw == template.raw)).isSome = true := by
    rw [List.find?_isSome]
    exact ⟨template, h, beq_self_eq_true _⟩
  rw [holds, ← Option.isSome_map, hmatcher, Option.isSome_or, Option.isSome_map, Option.isSome_map,
    hfind, Bool.or_true]

end Router

namespace Routing

theorem run_fetch_eq (template : Template) (router : Router) :
    (fetch template).run router = (.ok (router.entryFor template), router.lookUp template) := by
  unfold Router.entryFor Router.lookUp Router.holds
  cases hentry : value? template.raw router.memo with
  | some entry => exact fetch_of_kept hentry
  | none => exact fetch_of_absent hentry template.compile_eq

end Routing

end PathRouter
