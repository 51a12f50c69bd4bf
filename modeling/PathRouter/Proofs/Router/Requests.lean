import PathRouter.Proofs.Dispatch.Sorting
import PathRouter.Proofs.Router.Lookup
import PathRouter.Proofs.Table.Building

/-!
# What requests look up

Each request but the one that drops the matchers looks up some templates and records something
besides. Which templates, depends on the matchers that are kept: a path is tried on templates until
one of their matchers accepts it, and a matcher may come from another template with the same text.
-/
namespace PathRouter

open Router (recordAll)
open Template (parse readAll)

/-- The text of the template that a record tells to have been compiled. -/
def Record.compiledRaw? : Record → Option String
  | compiled raw _ => some raw
  | noMatch _ _ | ordered _ => none

namespace Template

/-- The templates that are tried on a path, up to the first one whose matcher accepts it. -/
def tried (path : String) : List Template → Router → List Template
  | [], _ => []
  | template :: rest, router =>
    template :: if (router.entryFor template).matcher.accepts path then []
      else tried path rest (router.lookUp template)

/-- The templates that are looked up to find the one that serves a path. -/
def sought (path : String) (templates : List Template) (router : Router) : List Template :=
  if templates.any fun template => !template.isDynamic && template.raw == path then []
  else tried path (templates.filter isDynamic) router

end Template

namespace Router

/-- Whether the matcher with which a template is tried accepts the path, when the templates are
looked up in order. -/
def admits (path : String) (templates : List Template) (router : Router) (template : Template) :
    Bool :=
  (router.matcherAmong? templates template.raw).any (·.accepts path)

/-- The template that serves a path, given the matchers that are kept. -/
def chosen? (path : String) (templates : List Template) (router : Router) : Option Template :=
  (templates.find? fun template => !template.isDynamic && template.raw == path).or
    ((templates.filter Template.isDynamic).find?
      (router.admits path (templates.filter Template.isDynamic)))

/-- What is recorded when no template serves the path. -/
def unserved (path : String) (templates : List Template) (router : Router) : List Record :=
  if (router.chosen? path templates).isNone then [.noMatch path templates.length] else []

theorem compiledRaw?_of_mem_unserved {path : String} {templates : List Template} {router : Router}
    {event : Record} (h : event ∈ router.unserved path templates) : event.compiledRaw? = none := by
  unfold unserved at h
  split at h
  · rw [List.mem_singleton.mp h]
    rfl
  · cases h

section Tried

variable {path : String} {template chosen : Template} {templates rest : List Template}
  {router : Router}

theorem admits_cons_self : router.admits path (template :: rest) template =
    (router.entryFor template).matcher.accepts path := by
  rw [admits, matcherAmong?_cons_self]
  rfl

theorem admits_lookUp :
    (router.lookUp template).admits path rest = router.admits path (template :: rest) := by
  funext other
  rw [admits, admits, matcherAmong?_lookUp]

theorem mem_tried_of_find? (h : templates.find? (router.admits path templates) = some chosen) :
    chosen ∈ Template.tried path templates router := by
  induction templates generalizing router with
  | nil => cases h
  | cons template rest ih =>
    rw [List.find?_cons, admits_cons_self] at h
    rw [Template.tried]
    cases haccepts : (router.entryFor template).matcher.accepts path with
    | true =>
      rw [haccepts] at h
      rw [← Option.some.inj h]
      exact List.mem_cons_self
    | false =>
      rw [haccepts, ← admits_lookUp] at h
      exact List.mem_cons_of_mem _ (ih h)

theorem mem_sought_of_chosen? (h : router.chosen? path templates = some chosen)
    (hdynamic : chosen.isDynamic = true) : chosen ∈ Template.sought path templates router := by
  rcases Option.or_eq_some_iff.mp h with hfixed | ⟨hnone, hfound⟩
  · have hserves := List.find?_some hfixed
    simp [hdynamic] at hserves
  · have hany : templates.any (fun template => !template.isDynamic && template.raw == path) =
        false := by
      rw [List.any_eq_false]
      exact List.find?_eq_none.mp hnone
    rw [Template.sought, if_neg (ne_true_of_eq_false hany)]
    exact mem_tried_of_find? hfound

end Tried

end Router

namespace Routing

open Template (tried sought)

theorem run_firstAccepting (path : String) (templates : List Template) (router : Router) :
    (firstAccepting path templates).run router =
      (.ok (templates.find? (router.admits path templates)),
        router.lookUpAll (tried path templates router)) := by
  induction templates generalizing router with
  | nil => rfl
  | cons template rest ih =>
    rw [firstAccepting, run_bind_of_ok (run_fetch_eq template router), tried, List.find?_cons,
      Router.admits_cons_self]
    cases (router.entryFor template).matcher.accepts path with
    | true => rfl
    | false =>
      rw [← Router.admits_lookUp]
      exact ih (router.lookUp template)

theorem run_select (path : String) (templates : List Template) (router : Router) :
    (select path templates).run router =
      (.ok (router.chosen? path templates),
        recordAll (router.unserved path templates)
          (router.lookUpAll (sought path templates router))) := by
  unfold select sought Router.unserved Router.chosen?
  rw [← List.isSome_find?]
  cases templates.find? fun template => !template.isDynamic && template.raw == path with
  | some template =>
    rw [Option.isSome_some, if_pos rfl, Option.some_or, Option.isNone_some,
      if_neg Bool.false_ne_true, Router.recordAll_nil]
    rfl
  | none =>
    rw [Option.isSome_none, if_neg Bool.false_ne_true, Option.none_or]
    simp only
    rw [run_bind_of_ok (run_firstAccepting path (templates.filter Template.isDynamic) router)]
    cases (templates.filter Template.isDynamic).find?
      (router.admits path (templates.filter Template.isDynamic)) with
    | some template =>
      rw [Option.isNone_some, if_neg Bool.false_ne_true, Router.recordAll_nil]
      rfl
    | none => rfl

theorem run_resolve (path : String) {routes : List String} {settings : Settings}
    {templates : List Template} (h : readAll settings routes = .ok templates) (router : Router) :
    (resolve path routes settings).run router =
      (.ok ((router.chosen? path templates).map (·.raw)),
        recordAll (router.unserved path templates)
          (router.lookUpAll (sought path templates router))) := by
  unfold resolve
  rw [run_bind_of_ok (run_readAll h router), run_map, run_select]
  rfl

/-- The template that serves a path is kept when its parameters are read. -/
theorem run_matchRoute (path : String) {routes : List String} {settings : Settings}
    {templates : List Template} (h : readAll settings routes = .ok templates) (router : Router) :
    ∃ result, (matchRoute path routes settings).run router =
        (result, recordAll (router.unserved path templates)
          (router.lookUpAll (sought path templates router))) ∧
      (result = .ok none ↔ router.chosen? path templates = none) := by
  have hrun := run_select path templates router
  unfold matchRoute Router.unserved at *
  rw [run_bind_of_ok (run_readAll h router), run_bind_of_ok hrun]
  cases hchosen : router.chosen? path templates with
  | none => exact ⟨.ok none, rfl, iff_of_true rfl rfl⟩
  | some template =>
    rw [Option.isNone_some, if_neg Bool.false_ne_true, Router.recordAll_nil]
    by_cases hdynamic : template.isDynamic = true
    · have hheld := Router.holds_lookUpAll (Router.mem_sought_of_chosen? hchosen hdynamic) router
      have hfetch := run_fetch_eq template (router.lookUpAll (sought path templates router))
      rw [Router.lookUp_of_holds hheld] at hfetch
      simp only
      rw [if_pos hdynamic, run_bind_of_ok hfetch]
      generalize Matcher.extract _ settings.decodeParams path = params?
      cases params? with
      | error fault => exact ⟨.error fault, rfl, iff_of_false nofun nofun⟩
      | ok params? => exact ⟨.ok (some _), rfl, iff_of_false nofun nofun⟩
    · simp only
      rw [if_neg hdynamic]
      exact ⟨.ok (some _), rfl, iff_of_false nofun nofun⟩

/-- Each template is given the matcher that its text has when all of them are looked up. -/
theorem run_mapM_fetch_eq (templates : List Template) (router : Router) :
    ∃ entries, (templates.mapM fetch).run router = (.ok entries, router.lookUpAll templates) ∧
      entries.map (fun entry => some entry.matcher) =
        templates.map fun template => router.matcherAmong? templates template.raw := by
  induction templates generalizing router with
  | nil => exact ⟨[], rfl, rfl⟩
  | cons template rest ih =>
    obtain ⟨entries, hrun, hmatchers⟩ := ih (router.lookUp template)
    refine ⟨router.entryFor template :: entries, ?_, ?_⟩
    · rw [List.mapM_cons, run_bind_of_ok (run_fetch_eq template router), run_bind_of_ok hrun]
      rfl
    · simp only [Router.matcherAmong?_lookUp] at hmatchers
      rw [List.map_cons, List.map_cons, Router.matcherAmong?_cons_self, hmatchers]

/-- Whether the computation looks up these templates, one after another, and records nothing that
is compiled but for them. -/
def Looks {α : Type} (templates : List Template) (computation : Routing α) (router : Router) :
    Prop :=
  ∃ result events, computation.run router =
      (result, recordAll events (router.lookUpAll templates)) ∧
    ∀ event ∈ events, event.compiledRaw? = none

section Looks

variable {α β : Type} {router : Router}

theorem Looks.of_run {templates : List Template} {computation : Routing α}
    {result : Except Fault α} (h : computation.run router = (result, router.lookUpAll templates)) :
    Looks templates computation router := by
  refine ⟨result, [], ?_, nofun⟩
  rw [h, Router.recordAll_nil]

theorem Looks.map {templates : List Template} {computation : Routing α} (f : α → β)
    (h : Looks templates computation router) :
    Looks templates (do return f (← computation)) router := by
  obtain ⟨result, events, hrun, hevents⟩ := h
  refine ⟨result.map f, events, ?_, hevents⟩
  rw [run_map, hrun]

theorem looks_select (path : String) (templates : List Template) (router : Router) :
    Looks (sought path templates router) (select path templates) router :=
  ⟨_, _, run_select path templates router, fun _ => Router.compiledRaw?_of_mem_unserved⟩

theorem looks_resolve (path : String) (routes : List String) (settings : Settings)
    (router : Router) :
    Looks (match readAll settings routes with
      | .ok templates => sought path templates router
      | .error _ => []) (resolve path routes settings) router := by
  cases hread : readAll settings routes with
  | error fault => exact Looks.of_run (run_bind_of_error (run_readAll_of_refused hread router))
  | ok templates =>
    exact ⟨_, _, run_resolve path hread router, fun _ => Router.compiledRaw?_of_mem_unserved⟩

theorem looks_matchRoute (path : String) (routes : List String) (settings : Settings)
    (router : Router) :
    Looks (match readAll settings routes with
      | .ok templates => sought path templates router
      | .error _ => []) (matchRoute path routes settings) router := by
  cases hread : readAll settings routes with
  | error fault => exact Looks.of_run (run_bind_of_error (run_readAll_of_refused hread router))
  | ok templates =>
    obtain ⟨result, hrun, _⟩ := run_matchRoute path hread router
    exact ⟨result, _, hrun, fun _ => Router.compiledRaw?_of_mem_unserved⟩

theorem looks_sortRoutes (routes : List String) (settings : Settings) (router : Router) :
    Looks [] (sortRoutes routes settings) router := by
  cases hread : readAll settings routes with
  | error fault => exact Looks.of_run (run_sortRoutes_of_refused hread router)
  | ok templates =>
    refine ⟨_, [_], run_sortRoutes hread router, fun event hevent => ?_⟩
    rw [List.mem_singleton.mp hevent]
    rfl

end Looks

end Routing

/-- The templates that a table of the routes looks up: those with parameters, each once and in
canonical order. -/
def Table.templates (routes : List String) : List Template :=
  ((canonicalOrder (routes.map parse)).eraseDups.map parse).filter Template.isDynamic

theorem Table.map_raw_templates (routes : List String) :
    (templates routes).map (·.raw) =
      (canonicalOrder (routes.map parse)).eraseDups.filter fun route =>
        (parse route).isDynamic := by
  rw [templates, List.filter_map, List.map_map]
  exact List.map_id _

/-- A table whose routes can be read is built, whatever the router keeps. -/
theorem Table.exists_run_build {routes : List String} {settings : Settings}
    {read : List Template} (h : readAll settings routes = .ok read) (router : Router) :
    ∃ matchers, (build routes settings).run router =
        (.ok { ofRoutes settings routes with dynamic := matchers },
          router.lookUpAll (templates routes)) ∧
      matchers.map some = (templates routes).map fun template =>
        router.matcherAmong? (templates routes) template.raw := by
  obtain ⟨rfl, _⟩ := Template.readAll_eq_ok_iff.mp h
  obtain ⟨entries, hfetched, hmatchers⟩ := Routing.run_mapM_fetch_eq (templates routes) router
  refine ⟨entries.map (·.matcher), run_build_of_fetched h hfetched, ?_⟩
  rw [List.map_map]
  exact hmatchers

theorem Table.looks_build (routes : List String) (settings : Settings) (router : Router) :
    Routing.Looks (match readAll settings routes with
      | .ok _ => templates routes
      | .error _ => []) (build routes settings) router := by
  cases hread : readAll settings routes with
  | error fault => exact Routing.Looks.of_run (run_build_of_refused hread router)
  | ok read =>
    obtain ⟨matchers, hrun, _⟩ := exists_run_build hread router
    exact Routing.Looks.of_run hrun

namespace Request

open Routing (Looks)

/-- The templates that a request looks up, in order. The one that is found for a path is looked up
once more for its parameters; it is kept by then. -/
def lookups : Request → Router → List Template
  | fetch template, _ => [template]
  | select path templates, router => Template.sought path templates router
  | resolve path routes settings, router | matchRoute path routes settings, router =>
    match readAll settings routes with
    | .ok templates => Template.sought path templates router
    | .error _ => []
  | buildTable routes settings, _ =>
    match readAll settings routes with
    | .ok _ => Table.templates routes
    | .error _ => []
  | clear, _ | holds _, _ | sortRoutes _ _, _ => []

theorem looks_serve {request : Request} (h : request ≠ clear) (router : Router) :
    Looks (request.lookups router) request.serve router := by
  cases request with
  | fetch template => exact (Looks.of_run (Routing.run_fetch_eq template router)).map _
  | clear => exact absurd rfl h
  | holds raw => exact Looks.of_run rfl
  | buildTable routes settings => exact (Table.looks_build routes settings router).map _
  | resolve path routes settings => exact (Routing.looks_resolve path routes settings router).map _
  | select path templates => exact (Routing.looks_select path templates router).map _
  | matchRoute path routes settings =>
    exact (Routing.looks_matchRoute path routes settings router).map _
  | sortRoutes routes settings => exact (Routing.looks_sortRoutes routes settings router).map _

end Request

end PathRouter
