import PathRouter.Proofs.Router.Stability

/-!
# Effects of requests

What a request adds to the matchers that are kept is the work that it had to do, and it records just
that work. A path is tried on templates with parameters in order, so those up to the first one whose
matcher accepts it are compiled, unless they are kept or stand earlier with the same text. A table
compiles all its routes with parameters in canonical order.
-/
namespace PathRouter

open Bindings (value? keys)
open Router (recordAll)
open Template (parse readAll)

namespace Router

/-- The texts that nothing is kept under, each once. -/
def missing (raws : List String) (router : Router) : List String :=
  (raws.filter fun raw => !router.holds raw).eraseDups

theorem holds_keep (raw raw' : String) (matcher : Matcher) (router : Router) :
    (router.keep raw matcher).holds raw' = (raw' == raw || router.holds raw') := by
  rw [holds, keep, Bindings.value?_put]
  by_cases h : raw' = raw
  · simp [h]
  · simp [h, holds]

theorem missing_cons_of_holds {raw : String} {router : Router} (h : router.holds raw = true)
    (raws : List String) : router.missing (raw :: raws) = router.missing raws := by
  rw [missing, List.filter_cons_of_neg (by simp [h]), missing]

theorem missing_cons_of_not_holds {raw : String} {router : Router} (h : router.holds raw = false)
    (matcher : Matcher) (raws : List String) :
    router.missing (raw :: raws) = raw :: (router.keep raw matcher).missing raws := by
  rw [missing, List.filter_cons_of_pos (by simp [h]), List.eraseDups_cons, List.filter_filter,
    missing]
  refine congrArg (fun rest => raw :: List.eraseDups rest) (List.filter_congr fun raw' _ => ?_)
  rw [holds_keep, Bool.not_or]

/-- Looking up templates adds the texts that are missing, in order. -/
theorem keys_lookUpAll (templates : List Template) (router : Router) :
    keys (router.lookUpAll templates).memo =
      keys router.memo ++ router.missing (templates.map (·.raw)) := by
  induction templates generalizing router with
  | nil => exact (List.append_nil _).symm
  | cons template rest ih =>
    have hrest : router.lookUpAll (template :: rest) = (router.lookUp template).lookUpAll rest :=
      rfl
    rw [hrest, ih, List.map_cons]
    -- What is compiled for the first template is not missing for the others.
    by_cases h : router.holds template.raw = true
    · rw [lookUp_of_holds h, missing_cons_of_holds h]
    · have hkey : template.raw ∉ keys router.memo := by
        rw [holds, Option.isSome_iff_ne_none, ne_eq, not_not] at h
        exact Bindings.value?_eq_none_iff.mp h
      have hkeys : keys (router.keep template.raw template.matcher).memo =
          keys router.memo ++ [template.raw] := by
        rw [keep, put_of_not_mem hkey, keys, List.map_append]
        rfl
      rw [missing_cons_of_not_holds (eq_false_of_ne_true h) template.matcher, lookUp, if_neg h,
        hkeys, List.append_assoc]
      rfl

/-- Repeated texts are missing once. -/
theorem missing_eraseDups (raws : List String) (router : Router) :
    router.missing raws.eraseDups = router.missing raws := by
  rw [missing, ← eraseDups_filter, eraseDups_of_nodup (nodup_eraseDups _), missing]

/-- The templates that a path is tried on: none if it is a template without parameters, or else
those with parameters up to the first one whose matcher accepts it, or all of them. -/
def attempts (path : String) (templates : List Template) (router : Router) : List Template :=
  if templates.any fun template => !template.isDynamic && template.raw == path then []
  else
    let dynamic := templates.filter Template.isDynamic
    dynamic.take (dynamic.findIdx (router.admits path dynamic) + 1)

theorem tried_eq_take (path : String) (templates : List Template) (router : Router) :
    Template.tried path templates router =
      templates.take (templates.findIdx (router.admits path templates) + 1) := by
  induction templates generalizing router with
  | nil => rfl
  | cons template rest ih =>
    rw [Template.tried, List.findIdx_cons, admits_cons_self, List.take_succ_cons]
    cases (router.entryFor template).matcher.accepts path with
    | true => rfl
    | false => rw [if_neg Bool.false_ne_true, ih, admits_lookUp, cond_false]

theorem sought_eq_attempts (path : String) (templates : List Template) (router : Router) :
    Template.sought path templates router = router.attempts path templates := by
  rw [Template.sought, attempts, tried_eq_take]

theorem chosen?_eq_none_iff {path : String} {templates : List Template} {router : Router} :
    router.chosen? path templates = none ↔
      (∀ template ∈ templates, template.isDynamic = false → template.raw ≠ path) ∧
      ∀ template ∈ templates.filter Template.isDynamic,
        router.admits path (templates.filter Template.isDynamic) template = false := by
  rw [chosen?, Option.or_eq_none_iff, List.find?_eq_none, List.find?_eq_none]
  simp

/-- Templates that come later do not change the matcher of a text that an earlier one has. -/
theorem matcherAmong?_take {template : Template} {templates : List Template} {n : Nat}
    (h : template ∈ templates.take n) (router : Router) :
    router.matcherAmong? (templates.take n) template.raw =
      router.matcherAmong? templates template.raw := by
  have hfind : ((templates.take n).find? (·.raw == template.raw)).isSome = true := by
    rw [List.find?_isSome]
    exact ⟨template, h, beq_self_eq_true _⟩
  obtain ⟨first, hfirst⟩ := Option.isSome_iff_exists.mp hfind
  have hall : templates.find? (·.raw == template.raw) = some first := by
    rw [← List.take_append_drop n templates, List.find?_append, hfirst, Option.some_or]
  rw [matcherAmong?, matcherAmong?, hfirst, hall]

/-- Each template is tried with the matcher that is kept under its text from then on. -/
theorem matcher_lookUpAll_attempts {path : String} {template : Template}
    {templates : List Template} {router : Router}
    (h : template ∈ router.attempts path templates) :
    (value? template.raw (router.lookUpAll (router.attempts path templates)).memo).map
        (·.matcher) =
      router.matcherAmong? (templates.filter Template.isDynamic) template.raw := by
  obtain ⟨_, hgrows, _⟩ := exists_grows_lookUpAll (router.attempts path templates) router
  refine (hgrows.matcher_eq template.raw).trans ?_
  unfold attempts at h ⊢
  split at h
  · cases h
  · rename_i hany
    rw [if_neg hany]
    exact matcherAmong?_take h router

end Router

/-- Whether a reply tells that no template serves a path. -/
def Reply.isNothing : Reply → Bool
  | route none | template none | routeMatch none => true
  | _ => false

/-- Whether no template was found for a path. A fault is not such an answer. -/
def Outcome.foundNothing (outcome : Outcome) : Bool :=
  outcome.reply.toOption.any Reply.isNothing

namespace Request

/-- The path that a request asks about and the templates that it is to be tried on, if these can be
read. -/
def query? : Request → Option (String × Except Fault (List Template))
  | select path templates => some (path, .ok templates)
  | resolve path routes settings | matchRoute path routes settings =>
    some (path, readAll settings routes)
  | fetch _ | clear | holds _ | buildTable _ _ | sortRoutes _ _ => none

/-- Whether the request adds entries under just these texts to those that are kept, in this order,
and records the compilation of each of them and after that the events. -/
def Compiles (raws : List String) (events : List Record) (request : Request) (router : Router) :
    Prop :=
  ∃ added : Bindings String Entry, keys added = raws ∧
    (request.step router).2.memo = router.memo ++ added ∧
    (request.step router).1.log =
      (added.map fun pair => .compiled pair.1 pair.2.matcher.expression) ++ events

section Step

variable {request : Request} {router after : Router} {reply : Except Fault Reply}

theorem step_of_run (h : request.serve.run { router with log := [] } = (reply, after)) :
    request.step router = (⟨reply, after.log, after.memo.length⟩, after) := by
  unfold step
  rw [h]
  rfl

/-- A request that looks up templates adds those that are missing. -/
theorem compiles_of_run {templates : List Template} {events : List Record}
    (h : request.serve.run { router with log := [] } =
      (reply, recordAll events (Router.lookUpAll templates { router with log := [] }))) :
    request.Compiles (router.missing (templates.map (·.raw))) events router := by
  obtain ⟨added, hgrows, hlog⟩ :=
    Router.exists_grows_lookUpAll templates { router with log := [] }
  -- Both give the texts that are kept in the end, so those that were kept before cancel out.
  have hkeys := Router.keys_lookUpAll templates { router with log := [] }
  rw [hgrows.memo_eq, keys, List.map_append] at hkeys
  refine ⟨added, List.append_cancel_left hkeys, ?_, ?_⟩
  · rw [step_of_run h]
    exact hgrows.memo_eq
  · rw [step_of_run h, recordAll, hlog, List.nil_append]

theorem compiles_nil_of_run {events : List Record}
    (h : request.serve.run { router with log := [] } =
      (reply, recordAll events { router with log := [] })) :
    request.Compiles [] events router :=
  @compiles_of_run request router reply [] events h

/-- A request that asks about a path looks up the templates that the path is tried on. -/
theorem run_serve_of_query {path : String} {templates : List Template}
    (h : request.query? = some (path, .ok templates)) (router : Router) :
    ∃ reply, request.serve.run router =
        (reply, recordAll (router.unserved path templates)
          (router.lookUpAll (Template.sought path templates router))) ∧
      (reply.toOption.any Reply.isNothing = true ↔ router.chosen? path templates = none) := by
  cases request with
  | select path' templates' =>
    cases h
    refine ⟨.ok (.template (router.chosen? path templates)), ?_, ?_⟩
    · rw [serve, Routing.run_map, Routing.run_select]
      rfl
    · cases router.chosen? path templates <;> simp [Except.toOption, Reply.isNothing]
  | resolve path' routes settings =>
    obtain ⟨rfl, hread⟩ := Prod.mk.inj (Option.some.inj h)
    refine ⟨.ok (.route ((router.chosen? path' templates).map (·.raw))), ?_, ?_⟩
    · rw [serve, Routing.run_map, Routing.run_resolve path' hread]
      rfl
    · cases router.chosen? path' templates <;> simp [Except.toOption, Reply.isNothing]
  | matchRoute path' routes settings =>
    obtain ⟨rfl, hread⟩ := Prod.mk.inj (Option.some.inj h)
    obtain ⟨result, hrun, hresult⟩ := Routing.run_matchRoute path' hread router
    refine ⟨result.map .routeMatch, ?_, ?_⟩
    · rw [serve, Routing.run_map, hrun]
    · rw [← hresult]
      cases result with
      | error fault => simp [Except.map, Except.toOption]
      | ok match? => cases match? <;> simp [Except.map, Except.toOption, Reply.isNothing]
  | _ => cases h

/-- A request whose routes are refused leaves the router as it was. -/
theorem run_serve_of_refused_query {path : String} {fault : Fault}
    (h : request.query? = some (path, .error fault)) (router : Router) :
    request.serve.run router = (.error fault, router) := by
  cases request with
  | select path' templates' => cases h
  | resolve path' routes settings =>
    obtain ⟨rfl, hread⟩ := Prod.mk.inj (Option.some.inj h)
    rw [serve, Routing.run_map, Routing.resolve,
      Routing.run_bind_of_error (Routing.run_readAll_of_refused hread router)]
    rfl
  | matchRoute path' routes settings =>
    obtain ⟨rfl, hread⟩ := Prod.mk.inj (Option.some.inj h)
    rw [serve, Routing.run_map, Routing.matchRoute,
      Routing.run_bind_of_error (Routing.run_readAll_of_refused hread router)]
    rfl
  | _ => cases h

/-- A table whose routes can be read is built, and looks up its routes with parameters. -/
theorem run_serve_buildTable {routes : List String} {settings : Settings}
    {templates : List Template} (hread : readAll settings routes = .ok templates)
    (router : Router) :
    (buildTable routes settings).serve.run router =
      (.ok (.routes (canonicalOrder (routes.map parse))),
        router.lookUpAll (Table.templates routes)) := by
  obtain ⟨matchers, hrun, _⟩ := Table.exists_run_build hread router
  rw [serve, Routing.run_map, hrun]
  rfl

theorem exists_readAll_of_reply {routes : List String} {settings : Settings} {answer : Reply}
    (h : ((buildTable routes settings).step router).1.reply = .ok answer) :
    ∃ templates, readAll settings routes = .ok templates := by
  cases hread : readAll settings routes with
  | ok templates => exact ⟨templates, rfl⟩
  | error fault =>
    have hrun : (buildTable routes settings).serve.run { router with log := [] } =
        (.error fault, { router with log := [] }) := by
      rw [serve, Routing.run_map, Table.run_build_of_refused hread]
      rfl
    rw [step_of_run hrun] at h
    cases h

theorem compiles_sortRoutes (routes : List String) (settings : Settings) (router : Router) :
    (sortRoutes routes settings).Compiles []
      (match readAll settings routes with
        | .ok _ => [.ordered routes.length]
        | .error _ => []) router := by
  cases hread : readAll settings routes with
  | error fault =>
    have hrun : (sortRoutes routes settings).serve.run { router with log := [] } =
        (.error fault, { router with log := [] }) := by
      rw [serve, Routing.run_map, Routing.run_sortRoutes_of_refused hread]
      rfl
    exact compiles_nil_of_run hrun
  | ok templates =>
    obtain ⟨rfl, _⟩ := Template.readAll_eq_ok_iff.mp hread
    have hlength := (pairwise_canonicalOrder_parse routes).1.length_eq
    have hrun : (sortRoutes routes settings).serve.run { router with log := [] } =
        (.ok (.routes (canonicalOrder (routes.map parse))),
          recordAll [.ordered routes.length] { router with log := [] }) := by
      rw [serve, Routing.run_map, Routing.run_sortRoutes hread, hlength]
      rfl
    exact compiles_nil_of_run hrun

end Step

end Request

/-- Whatever the router keeps, a request adds to it what it had to compile, and nothing else. A
request about a path compiles the missing ones among the templates that the path is tried on, in
that order; each of them is tried with the matcher that is kept under its text from then on. It
records that no template was found just if that is the answer, which means that no template without
parameters is the path and that no matcher accepts it. If its routes are refused, nothing happens. A
table that is built compiles its missing routes with parameters in canonical order, and sorting
routes compiles nothing. -/
theorem effects_are_the_work_done (router : Router) :
    (∀ (request : Request) (path : String) (templates : List Template),
      request.query? = some (path, .ok templates) →
      request.Compiles (router.missing ((router.attempts path templates).map (·.raw)))
        (if (request.step router).1.foundNothing then [.noMatch path templates.length] else [])
        router ∧
      (∀ template ∈ router.attempts path templates,
        (value? template.raw (request.step router).2.memo).map (·.matcher) =
          router.matcherAmong? (templates.filter Template.isDynamic) template.raw) ∧
      ((request.step router).1.foundNothing = true ↔
        (∀ template ∈ templates, template.isDynamic = false → template.raw ≠ path) ∧
        ∀ template ∈ templates.filter Template.isDynamic,
          router.admits path (templates.filter Template.isDynamic) template = false)) ∧
    (∀ (request : Request) (path : String) (fault : Fault),
      request.query? = some (path, .error fault) →
      request.Compiles [] [] router ∧ (request.step router).1.reply = .error fault) ∧
    (∀ (routes : List String) (settings : Settings) (answer : Reply),
      ((Request.buildTable routes settings).step router).1.reply = .ok answer →
      (Request.buildTable routes settings).Compiles
        (router.missing ((canonicalOrder (routes.map parse)).filter fun route =>
          (parse route).isDynamic)) [] router) ∧
    ∀ (routes : List String) (settings : Settings),
      (Request.sortRoutes routes settings).Compiles []
        (match readAll settings routes with
          | .ok _ => [.ordered routes.length]
          | .error _ => []) router := by
  refine ⟨fun request path templates h => ?_, fun request path fault h => ?_,
    fun routes settings answer h => ?_,
    fun routes settings => Request.compiles_sortRoutes routes settings router⟩
  · obtain ⟨reply, hrun, hreply⟩ := Request.run_serve_of_query h { router with log := [] }
    have hnothing : (request.step router).1.foundNothing = true ↔
        router.chosen? path templates = none := by
      rw [Request.step_of_run hrun]
      exact hreply
    have hevents : router.unserved path templates =
        if (request.step router).1.foundNothing then [.noMatch path templates.length] else [] :=
      if_congr (Option.isNone_iff_eq_none.trans hnothing.symm) rfl rfl
    rw [Router.sought_eq_attempts] at hrun
    refine ⟨hevents ▸ Request.compiles_of_run hrun, fun template htemplate => ?_,
      hnothing.trans Router.chosen?_eq_none_iff⟩
    rw [Request.step_of_run hrun]
    exact Router.matcher_lookUpAll_attempts htemplate
  · have hrun := Request.run_serve_of_refused_query h { router with log := [] }
    exact ⟨Request.compiles_nil_of_run hrun, by rw [Request.step_of_run hrun]⟩
  · obtain ⟨templates, hread⟩ := Request.exists_readAll_of_reply h
    have hrun := Request.run_serve_buildTable hread { router with log := [] }
    rw [← Router.recordAll_nil (Router.lookUpAll _ _)] at hrun
    rw [← Router.missing_eraseDups, eraseDups_filter, ← Table.map_raw_templates]
    exact Request.compiles_of_run hrun

/-- A hand-built template has taken the place of a route, and its matcher rejects the path. So the
next route is compiled for the path, but the first one is not. A table compiles a repeated route
once. -/
theorem foreign_matcher_leaves_next_route_to_compile :
    ∃ router, router = Router.empty.after [.fetch ⟨"/[id]", [⟨"x", .literal, none⟩]⟩] ∧
      (Request.resolve "/7" ["/[id]", "/[slug]", "/[slug]", "/[...rest]"] .standard).Compiles
        ["/[slug]"] [] router ∧
      (Request.resolve "/7" ["/[id]", "/[]"] ⟨true, true⟩).Compiles [] [] router ∧
      (Request.buildTable ["/[slug]", "/[slug]"] .standard).Compiles ["/[slug]"] [] router := by
  obtain ⟨hquery, hrefused, hbuild, _⟩ := effects_are_the_work_done
    (Router.empty.after [.fetch ⟨"/[id]", [⟨"x", .literal, none⟩]⟩])
  refine ⟨_, rfl, ?_, ?_, ?_⟩
  · exact (hquery _ "/7" (["/[id]", "/[slug]", "/[slug]", "/[...rest]"].map parse) rfl).1
  · exact (hrefused _ "/7" _ rfl).1
  · have hread : readAll .standard ["/[slug]", "/[slug]"] =
        .ok (["/[slug]", "/[slug]"].map parse) := rfl
    have horder : canonicalOrder (["/[slug]", "/[slug]"].map parse) = ["/[slug]", "/[slug]"] :=
      List.perm_replicate.mp (pairwise_canonicalOrder_parse (List.replicate 2 "/[slug]")).1
    have hcompiles := hbuild _ _ _ (congrArg (·.1.reply)
      (Request.step_of_run (Request.run_serve_buildTable hread _)))
    rw [horder] at hcompiles
    exact hcompiles

end PathRouter
