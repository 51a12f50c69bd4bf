import PathRouter.Proofs.Matcher.Parameters
import PathRouter.Proofs.Router.Faithfulness

/-!
# Selection without a router

Which template serves a path, and with which parameters, is determined by the templates. A faithful
router finds just that, whatever matchers it keeps. Templates that were read never lack a parameter
of a path that they serve.
-/
namespace PathRouter

namespace Template

/-- The template that serves a path. -/
def serving? (path : String) (templates : List Template) : Option Template :=
  (templates.find? fun template => !template.isDynamic && template.raw == path).or
    ((templates.filter isDynamic).find? fun template => template.matcher.accepts path)

/-- The match of a path with the template that serves it. -/
def found (settings : Settings) (path : String) (template : Template) : Except Fault RouteMatch :=
  if template.isDynamic then do
    let params? ← template.matcher.extract settings.decodeParams path
    return ⟨template.raw, params?.getD []⟩
  else return ⟨template.raw, []⟩

/-- The match of a path with one of the templates. -/
def matching (settings : Settings) (path : String) (templates : List Template) :
    Except Fault (Option RouteMatch) :=
  match serving? path templates with
  | some template => (template.found settings path).map some
  | none => .ok none

theorem mem_of_serving? {path : String} {templates : List Template} {template : Template}
    (h : serving? path templates = some template) : template ∈ templates := by
  rcases Option.or_eq_some_iff.mp h with h | ⟨_, h⟩
  · exact List.mem_of_find?_eq_some h
  · exact (List.mem_filter.mp (List.mem_of_find?_eq_some h)).1

theorem accepts_of_serving? {path : String} {templates : List Template} {template : Template}
    (h : serving? path templates = some template) (hdynamic : template.isDynamic = true) :
    template.matcher.accepts path = true := by
  rcases Option.or_eq_some_iff.mp h with h | ⟨_, h⟩
  · have hstatic := List.find?_some h
    simp [hdynamic] at hstatic
  · have haccepts := List.find?_some h
    exact haccepts

/-- The parameters of a template in a path. -/
def ParamsIn (settings : Settings) (path : String) (template : Template) (params : Params) : Prop :=
  if template.isDynamic then
    ∃ matcher, template.compile = .ok matcher ∧
      matcher.extract settings.decodeParams path = .ok (some params)
  else params = []

theorem exists_found {template : Template} (hnamed : template.Named) {path : String}
    (haccepts : template.isDynamic = true → template.matcher.accepts path = true)
    (settings : Settings) :
    ∃ params, template.found settings path = .ok ⟨template.raw, params⟩ ∧
      template.ParamsIn settings path params := by
  unfold found ParamsIn
  split
  · rename_i hdynamic
    obtain ⟨_, _, hextract⟩ := exists_first_of_accepts hnamed (haccepts hdynamic)
    obtain ⟨params, hparams, _⟩ := hextract settings.decodeParams
    refine ⟨params, ?_, template.matcher, template.compile_eq, hparams⟩
    rw [hparams]
    rfl
  · exact ⟨[], rfl, rfl⟩

/-- There is a match just if a template serves the path, and it is the match with that template. -/
theorem exists_matching {templates : List Template} (hnamed : ∀ t ∈ templates, t.Named)
    (settings : Settings) (path : String) :
    ∃ match?, matching settings path templates = .ok match? ∧
      match?.map (·.route) = (serving? path templates).map (·.raw) ∧
      ∀ found ∈ match?, ∃ t ∈ templates, t.raw = found.route ∧
        t.ParamsIn settings path found.params := by
  unfold matching
  cases hserving : serving? path templates with
  | none => exact ⟨none, rfl, rfl, fun _ h => nomatch h⟩
  | some template =>
    have hmem := mem_of_serving? hserving
    obtain ⟨params, hfound, hparams⟩ :=
      exists_found (hnamed template hmem) (accepts_of_serving? hserving) settings
    refine ⟨some ⟨template.raw, params⟩, ?_, rfl, ?_⟩
    · simp only [hfound]
      rfl
    · intro found h
      cases h
      exact ⟨template, hmem, rfl, hparams⟩

theorem isRead_of_readAll {settings : Settings} {routes : List String} {templates : List Template}
    (h : readAll settings routes = .ok templates) : ∀ template ∈ templates, template.IsRead := by
  obtain ⟨rfl, _⟩ := readAll_eq_ok_iff.mp h
  intro template htemplate
  obtain ⟨raw, _, rfl⟩ := List.mem_map.mp htemplate
  exact isRead_parse raw

end Template

namespace Routing

open Template (serving? matching isRead_of_readAll)

theorem gives_firstAccepting (path : String) {templates : List Template}
    (ht : ∀ t ∈ templates, t.IsRead) :
    Gives (.ok (templates.find? fun t => t.matcher.accepts path))
      (firstAccepting path templates) := by
  induction templates with
  | nil => exact Gives.pure none
  | cons template rest ih =>
    obtain ⟨ht, hrest⟩ := List.forall_mem_cons.mp ht
    refine gives_fetch_bind ht fun entry hmatcher => ?_
    rw [hmatcher, List.find?_cons]
    cases template.matcher.accepts path with
    | true => exact Gives.pure (some template)
    | false => exact ih hrest

theorem gives_select (path : String) {templates : List Template}
    (ht : ∀ t ∈ templates, t.IsRead) :
    Gives (.ok (serving? path templates)) (select path templates) := by
  have hdynamic : ∀ t ∈ templates.filter Template.isDynamic, t.IsRead :=
    fun t hmem => ht t (List.mem_filter.mp hmem).1
  unfold select serving?
  cases templates.find? fun t => !t.isDynamic && t.raw == path with
  | some template => exact Gives.pure (some template)
  | none =>
    refine Gives.bind_of_ok (gives_firstAccepting path hdynamic) ?_
    rw [Option.none_or]
    cases (templates.filter Template.isDynamic).find? fun t => t.matcher.accepts path with
    | some template => exact Gives.pure (some template)
    | none => exact Gives.bind_of_ok (gives_record _) (Gives.pure none)

theorem gives_resolve (path : String) (routes : List String) (settings : Settings) :
    Gives (do return (serving? path (← Template.readAll settings routes)).map (·.raw))
      (resolve path routes settings) :=
  (Gives.lift _).bind fun _ h =>
    (gives_select path (isRead_of_readAll h)).bind_of_ok (Gives.pure _)

theorem gives_matchRoute (path : String) (routes : List String) (settings : Settings) :
    Gives (do matching settings path (← Template.readAll settings routes))
      (matchRoute path routes settings) := by
  refine (Gives.lift _).bind fun templates h => ?_
  have hread := isRead_of_readAll h
  refine Gives.bind_of_ok (gives_select path hread) ?_
  unfold matching
  cases hserving : serving? path templates with
  | none => exact Gives.pure none
  | some template =>
    have ht := hread template (Template.mem_of_serving? hserving)
    unfold Template.found
    simp only
    split
    · refine gives_fetch_bind ht fun entry hmatcher => ?_
      rw [hmatcher]
      cases template.matcher.extract settings.decodeParams path with
      | error fault => exact (Gives.lift (.error fault)).bind_of_error
      | ok params? => exact Gives.bind_of_ok (Gives.lift (.ok params?)) (Gives.pure _)
    · exact Gives.pure _

theorem gives_sortRoutes (routes : List String) (settings : Settings) :
    Gives (do return canonicalOrder (← Template.readAll settings routes))
      (sortRoutes routes settings) :=
  (Gives.lift _).bind fun _ _ => Gives.bind_of_ok (gives_record _) (Gives.pure _)

end Routing

end PathRouter
