import PathRouter.Proofs.Router.Lookup
import PathRouter.Proofs.Template.Reading
import PathRouter.Session

/-!
# Faithful routers

A matcher is found by the text of its template. A router is faithful if each matcher that it keeps
is the one of the template that its text is read as. Requests that give their templates as texts
leave a router faithful.
-/
namespace PathRouter

def Router.Faithful (router : Router) : Prop :=
  ∀ raw entry, Bindings.value? raw router.memo = some entry →
    (Template.parse raw).compile = .ok entry.matcher

/-- Whether a template is what its text is read as. -/
def Template.IsRead (template : Template) : Prop := parse template.raw = template

theorem Template.isRead_parse (raw : String) : (parse raw).IsRead := rfl

theorem Router.faithful_empty : Router.empty.Faithful := by
  intro raw entry h
  cases h

theorem Router.Faithful.keep {router : Router} (h : router.Faithful) (raw : String) :
    (router.keep raw (Template.parse raw).matcher).Faithful := by
  intro raw' entry hentry
  rw [Router.keep, Bindings.value?_put] at hentry
  split at hentry
  · rename_i hraw
    rw [← Option.some.inj hentry, hraw, Template.compile_eq]
  · exact h raw' entry hentry

theorem Router.Faithful.matcher_entryFor {router : Router} (h : router.Faithful)
    {template : Template} (ht : template.IsRead) :
    (router.entryFor template).matcher = template.matcher := by
  cases hentry : Bindings.value? template.raw router.memo with
  | some entry =>
    have hkept := h template.raw entry hentry
    rw [ht, Template.compile_eq] at hkept
    rw [entryFor_of_value? hentry]
    exact (Except.ok.inj hkept).symm
  | none =>
    rw [entryFor, hentry]
    rfl

theorem Router.Faithful.lookUp {router : Router} (h : router.Faithful) {template : Template}
    (ht : template.IsRead) : (router.lookUp template).Faithful := by
  unfold Router.lookUp
  split
  · exact h
  · have hkeep := h.keep template.raw
    rw [ht] at hkeep
    exact hkeep

namespace Routing

section Run

variable {α β : Type} {computation : Routing α} {next : α → Routing β} {router after : Router}

theorem run_bind_of_ok {a : α} (h : computation.run router = (.ok a, after)) :
    (computation >>= next).run router = (next a).run after := by
  have h : computation router = (.ok a, after) := h
  simp only [bind, ExceptT.bind, ExceptT.run, ExceptT.mk, StateT.bind, h, ExceptT.bindCont]

theorem run_bind_of_error {fault : Fault} (h : computation.run router = (.error fault, after)) :
    (computation >>= next).run router = (.error fault, after) := by
  have h : computation router = (.error fault, after) := h
  simp only [bind, ExceptT.bind, ExceptT.run, ExceptT.mk, StateT.bind, h, ExceptT.bindCont]
  rfl

theorem run_map (f : α → β) (computation : Routing α) (router : Router) :
    (do return f (← computation) : Routing β).run router =
      ((computation.run router).1.map f, (computation.run router).2) := by
  cases hrun : computation.run router with
  | mk result after =>
    cases result with
    | error fault => exact run_bind_of_error hrun
    | ok a => exact run_bind_of_ok hrun

theorem run_readAll {settings : Settings} {routes : List String} {templates : List Template}
    (h : Template.readAll settings routes = .ok templates) (router : Router) :
    (liftM (Template.readAll settings routes) : Routing (List Template)).run router =
      (.ok templates, router) := by
  rw [h]
  rfl

theorem run_readAll_of_refused {settings : Settings} {routes : List String} {fault : Fault}
    (h : Template.readAll settings routes = .error fault) (router : Router) :
    (liftM (Template.readAll settings routes) : Routing (List Template)).run router =
      (.error fault, router) := by
  rw [h]
  rfl

end Run

/-- A faithful router gives a template that was read its own matcher. -/
theorem run_fetch {template : Template} (ht : template.IsRead) {router : Router}
    (h : router.Faithful) :
    ∃ entry after, (fetch template).run router = (.ok entry, after) ∧
      entry.matcher = template.matcher ∧ after.Faithful := by
  exact ⟨_, _, run_fetch_eq template router, h.matcher_entryFor ht, h.lookUp ht⟩

theorem run_mapM_fetch {templates : List Template} (ht : ∀ t ∈ templates, t.IsRead)
    {router : Router} (h : router.Faithful) :
    ∃ entries after, (templates.mapM fetch).run router = (.ok entries, after) ∧
      entries.map (·.matcher) = templates.map Template.matcher ∧ after.Faithful := by
  induction templates generalizing router with
  | nil => exact ⟨[], router, rfl, rfl, h⟩
  | cons template rest ih =>
    obtain ⟨ht, hrest⟩ := List.forall_mem_cons.mp ht
    obtain ⟨entry, mid, hfetch, hmatcher, hmid⟩ := run_fetch ht h
    obtain ⟨entries, after, hmapM, hmatchers, hafter⟩ := ih hrest hmid
    refine ⟨entry :: entries, after, ?_, ?_, hafter⟩
    · rw [List.mapM_cons, run_bind_of_ok hfetch, run_bind_of_ok hmapM]
      rfl
    · rw [List.map_cons, List.map_cons, hmatcher, hmatchers]

/-- Whether the computation gives this result on every faithful router, and leaves the router
faithful. -/
def Gives {α : Type} (result : Except Fault α) (computation : Routing α) : Prop :=
  ∀ router : Router, router.Faithful →
    ∃ after, computation.run router = (result, after) ∧ after.Faithful

section Gives

variable {α β : Type}

theorem Gives.pure (a : α) : Gives (.ok a) (pure a) :=
  fun router h => ⟨router, rfl, h⟩

theorem Gives.bind_of_ok {computation : Routing α} {next : α → Routing β} {a : α}
    {result : Except Fault β} (h : Gives (.ok a) computation) (hnext : Gives result (next a)) :
    Gives result (computation >>= next) := by
  intro router hrouter
  obtain ⟨mid, hrun, hmid⟩ := h router hrouter
  obtain ⟨after, hafter, hfaithful⟩ := hnext mid hmid
  exact ⟨after, (run_bind_of_ok hrun).trans hafter, hfaithful⟩

theorem Gives.bind_of_error {computation : Routing α} {next : α → Routing β} {fault : Fault}
    (h : Gives (.error fault) computation) : Gives (.error fault) (computation >>= next) := by
  intro router hrouter
  obtain ⟨after, hrun, hafter⟩ := h router hrouter
  exact ⟨after, run_bind_of_error hrun, hafter⟩

/-- Results are bound like the computations that give them. -/
theorem Gives.bind {computation : Routing α} {next : α → Routing β} {value : Except Fault α}
    {result : α → Except Fault β} (h : Gives value computation)
    (hnext : ∀ a, value = .ok a → Gives (result a) (next a)) :
    Gives (value >>= result) (computation >>= next) := by
  cases value with
  | error fault => exact h.bind_of_error
  | ok a => exact h.bind_of_ok (hnext a rfl)

theorem Gives.lift (value : Except Fault α) : Gives value (liftM value : Routing α) :=
  fun router h => ⟨router, by cases value <;> rfl, h⟩

theorem Gives.modify {change : Router → Router}
    (h : ∀ router : Router, router.Faithful → (change router).Faithful) :
    Gives (.ok ()) (modify change : Routing Unit) :=
  fun router hrouter => ⟨change router, rfl, h router hrouter⟩

theorem gives_record (event : Record) : Gives (.ok ()) (record event) :=
  Gives.modify fun _ h => h

/-- What goes on with the matcher of a template, and with nothing else of its entry. -/
theorem gives_fetch_bind {template : Template} (ht : template.IsRead) {next : Entry → Routing β}
    {result : Except Fault β}
    (hnext : ∀ entry : Entry, entry.matcher = template.matcher → Gives result (next entry)) :
    Gives result (fetch template >>= next) := by
  intro router hrouter
  obtain ⟨entry, mid, hfetch, hmatcher, hmid⟩ := run_fetch ht hrouter
  obtain ⟨after, hafter, hfaithful⟩ := hnext entry hmatcher mid hmid
  exact ⟨after, (run_bind_of_ok hfetch).trans hafter, hfaithful⟩

/-- Two faithful routers give the same result. -/
theorem Gives.result_eq {computation : Routing α} {result : Except Fault α}
    (h : Gives result computation) {router : Router} (hrouter : router.Faithful) :
    (computation.run router).1 = result := by
  obtain ⟨after, hrun, _⟩ := h router hrouter
  rw [hrun]

end Gives

end Routing

end PathRouter
