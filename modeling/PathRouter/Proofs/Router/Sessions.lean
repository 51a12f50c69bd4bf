import PathRouter.Proofs.Dispatch.Selection
import PathRouter.Proofs.Table.Building
import PathRouter.Session

/-!
# Sessions of textual requests

A request is textual if each template that it gives is what the template's text is read as. No run
of textual requests makes a faithful router unfaithful, those that end with a fault included, and
faithful routers reply alike. So no reply tells what was requested before.
-/
namespace PathRouter

open Routing (Gives gives_fetch_bind)

/-- The reply without the serial number of a matcher, which tells when the matcher was compiled. -/
def Reply.withoutSerial : Reply → Reply
  | entry e => entry { e with serial := 0 }
  | reply => reply

namespace Request

def Textual : Request → Prop
  | fetch template => template.IsRead
  | select _ templates => ∀ template ∈ templates, template.IsRead
  | clear | holds _ | buildTable _ _ | resolve _ _ _ | matchRoute _ _ _ | sortRoutes _ _ => True

/-- Faithful routers agree on the reply to a textual request, unless it asks what is kept. -/
theorem exists_gives_serve {request : Request} (h : request.Textual)
    (hholds : ∀ raw, request ≠ .holds raw) :
    ∃ reply, Gives reply (do return (← request.serve).withoutSerial) := by
  have hreply {α : Type} {computation : Routing α} {result : Except Fault α} (f : α → Reply)
      (hgives : Gives result computation) :
      ∃ reply, Gives reply
        (do return (← (do return f (← computation) : Routing _)).withoutSerial) := by
    simp only [bind_assoc, pure_bind]
    exact ⟨_, hgives.bind fun a _ => Gives.pure (f a).withoutSerial⟩
  cases request with
  | fetch template =>
    simp only [serve, bind_assoc, pure_bind]
    refine ⟨.ok (.entry ⟨template.matcher, 0⟩), gives_fetch_bind h fun entry hmatcher => ?_⟩
    rw [← hmatcher]
    exact Gives.pure _
  | clear => exact hreply (fun _ => .done) (Gives.modify fun _ _ => Router.faithful_empty)
  | holds raw => exact absurd rfl (hholds raw)
  | buildTable routes settings => exact hreply _ (Table.gives_build routes settings)
  | resolve path routes settings => exact hreply _ (Routing.gives_resolve path routes settings)
  | select path templates => exact hreply _ (Routing.gives_select path h)
  | matchRoute path routes settings =>
    exact hreply _ (Routing.gives_matchRoute path routes settings)
  | sortRoutes routes settings => exact hreply _ (Routing.gives_sortRoutes routes settings)

theorem faithful_step {request : Request} (h : request.Textual) {router : Router}
    (hrouter : router.Faithful) : (request.step router).2.Faithful := by
  by_cases hholds : ∀ raw, request ≠ .holds raw
  · obtain ⟨reply, hgives⟩ := exists_gives_serve h hholds
    obtain ⟨after, hrun, hafter⟩ := hgives { router with log := [] } hrouter
    rw [Routing.run_map] at hrun
    cases hrun
    exact hafter
  · push Not at hholds
    obtain ⟨raw, rfl⟩ := hholds
    exact hrouter

theorem reply_step {request : Request} (h : request.Textual)
    (hholds : ∀ raw, request ≠ .holds raw) {router : Router} (hrouter : router.Faithful) :
    (request.step router).1.reply.map Reply.withoutSerial =
      (request.step .empty).1.reply.map Reply.withoutSerial := by
  obtain ⟨reply, hgives⟩ := exists_gives_serve h hholds
  have hgiven {router : Router} (hrouter : router.Faithful) :
      (request.step router).1.reply.map Reply.withoutSerial = reply := by
    have hresult := hgives.result_eq (show Router.Faithful { router with log := [] } from hrouter)
    rw [Routing.run_map] at hresult
    exact hresult
  rw [hgiven hrouter, hgiven Router.faithful_empty]

end Request

theorem faithful_runSession {requests : List Request} (h : ∀ request ∈ requests, request.Textual)
    {router : Router} (hrouter : router.Faithful) : (runSession requests router).2.Faithful := by
  induction requests generalizing router with
  | nil => exact hrouter
  | cons request requests ih =>
    obtain ⟨hrequest, hrequests⟩ := List.forall_mem_cons.mp h
    exact ih hrequests (Request.faithful_step hrequest hrouter)

/-- A request meets the router that the requests before it left. -/
theorem getElem?_runSession (requests : List Request) (router : Router) (n : Nat) :
    (runSession requests router).1[n]? = requests[n]?.map fun request =>
      (request.step (runSession (requests.take n) router).2).1 := by
  induction requests generalizing router n with
  | nil => rfl
  | cons request requests ih =>
    cases n with
    | zero => rfl
    | succ n => exact ih (request.step router).2 n

/-- In a session of textual requests, the router is faithful at every moment, and each request gets
the reply that it gets when no matcher is kept, unless it asks just that. A table, too, is the one
that is built then. -/
theorem memo_is_invisible (requests : List Request)
    (h : ∀ request ∈ requests, request.Textual) (n : Nat) :
    (runSession (requests.take n) .empty).2.Faithful ∧
      ∀ request, requests[n]? = some request →
        ∃ outcome, (runSession requests .empty).1[n]? = some outcome ∧
          ((∀ raw, request ≠ .holds raw) →
            outcome.reply.map Reply.withoutSerial =
              (request.step .empty).1.reply.map Reply.withoutSerial) ∧
          ∀ routes settings, request = .buildTable routes settings →
            ((Table.build routes settings).run (runSession (requests.take n) .empty).2).1 =
              ((Table.build routes settings).run .empty).1 := by
  have hbefore : (runSession (requests.take n) .empty).2.Faithful :=
    faithful_runSession (fun request hrequest => h request (List.mem_of_mem_take hrequest))
      Router.faithful_empty
  refine ⟨hbefore, fun request hrequest => ?_⟩
  refine ⟨_, by rw [getElem?_runSession, hrequest]; rfl, fun hholds => ?_, ?_⟩
  · exact Request.reply_step (h request (List.mem_of_getElem? hrequest)) hholds hbefore
  · intro routes settings _
    have hgives := Table.gives_build routes settings
    rw [hgives.result_eq hbefore, hgives.result_eq Router.faithful_empty]

/-- A matcher kept from before a refused table does not show in what is found afterwards. -/
theorem memo_is_invisible_after_refused_table :
    ∃ outcome, (runSession [.fetch (.parse "/users/[id]"), .buildTable ["/[]"] ⟨true, true⟩,
        .resolve "/users/7" ["/users/[id]"] .standard] .empty).1[2]? = some outcome ∧
      outcome.reply.map Reply.withoutSerial =
        ((Request.resolve "/users/7" ["/users/[id]"] .standard).step
          .empty).1.reply.map Reply.withoutSerial := by
  have htextual : ∀ request ∈ [.fetch (.parse "/users/[id]"), .buildTable ["/[]"] ⟨true, true⟩,
      .resolve "/users/7" ["/users/[id]"] .standard], Request.Textual request := by
    intro request hrequest
    simp only [List.mem_cons, List.not_mem_nil, or_false] at hrequest
    rcases hrequest with rfl | rfl | rfl
    · exact Template.isRead_parse "/users/[id]"
    · trivial
    · trivial
  obtain ⟨_, hreplies⟩ := memo_is_invisible _ htextual 2
  obtain ⟨outcome, houtcome, hreply, _⟩ := hreplies _ rfl
  exact ⟨outcome, houtcome, hreply fun raw hraw => nomatch hraw⟩

end PathRouter
