import PathRouter.Proofs.Router.Requests
import PathRouter.Proofs.Router.Sessions

/-!
# Stability of matchers

In a session any template may be given with any text. Until the matchers are dropped, a router only
adds entries to those that it keeps: the first template that is looked up with a text decides on the
matcher, which is then given to every template with that text. Each entry was recorded when it was
compiled, and its serial number is not used again, not even after it was dropped.
-/
namespace PathRouter

open Bindings (value? keys)

/-- The texts that were compiled according to the records. -/
def compiledRaws (log : List Record) : List String := log.filterMap Record.compiledRaw?

theorem compiledRaws_append (log log' : List Record) :
    compiledRaws (log ++ log') = compiledRaws log ++ compiledRaws log' :=
  List.filterMap_append

theorem compiledRaws_map_compiled (added : Bindings String Entry) :
    compiledRaws (added.map fun pair => .compiled pair.1 pair.2.matcher.expression) =
      keys added := by
  induction added with
  | nil => rfl
  | cons pair rest ih => exact congrArg (pair.1 :: ·) ih

namespace Router

/-- The router that the requests leave. -/
def after (requests : List Request) (router : Router) : Router := (runSession requests router).2

/-- What is recorded during the requests. -/
def recorded (requests : List Request) (router : Router) : List Record :=
  (runSession requests router).1.flatMap (·.log)

/-- The templates that the requests look up, in order. -/
def lookedUp : List Request → Router → List Template
  | [], _ => []
  | request :: rest, router =>
    request.lookups { router with log := [] } ++ lookedUp rest (request.step router).2

theorem after_append (requests requests' : List Request) (router : Router) :
    router.after (requests ++ requests') = (router.after requests).after requests' := by
  induction requests generalizing router with
  | nil => rfl
  | cons request rest ih => exact ih (request.step router).2

/-- Whether each text has one entry and each entry a serial number of its own, given out before. -/
structure Numbered (router : Router) : Prop where
  nodup_keys : (keys router.memo).Nodup
  nodup_serials : (router.memo.map (·.2.serial)).Nodup
  serial_lt : ∀ pair ∈ router.memo, pair.2.serial < router.compilations

/-- Whether what the later router keeps was kept before or was compiled since. -/
structure Continues (before after : Router) : Prop where
  compilations_le : before.compilations ≤ after.compilations
  kept_or_new : ∀ pair ∈ after.memo, pair ∈ before.memo ∨ before.compilations ≤ pair.2.serial

theorem Continues.trans {before mid after : Router} (h : Continues before mid)
    (h' : Continues mid after) : Continues before after := by
  refine ⟨Nat.le_trans h.compilations_le h'.compilations_le, fun pair hpair => ?_⟩
  rcases h'.kept_or_new pair hpair with hmid | hnew
  · exact h.kept_or_new pair hmid
  · exact .inr (Nat.le_trans h.compilations_le hnew)

theorem Continues.of_dropped {before after : Router} (hmemo : after.memo = [])
    (hcompilations : before.compilations = after.compilations) : Continues before after := by
  refine ⟨Nat.le_of_eq hcompilations, fun pair hpair => ?_⟩
  rw [hmemo] at hpair
  cases hpair

theorem Numbered.of_dropped {router : Router} (h : router.memo = []) : router.Numbered := by
  refine ⟨?_, ?_, fun pair hpair => ?_⟩
  · rw [h]
    exact List.nodup_nil
  · rw [h]
    exact List.nodup_nil
  · rw [h] at hpair
    cases hpair

/-- Entries of different texts have different serial numbers. -/
theorem Numbered.raw_eq {router : Router} (h : router.Numbered) {raw raw' : String}
    {entry entry' : Entry} (hentry : value? raw router.memo = some entry)
    (hentry' : value? raw' router.memo = some entry') (hserial : entry.serial = entry'.serial) :
    raw = raw' := by
  have hpair := List.inj_on_of_nodup_map h.nodup_serials (Bindings.mem_of_value?_eq_some hentry)
    (Bindings.mem_of_value?_eq_some hentry') hserial
  exact congrArg (·.1) hpair

namespace Grows

variable {templates : List Template} {added : Bindings String Entry} {before after : Router}

theorem serial_mem (h : Grows templates added before after) {pair : String × Entry}
    (hpair : pair ∈ added) :
    before.compilations ≤ pair.2.serial ∧ pair.2.serial < after.compilations := by
  have hmem : pair.2.serial ∈ added.map (·.2.serial) := List.mem_map_of_mem hpair
  rw [h.serials_eq, List.mem_range'_1] at hmem
  rw [h.compilations_eq]
  exact hmem

theorem continues (h : Grows templates added before after) : Continues before after := by
  refine ⟨h.compilations_eq ▸ Nat.le_add_right _ _, fun pair hpair => ?_⟩
  rw [h.memo_eq, List.mem_append] at hpair
  exact hpair.imp_right fun hadded => (h.serial_mem hadded).1

theorem numbered (h : Grows templates added before after) (hbefore : before.Numbered) :
    after.Numbered := by
  refine ⟨h.nodup_keys hbefore.nodup_keys, ?_, fun pair hpair => ?_⟩
  · rw [h.memo_eq, List.map_append, List.nodup_append]
    refine ⟨hbefore.nodup_serials, ?_, fun serial hserial serial' hserial' => ?_⟩
    · rw [h.serials_eq]
      exact List.nodup_range'
    · obtain ⟨pair, hpair, rfl⟩ := List.mem_map.mp hserial
      obtain ⟨pair', hpair', rfl⟩ := List.mem_map.mp hserial'
      exact Nat.ne_of_lt (Nat.lt_of_lt_of_le (hbefore.serial_lt pair hpair) (h.serial_mem hpair').1)
  · rw [h.memo_eq, List.mem_append] at hpair
    rcases hpair with hold | hadded
    · exact Nat.lt_of_lt_of_le (hbefore.serial_lt pair hold) h.continues.compilations_le
    · exact (h.serial_mem hadded).2

/-- When nothing was kept before, the first template with a text decides on its matcher. -/
theorem compile_eq (h : Grows templates added before after) (hbefore : before.memo = [])
    (raw : String) :
    (value? raw after.memo).map (fun entry => Except.ok entry.matcher) =
      (templates.find? (·.raw == raw)).map Template.compile := by
  have hcompile : Template.compile = Except.ok ∘ Template.matcher := funext Template.compile_eq
  have hmatcher := h.matcher_eq raw
  rw [hbefore] at hmatcher
  calc (value? raw after.memo).map (fun entry => Except.ok entry.matcher)
      = ((value? raw after.memo).map (·.matcher)).map Except.ok := (Option.map_map _ _ _).symm
    _ = ((templates.find? (·.raw == raw)).map Template.matcher).map Except.ok := by
        rw [hmatcher]
        rfl
    _ = (templates.find? (·.raw == raw)).map Template.compile := by
        rw [Option.map_map, hcompile]

end Grows

end Router

namespace Request

open Router (Grows Numbered Continues)

/-- A request that does not drop the matchers looks up its templates, and records nothing that is
compiled but for them. -/
theorem grows_step {request : Request} (h : request ≠ clear) (router : Router) :
    ∃ added, Grows (request.lookups { router with log := [] }) added router
        (request.step router).2 ∧
      compiledRaws (request.step router).1.log = keys added := by
  obtain ⟨reply, events, hrun, hevents⟩ := looks_serve h { router with log := [] }
  obtain ⟨added, hgrows, hlog⟩ := Router.exists_grows_lookUpAll
    (request.lookups { router with log := [] }) { router with log := [] }
  have hafter : (request.step router).2 = Router.recordAll events
      (Router.lookUpAll (request.lookups { router with log := [] }) { router with log := [] }) := by
    unfold step
    rw [hrun]
    rfl
  have hlogs : (request.step router).1.log = (request.step router).2.log := rfl
  have hnone : compiledRaws events = [] := List.filterMap_eq_nil_iff.mpr hevents
  refine ⟨added, ?_, ?_⟩
  · rw [hafter]
    exact hgrows.withLogs router.log _
  · rw [hlogs, hafter, Router.recordAll, hlog, compiledRaws_append, hnone, List.append_nil,
      List.nil_append, compiledRaws_map_compiled]

theorem continues_step (request : Request) (router : Router) :
    Continues router (request.step router).2 := by
  by_cases h : request = clear
  · rw [h]
    exact .of_dropped rfl rfl
  · obtain ⟨_, hgrows, _⟩ := grows_step h router
    exact hgrows.continues

theorem numbered_step (request : Request) {router : Router} (h : router.Numbered) :
    (request.step router).2.Numbered := by
  by_cases hclear : request = clear
  · rw [hclear]
    exact .of_dropped rfl
  · obtain ⟨_, hgrows, _⟩ := grows_step hclear router
    exact hgrows.numbered h

end Request

namespace Router

theorem exists_grows_after {requests : List Request} (h : .clear ∉ requests) (router : Router) :
    ∃ added, Grows (lookedUp requests router) added router (router.after requests) ∧
      compiledRaws (router.recorded requests) = keys added := by
  induction requests generalizing router with
  | nil => exact ⟨[], .refl router, rfl⟩
  | cons request rest ih =>
    rw [List.mem_cons, not_or] at h
    obtain ⟨added, hgrows, hraws⟩ := Request.grows_step (Ne.symm h.1) router
    obtain ⟨added', hgrows', hraws'⟩ := ih h.2 (request.step router).2
    have hrecorded : router.recorded (request :: rest) =
        (request.step router).1.log ++ (request.step router).2.recorded rest := rfl
    refine ⟨added ++ added', hgrows.trans hgrows', ?_⟩
    rw [hrecorded, compiledRaws_append, hraws, hraws', keys, keys, keys, List.map_append]

theorem continues_after (requests : List Request) (router : Router) :
    Continues router (router.after requests) := by
  induction requests generalizing router with
  | nil => exact ⟨Nat.le_refl _, fun pair hpair => .inl hpair⟩
  | cons request rest ih =>
    exact (request.continues_step router).trans (ih (request.step router).2)

theorem Numbered.after {router : Router} (h : router.Numbered) (requests : List Request) :
    (router.after requests).Numbered := by
  induction requests generalizing router with
  | nil => exact h
  | cons request rest ih => exact ih (request.numbered_step h)

theorem numbered_empty : Router.empty.Numbered := .of_dropped rfl

theorem value?_after {requests : List Request} (h : .clear ∉ requests) {router : Router}
    {raw : String} {entry : Entry} (hentry : value? raw router.memo = some entry) :
    value? raw (router.after requests).memo = some entry := by
  obtain ⟨_, hgrows, _⟩ := exists_grows_after h router
  rw [hgrows.memo_eq, Bindings.value?_append, hentry, Option.some_or]

/-- What was kept before the matchers were dropped has a lower serial number. -/
theorem serial_lt_of_clear {requests : List Request} (h : .clear ∈ requests) {router : Router}
    (hrouter : router.Numbered) {old new : String × Entry} (hold : old ∈ router.memo)
    (hnew : new ∈ (router.after requests).memo) : old.2.serial < new.2.serial := by
  obtain ⟨first, second, rfl⟩ := List.append_of_mem h
  -- Right after the clear nothing is kept, so whatever is kept later was compiled later.
  have hdropped : Continues router (Request.clear.step (router.after first)).2 :=
    (continues_after first router).trans (Request.continues_step .clear _)
  rw [after_append] at hnew
  rcases (continues_after second _).kept_or_new new hnew with hkept | hlater
  · cases hkept
  · exact Nat.lt_of_lt_of_le (hrouter.serial_lt old hold)
      (Nat.le_trans hdropped.compilations_le hlater)

end Router

namespace Request

theorem reply_step_fetch (template : Template) (router : Router) :
    ((fetch template).step router).1.reply = .ok (.entry (router.entryFor template)) := by
  unfold step serve
  rw [Routing.run_map, Routing.run_fetch_eq]
  rfl

theorem value?_step_fetch (template : Template) (router : Router) :
    value? template.raw ((fetch template).step router).2.memo =
      some (router.entryFor template) := by
  unfold step serve
  rw [Routing.run_map, Routing.run_fetch_eq]
  exact Router.value?_lookUp template { router with log := [] }

end Request

namespace Router

section Fetches

variable {template other : Template} {between : List Request}

theorem entryFor_after_fetch (hraw : template.raw = other.raw) (hclear : .clear ∉ between)
    (router : Router) :
    (((Request.fetch template).step router).2.after between).entryFor other =
      router.entryFor template := by
  apply entryFor_of_value?
  rw [← hraw]
  exact value?_after hclear (Request.value?_step_fetch template router)

theorem serial_entryFor_eq_iff {router : Router} (h : router.Numbered) :
    (router.entryFor template).serial =
        ((((Request.fetch template).step router).2.after between).entryFor other).serial ↔
      template.raw = other.raw ∧ .clear ∉ between := by
  have hmid : ((Request.fetch template).step router).2.Numbered := Request.numbered_step _ h
  have hfirst := Request.value?_step_fetch template router
  have hsecond : value? other.raw
      (((Request.fetch template).step router).2.after (between ++ [.fetch other])).memo =
        some ((((Request.fetch template).step router).2.after between).entryFor other) := by
    rw [after_append]
    exact Request.value?_step_fetch other _
  -- Both entries are compared in the router after the second request.
  constructor
  · intro hserial
    have hclear : .clear ∉ between ++ [.fetch other] := fun hclear =>
      Nat.ne_of_lt (serial_lt_of_clear hclear hmid (Bindings.mem_of_value?_eq_some hfirst)
        (Bindings.mem_of_value?_eq_some hsecond)) hserial
    refine ⟨(hmid.after _).raw_eq (value?_after hclear hfirst) hsecond hserial, fun hmem => ?_⟩
    exact hclear (List.mem_append_left _ hmem)
  · rintro ⟨hraw, hclear⟩
    rw [entryFor_after_fetch hraw hclear]

end Fetches

theorem exists_since_clear (requests : List Request) :
    ∃ earlier since, requests = earlier ++ since ∧ .clear ∉ since ∧
      (earlier = [] ∨ earlier.getLast? = some .clear) ∧ (Router.empty.after earlier).memo = [] := by
  induction requests using List.reverseRecOn with
  | nil => exact ⟨[], [], rfl, List.not_mem_nil, .inl rfl, rfl⟩
  | append_singleton requests request ih =>
    by_cases h : request = .clear
    · refine ⟨requests ++ [request], [], (List.append_nil _).symm, List.not_mem_nil, .inr ?_, ?_⟩
      · rw [h, List.getLast?_concat]
      · rw [h, after_append]
        rfl
    · obtain ⟨earlier, since, rfl, hsince, hearlier, hmemo⟩ := ih
      refine ⟨earlier, since ++ [request], List.append_assoc _ _ _, ?_, hearlier, hmemo⟩
      simp [hsince, Ne.symm h]

/-- A request meets the router that the requests before it left, and those after it meet the router
that it leaves. -/
theorem after_take {requests : List Request} {request : Request} {i j : Nat} (hij : i < j)
    (hi : requests[i]? = some request) (router : Router) :
    router.after (requests.take j) =
      (request.step (router.after (requests.take i))).2.after ((requests.take j).drop (i + 1)) := by
  have hsplit : requests.take j =
      requests.take i ++ request :: (requests.take j).drop (i + 1) := by
    have hget : (requests.take j)[i]? = some request := by
      rw [List.getElem?_take_of_lt hij, hi]
    obtain ⟨hlt, hget⟩ := List.getElem?_eq_some_iff.mp hget
    rw [← hget, ← List.drop_eq_getElem_cons hlt]
    conv_lhs => rw [← List.take_append_drop i (requests.take j)]
    rw [List.take_take, Nat.min_eq_left (Nat.le_of_lt hij)]
  conv_lhs => rw [hsplit, after_append]
  rfl

end Router

/-- In a session, matchers are not replaced before they are dropped. The matcher under a text is the
one of the first template with that text that was looked up since they were dropped last, and each
was recorded once since then. Two requests for a matcher get the same one just if they give the same
text and no request between them drops the matchers. -/
theorem matchers_stay_until_dropped (requests : List Request) :
    (∀ since, .clear ∉ since →
      (Router.empty.after requests).memo <+: (Router.empty.after (requests ++ since)).memo) ∧
    (∃ earlier since, requests = earlier ++ since ∧ .clear ∉ since ∧
      (earlier = [] ∨ earlier.getLast? = some .clear) ∧
      (∀ raw,
        (value? raw (Router.empty.after requests).memo).map (fun entry => .ok entry.matcher) =
          (((Router.empty.after earlier).lookedUp since).find? (·.raw == raw)).map
            Template.compile) ∧
      keys (Router.empty.after requests).memo =
        compiledRaws ((Router.empty.after earlier).recorded since) ∧
      (Router.empty.after requests).memo.length =
        (compiledRaws ((Router.empty.after earlier).recorded since)).length ∧
      (compiledRaws ((Router.empty.after earlier).recorded since)).Nodup) ∧
    ∀ i j template other, i < j → requests[i]? = some (.fetch template) →
      requests[j]? = some (.fetch other) → ∃ first second,
        (runSession requests .empty).1[i]?.map (·.reply) = some (.ok (.entry first)) ∧
        (runSession requests .empty).1[j]?.map (·.reply) = some (.ok (.entry second)) ∧
        (first.serial = second.serial ↔
          template.raw = other.raw ∧ .clear ∉ (requests.take j).drop (i + 1)) ∧
        (first.serial = second.serial → first = second) := by
  refine ⟨fun since hsince => ?_, ?_, fun i j template other hij hi hj => ?_⟩
  · obtain ⟨added, hgrows, _⟩ :=
      Router.exists_grows_after hsince (Router.empty.after requests)
    rw [Router.after_append, hgrows.memo_eq]
    exact List.prefix_append _ _
  · obtain ⟨earlier, since, rfl, hsince, hearlier, hmemo⟩ := Router.exists_since_clear requests
    obtain ⟨added, hgrows, hraws⟩ := Router.exists_grows_after hsince (Router.empty.after earlier)
    have hadded := hgrows.memo_eq
    rw [hmemo, List.nil_append] at hadded
    have hnumbered := (Router.numbered_empty.after earlier).after since
    refine ⟨earlier, since, rfl, hsince, hearlier, fun raw => ?_, ?_, ?_, ?_⟩
    · rw [Router.after_append, hgrows.compile_eq hmemo]
    · rw [Router.after_append, hadded, hraws]
    · rw [Router.after_append, hadded, hraws, keys, List.length_map]
    · rw [hraws, ← hadded]
      exact hnumbered.nodup_keys
  · have hbefore := Router.numbered_empty.after (requests.take i)
    have hlater := Router.after_take hij hi Router.empty
    refine ⟨(Router.empty.after (requests.take i)).entryFor template,
      (Router.empty.after (requests.take j)).entryFor other, ?_, ?_, ?_, fun hserial => ?_⟩
    · rw [getElem?_runSession, hi]
      exact congrArg some (Request.reply_step_fetch template _)
    · rw [getElem?_runSession, hj]
      exact congrArg some (Request.reply_step_fetch other _)
    · rw [hlater]
      exact Router.serial_entryFor_eq_iff hbefore
    · rw [hlater] at hserial ⊢
      obtain ⟨hraw, hclear⟩ := (Router.serial_entryFor_eq_iff hbefore).mp hserial
      exact (Router.entryFor_after_fetch hraw hclear _).symm

/-- The matcher of a hand-built template stays for the route with the same text, until the matchers
are dropped. -/
theorem hand_built_matcher_stays_until_dropped :
    ∃ replies first second third,
      replies = (runSession [.fetch ⟨"/[id]", [⟨"x", .literal, none⟩]⟩, .fetch (.parse "/[id]"),
        .clear, .fetch (.parse "/[id]")] .empty).1.map (·.reply) ∧
      replies[0]? = some (.ok (.entry first)) ∧ replies[1]? = some (.ok (.entry second)) ∧
      replies[3]? = some (.ok (.entry third)) ∧ first = second ∧ second.serial ≠ third.serial := by
  obtain ⟨_, _, hfetches⟩ := matchers_stay_until_dropped
    [.fetch ⟨"/[id]", [⟨"x", .literal, none⟩]⟩, .fetch (.parse "/[id]"), .clear,
      .fetch (.parse "/[id]")]
  obtain ⟨first, second, hfirst, hsecond, hiff, heq⟩ := hfetches 0 1 _ _ (by decide) rfl rfl
  obtain ⟨again, third, hagain, hthird, hiff', _⟩ := hfetches 1 3 _ _ (by decide) rfl rfl
  have hsame : second = again := by
    rw [hsecond] at hagain
    cases hagain
    rfl
  refine ⟨_, first, second, third, rfl, ?_, ?_, ?_, heq (hiff.mpr ⟨rfl, by decide⟩), ?_⟩
  · rw [List.getElem?_map, hfirst]
  · rw [List.getElem?_map, hsecond]
  · rw [List.getElem?_map, hthird]
  · rw [hsame]
    exact fun hserial => absurd (hiff'.mp hserial).2 (by decide)

end PathRouter
