import Mathlib.Data.List.Perm.Basic
import PathRouter.Priority.Order
import PathRouter.Proofs.Priority.Precedence

/-!
# The arrangement at a node

Each of the three layouts of a node puts together the same groups, so nothing is lost whichever is
taken. What stands in order within the groups and between them stands in order in the whole. The
layouts differ only in where the templates stand that end at the node.
-/
namespace PathRouter

namespace Block

variable {α β : Type}

def map (f : α → β) (block : Block α) : Block β :=
  ⟨block.key, block.endsOptionally, block.routes.map f⟩

@[simp] theorem literal?_map (f : α → β) (block : Block α) :
    (block.map f).literal? = block.literal?.map fun pair => (pair.1, pair.2.map f) := by
  obtain ⟨_ | _, _, _⟩ := block <;> rfl

theorem literal?_eq_some {block : Block α} {text : String} {routes : List α}
    (h : block.literal? = some (text, routes)) :
    block.key = .literal text ∧ block.routes = routes := by
  obtain ⟨_ | _, _, _⟩ := block
  · cases h
    exact ⟨rfl, rfl⟩
  · cases h

theorem literals_map (f : α → β) (blocks : List (Block α)) :
    literals (blocks.map (map f)) = (literals blocks).map fun pair => (pair.1, pair.2.map f) := by
  have hsort (pairs : List (String × List α)) :
      (pairs.mergeSort fun a b => a.1 ≤ b.1).map (fun pair => (pair.1, pair.2.map f)) =
        (pairs.map fun pair => (pair.1, pair.2.map f)).mergeSort fun a b => a.1 ≤ b.1 :=
    List.map_mergeSort fun _ _ _ _ => rfl
  unfold literals
  rw [hsort, List.filterMap_map, List.map_filterMap]
  simp only [Function.comp_def, literal?_map]

theorem literalRoutes_map (f : α → β) (blocks : List (Block α)) :
    literalRoutes (blocks.map (map f)) = (literalRoutes blocks).map f := by
  rw [literalRoutes, literalRoutes, literals_map, List.flatMap_map, List.map_flatMap]

theorem slot?_map (f : α → β) (blocks : List (Block α)) :
    slot? (blocks.map (map f)) = (slot? blocks).map (map f) := by
  unfold slot?
  rw [List.find?_map]
  rfl

theorem slotRoutes_map (f : α → β) (blocks : List (Block α)) :
    slotRoutes (blocks.map (map f)) = (slotRoutes blocks).map f := by
  unfold slotRoutes
  rw [slot?_map]
  cases slot? blocks <;> rfl

theorem slotEndsOptionally_map (f : α → β) (blocks : List (Block α)) :
    slotEndsOptionally (blocks.map (map f)) = slotEndsOptionally blocks := by
  unfold slotEndsOptionally
  rw [slot?_map]
  cases slot? blocks <;> rfl

theorem slot?_eq_none {blocks : List (Block α)} (h : Key.slot ∉ blocks.map (·.key)) :
    slot? blocks = none := by
  refine List.find?_eq_none.mpr fun block hmem hkey => h ?_
  rw [← beq_iff_eq.mp hkey]
  exact List.mem_map_of_mem hmem

theorem mem_of_slot? {blocks : List (Block α)} {block : Block α} (h : slot? blocks = some block) :
    block ∈ blocks ∧ block.key = .slot := by
  unfold slot? at h
  exact ⟨List.mem_of_find?_eq_some h, by simpa using List.find?_some h⟩

theorem mem_of_literals {blocks : List (Block α)} {text : String} {routes : List α}
    (h : (text, routes) ∈ literals blocks) :
    ∃ block ∈ blocks, block.key = .literal text ∧ block.routes = routes := by
  obtain ⟨block, hmem, heq⟩ := List.mem_filterMap.mp (List.mem_mergeSort.mp h)
  exact ⟨block, hmem, literal?_eq_some heq⟩

/-- Every route of the children is a route of a literal child or of the slot. -/
theorem literalRoutes_append_slotRoutes_perm {blocks : List (Block α)}
    (nodup : (blocks.map (·.key)).Nodup) :
    (literalRoutes blocks ++ slotRoutes blocks).Perm (blocks.flatMap (·.routes)) := by
  have hsorted : (literalRoutes blocks).Perm ((blocks.filterMap literal?).flatMap (·.2)) :=
    (List.mergeSort_perm _ _).flatMap_right _
  refine (hsorted.append_right _).trans ?_
  clear hsorted
  induction blocks with
  | nil => exact .refl _
  | cons block rest ih =>
    rw [List.map_cons, List.nodup_cons] at nodup
    have ih := ih nodup.2
    obtain ⟨text | _, ends, routes⟩ := block
    · show (routes ++ (rest.filterMap literal?).flatMap (·.2) ++ _).Perm
        (routes ++ rest.flatMap (·.routes))
      rw [List.append_assoc]
      exact ih.append_left _
    · rw [slotRoutes, slot?_eq_none nodup.1, Option.map_none, Option.getD_none,
        List.append_nil] at ih
      show ((rest.filterMap literal?).flatMap (·.2) ++ routes).Perm
        (routes ++ rest.flatMap (·.routes))
      exact List.perm_append_comm.trans (ih.append_left _)

theorem nodup_texts {blocks : List (Block α)} (nodup : (blocks.map (·.key)).Nodup) :
    ((literals blocks).map (·.1)).Nodup := by
  have hperm : (literals blocks).Perm (blocks.filterMap literal?) := List.mergeSort_perm _ _
  refine (hperm.map _).nodup_iff.mpr ?_
  clear hperm
  induction blocks with
  | nil => exact List.nodup_nil
  | cons block rest ih =>
    rw [List.map_cons, List.nodup_cons] at nodup
    cases hb : block.literal? with
    | none =>
      rw [List.filterMap_cons_none hb]
      exact ih nodup.2
    | some pair =>
      rw [List.filterMap_cons_some hb, List.map_cons, List.nodup_cons]
      refine ⟨fun hmem => nodup.1 ?_, ih nodup.2⟩
      obtain ⟨⟨text, routes⟩, hpair, htext⟩ := List.mem_map.mp hmem
      obtain ⟨other, hother, hlit⟩ := List.mem_filterMap.mp hpair
      rw [(literal?_eq_some hb).1, ← htext, ← (literal?_eq_some hlit).1]
      exact List.mem_map_of_mem hother

/-- The literal children come in the order of their texts. -/
theorem pairwise_literals {blocks : List (Block α)} (nodup : (blocks.map (·.key)).Nodup) :
    (literals blocks).Pairwise fun a b => a.1 < b.1 := by
  have hle : (literals blocks).Pairwise fun a b => a.1 ≤ b.1 := by
    refine (List.pairwise_mergeSort ?_ ?_ _).imp fun h => of_decide_eq_true h
    · intro a b c hab hbc
      exact decide_eq_true (String.le_trans (of_decide_eq_true hab) (of_decide_eq_true hbc))
    · intro a b
      simpa using String.le_total a.1 b.1
  have hne : (literals blocks).Pairwise fun a b => a.1 ≠ b.1 :=
    List.pairwise_map.mp (nodup_texts nodup)
  refine hle.imp₂ (fun a b h h' => ?_) hne
  by_contra hlt
  exact h' (String.le_antisymm h (String.not_lt.mp hlt))

theorem mem_of_mem_literalRoutes {blocks : List (Block α)} {route : α}
    (h : route ∈ literalRoutes blocks) :
    ∃ block ∈ blocks, route ∈ block.routes ∧ ∃ text, block.key = .literal text := by
  obtain ⟨⟨text, routes⟩, hmem, hroute⟩ := List.mem_flatMap.mp h
  obtain ⟨block, hblock, hkey, rfl⟩ := mem_of_literals hmem
  exact ⟨block, hblock, hroute, text, hkey⟩

theorem mem_of_mem_slotRoutes {blocks : List (Block α)} {route : α}
    (h : route ∈ slotRoutes blocks) :
    ∃ block ∈ blocks, route ∈ block.routes ∧ block.key = .slot := by
  unfold slotRoutes at h
  cases hs : slot? blocks with
  | none =>
    rw [hs] at h
    exact absurd h List.not_mem_nil
  | some block =>
    rw [hs] at h
    obtain ⟨hmem, hkey⟩ := mem_of_slot? hs
    exact ⟨block, hmem, h, hkey⟩

/-- One literal child comes after another, and the slot after them. -/
theorem pairwise_literalRoutes_append_slotRoutes {R : α → α → Prop} {blocks : List (Block α)}
    (nodup : (blocks.map (·.key)).Nodup)
    (inside : ∀ block ∈ blocks, block.routes.Pairwise R)
    (across : ∀ b ∈ blocks, ∀ c ∈ blocks, b.key.Before c.key →
      ∀ x ∈ b.routes, ∀ y ∈ c.routes, R x y) :
    (literalRoutes blocks ++ slotRoutes blocks).Pairwise R := by
  refine List.pairwise_append.mpr ⟨List.pairwise_flatMap.mpr ⟨?_, ?_⟩, ?_, ?_⟩
  · rintro ⟨text, routes⟩ hmem
    obtain ⟨block, hblock, _, rfl⟩ := mem_of_literals hmem
    exact inside block hblock
  · refine (pairwise_literals nodup).imp_of_mem ?_
    rintro ⟨text, routes⟩ ⟨text', routes'⟩ hmem hmem' hlt x hx y hy
    obtain ⟨b, hb, hbkey, rfl⟩ := mem_of_literals hmem
    obtain ⟨c, hc, hckey, rfl⟩ := mem_of_literals hmem'
    refine across b hb c hc ?_ x hx y hy
    rw [hbkey, hckey]
    exact hlt
  · unfold slotRoutes
    cases hs : slot? blocks with
    | none => exact List.Pairwise.nil
    | some block => exact inside block (mem_of_slot? hs).1
  · intro x hx y hy
    obtain ⟨b, hb, hxb, text, hbkey⟩ := mem_of_mem_literalRoutes hx
    obtain ⟨c, hc, hyc, hckey⟩ := mem_of_mem_slotRoutes hy
    refine across b hb c hc ?_ x hxb y hyc
    rw [hbkey, hckey]
    trivial

end Block

namespace Ending

/-- Sorting the templates that end at a node and setting the catch-alls apart changes nothing. -/
theorem own_append_trailing_perm (endings : List Ending) :
    (own endings ++ trailing endings).Perm endings := by
  have h := List.filter_append_perm (·.kind != .catchAll) (endings.mergeSort notAfter)
  simp only [bne, Bool.not_not] at h
  exact h.trans (List.mergeSort_perm _ _)

theorem kind_of_mem_own {endings : List Ending} {ending : Ending} (h : ending ∈ own endings) :
    ending.kind ≠ .catchAll := by
  simpa using (List.mem_filter.mp h).2

theorem kind_of_mem_trailing {endings : List Ending} {ending : Ending}
    (h : ending ∈ trailing endings) : ending.kind = .catchAll := by
  simpa using (List.mem_filter.mp h).2

/-- Setting the catch-alls apart keeps the order of the ranks, for theirs is the last one. -/
theorem pairwise_own_append_trailing (endings : List Ending) :
    (own endings ++ trailing endings).Pairwise (fun a b => a.notAfter b = true) := by
  have hsorted := List.pairwise_mergeSort notAfter_trans notAfter_total endings
  refine List.pairwise_append.mpr ⟨hsorted.filter _, hsorted.filter _, fun a ha b hb => ?_⟩
  have hne : a.kind.rank ≠ b.kind.rank := by
    rw [kind_of_mem_trailing hb]
    exact fun h => kind_of_mem_own ha (Kind.rank_eq_catchAll.mp h)
  have hle := a.kind.rank_le_catchAll
  rw [← kind_of_mem_trailing hb] at hle
  simp only [notAfter, Nat.lt_of_le_of_ne hle hne, decide_true, Bool.true_or]

end Ending

theorem arrange_map {α β : Type} (f : α → β) (emit : Ending → α) (endings : List Ending)
    (blocks : List (Block α)) :
    arrange (fun ending => f (emit ending)) endings (blocks.map (Block.map f)) =
      (arrange emit endings blocks).map f := by
  simp only [arrange, Block.literalRoutes_map, Block.slotRoutes_map, Block.slotEndsOptionally_map]
  split
  · simp only [List.map_append, List.map_map, Function.comp_def]
  split <;> simp only [List.map_append, List.map_map, Function.comp_def]

/-- Each of the three layouts holds the node's templates and the children's. -/
theorem arrange_perm {α : Type} (emit : Ending → α) (endings : List Ending)
    {blocks : List (Block α)} (nodup : (blocks.map (·.key)).Nodup) :
    (arrange emit endings blocks).Perm (endings.map emit ++ blocks.flatMap (·.routes)) := by
  classical
  have hown := (Ending.own_append_trailing_perm endings).map emit
  refine List.Perm.trans ?_ (hown.append (Block.literalRoutes_append_slotRoutes_perm nodup))
  rw [List.map_append, List.perm_iff_count]
  intro route
  simp only [arrange]
  split
  · simp only [List.count_append]
    omega
  split
  · simp only [List.count_append]
    omega
  · simp only [List.count_append]
    omega

/-- Whether a template that ends at a node comes after the templates of the child under a key. -/
def Ending.Follows {α : Type} (endings : List Ending) (blocks : List (Block α)) (ending : Ending)
    (key : Key) : Prop :=
  ending.kind = .catchAll ∨ endings.any (·.kind == .optionalCatchAll) = true ∨
    (key ≠ .slot ∧ Block.slotEndsOptionally blocks = true)

private theorem pairwise_append_four {α : Type} {R : α → α → Prop} {a b c d : List α}
    (ha : a.Pairwise R) (hb : b.Pairwise R) (hc : c.Pairwise R) (hd : d.Pairwise R)
    (hab : ∀ x ∈ a, ∀ y ∈ b, R x y) (hac : ∀ x ∈ a, ∀ y ∈ c, R x y)
    (had : ∀ x ∈ a, ∀ y ∈ d, R x y) (hbc : ∀ x ∈ b, ∀ y ∈ c, R x y)
    (hbd : ∀ x ∈ b, ∀ y ∈ d, R x y) (hcd : ∀ x ∈ c, ∀ y ∈ d, R x y) :
    (a ++ b ++ c ++ d).Pairwise R := by
  simp only [List.append_assoc, List.pairwise_append, List.mem_append]
  refine ⟨ha, ⟨hb, ⟨hc, hd, hcd⟩, ?_⟩, ?_⟩
  · rintro x hx y (hy | hy)
    · exact hbc x hx y hy
    · exact hbd x hx y hy
  · rintro x hx y (hy | hy | hy)
    · exact hab x hx y hy
    · exact hac x hx y hy
    · exact had x hx y hy

/-- A relation between single templates and children carries over to the whole node. -/
theorem pairwise_arrange {α : Type} {R : α → α → Prop} {emit : Ending → α}
    {endings : List Ending} {blocks : List (Block α)} (nodup : (blocks.map (·.key)).Nodup)
    (ends : ∀ a b, a.notAfter b = true → R (emit a) (emit b))
    (inside : ∀ block ∈ blocks, block.routes.Pairwise R)
    (across : ∀ b ∈ blocks, ∀ c ∈ blocks, b.key.Before c.key →
      ∀ x ∈ b.routes, ∀ y ∈ c.routes, R x y)
    (after : ∀ ending, ∀ block ∈ blocks, ending.Follows endings blocks block.key →
      ∀ x ∈ block.routes, R x (emit ending))
    (before : ∀ ending, ∀ block ∈ blocks, ¬ ending.Follows endings blocks block.key →
      ∀ x ∈ block.routes, R (emit ending) x) :
    (arrange emit endings blocks).Pairwise R := by
  have hends :
      ((Ending.own endings).map emit ++ (Ending.trailing endings).map emit).Pairwise R := by
    rw [← List.map_append]
    exact List.pairwise_map.mpr ((Ending.pairwise_own_append_trailing endings).imp (ends _ _))
  obtain ⟨ho, ht, hot⟩ := List.pairwise_append.mp hends
  obtain ⟨hl, hs, hls⟩ := List.pairwise_append.mp
    (Block.pairwise_literalRoutes_append_slotRoutes nodup inside across)
  have hlt : ∀ x ∈ Block.literalRoutes blocks, ∀ y ∈ (Ending.trailing endings).map emit, R x y := by
    intro x hx y hy
    obtain ⟨block, hblock, hxb, _⟩ := Block.mem_of_mem_literalRoutes hx
    obtain ⟨ending, he, rfl⟩ := List.mem_map.mp hy
    exact after ending block hblock (Or.inl (Ending.kind_of_mem_trailing he)) x hxb
  have hst : ∀ x ∈ Block.slotRoutes blocks, ∀ y ∈ (Ending.trailing endings).map emit, R x y := by
    intro x hx y hy
    obtain ⟨block, hblock, hxb, _⟩ := Block.mem_of_mem_slotRoutes hx
    obtain ⟨ending, he, rfl⟩ := List.mem_map.mp hy
    exact after ending block hblock (Or.inl (Ending.kind_of_mem_trailing he)) x hxb
  -- What remains is where the node's own templates stand, on which the layouts differ.
  simp only [arrange]
  split
  · rename_i hopt
    refine pairwise_append_four hl hs ho ht hls ?_ hlt ?_ hst hot
    · intro x hx y hy
      obtain ⟨block, hblock, hxb, _⟩ := Block.mem_of_mem_literalRoutes hx
      obtain ⟨ending, _, rfl⟩ := List.mem_map.mp hy
      exact after ending block hblock (Or.inr (Or.inl hopt)) x hxb
    · intro x hx y hy
      obtain ⟨block, hblock, hxb, _⟩ := Block.mem_of_mem_slotRoutes hx
      obtain ⟨ending, _, rfl⟩ := List.mem_map.mp hy
      exact after ending block hblock (Or.inr (Or.inl hopt)) x hxb
  rename_i hopt
  have hos : ∀ x ∈ (Ending.own endings).map emit, ∀ y ∈ Block.slotRoutes blocks, R x y := by
    intro x hx y hy
    obtain ⟨block, hblock, hyb, hkey⟩ := Block.mem_of_mem_slotRoutes hy
    obtain ⟨ending, he, rfl⟩ := List.mem_map.mp hx
    refine before ending block hblock ?_ y hyb
    intro hfollows
    rcases hfollows with h | h | ⟨h, _⟩
    · exact Ending.kind_of_mem_own he h
    · exact hopt h
    · exact h hkey
  split
  · rename_i hslot
    refine pairwise_append_four hl ho hs ht ?_ hls hlt hos hot hst
    intro x hx y hy
    obtain ⟨block, hblock, hxb, text, hkey⟩ := Block.mem_of_mem_literalRoutes hx
    obtain ⟨ending, _, rfl⟩ := List.mem_map.mp hy
    refine after ending block hblock (Or.inr (Or.inr ⟨?_, hslot⟩)) x hxb
    rw [hkey]
    exact Key.noConfusion
  · rename_i hslot
    refine pairwise_append_four ho hl hs ht ?_ hos hot hls hlt hst
    intro x hx y hy
    obtain ⟨block, hblock, hyb, _⟩ := Block.mem_of_mem_literalRoutes hy
    obtain ⟨ending, he, rfl⟩ := List.mem_map.mp hx
    refine before ending block hblock ?_ y hyb
    intro hfollows
    rcases hfollows with h | h | ⟨_, h⟩
    · exact Ending.kind_of_mem_own he h
    · exact hopt h
    · exact hslot h

end PathRouter
