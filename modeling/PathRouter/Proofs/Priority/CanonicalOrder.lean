import Mathlib.Data.List.Forall2
import PathRouter.Proofs.Priority.Arrangement
import PathRouter.Proofs.Priority.Contents

/-!
# The canonical order

A tree is read by walking through it. The walk meets every template that was inserted, each as
often as it was inserted, and of two templates that it meets the first precedes the second. As
precedence decides between any two that differ, the order is determined by which templates there
are.
-/
namespace PathRouter

namespace Node

mutual

/-- The templates at and below a node in canonical order, with all that decides their places. -/
def walk : Node → List Standing
  | ⟨endings, children⟩ => arrange Ending.standing endings (walkBlocks children)
termination_by structural node => node

def walkBlocks : List (Key × Node) → List (Block Standing)
  | [] => []
  | (key, child) :: rest =>
    ⟨key, child.endsOptionally, child.walk.map (.under key)⟩ :: walkBlocks rest
termination_by structural children => children

end

theorem walkBlocks_eq_map (children : List (Key × Node)) :
    walkBlocks children = children.map fun pair =>
      ⟨pair.1, pair.2.endsOptionally, pair.2.walk.map (.under pair.1)⟩ := by
  induction children with
  | nil => rfl
  | cons pair rest ih => rw [walkBlocks, ih, List.map_cons]

theorem keys_walkBlocks (node : Node) :
    (walkBlocks node.children).map (·.key) = node.keys := by
  rw [walkBlocks_eq_map, List.map_map]
  rfl

theorem mem_walkBlocks {children : List (Key × Node)} {block : Block Standing}
    (h : block ∈ walkBlocks children) :
    ∃ child, (block.key, child) ∈ children ∧ block.endsOptionally = child.endsOptionally ∧
      block.routes = child.walk.map (.under block.key) := by
  rw [walkBlocks_eq_map] at h
  obtain ⟨⟨key, child⟩, hmem, rfl⟩ := List.mem_map.mp h
  exact ⟨child, hmem, rfl, rfl⟩

mutual

/-- Reading a tree puts down the texts of what the walk meets. -/
theorem map_raw_walk : (node : Node) → node.walk.map (·.raw) = node.flatten
  | ⟨endings, children⟩ => by
    rw [walk, flatten, ← map_walkBlocks children, ← arrange_map]
    rfl

theorem map_walkBlocks : (children : List (Key × Node)) →
    (walkBlocks children).map (Block.map (·.raw)) = blocks children
  | [] => rfl
  | (key, child) :: rest => by
    have hchild : (child.walk.map (.under key)).map Standing.raw = child.flatten := by
      rw [List.map_map, ← map_raw_walk child]
      rfl
    rw [walkBlocks, blocks, List.map_cons, map_walkBlocks rest, Block.map, hchild]

end

/-- The walk meets each template once. -/
theorem walk_perm {node : Node} (h : node.Distinct) : node.walk.Perm node.standings := by
  induction h with
  | @intro node nodup below ih =>
    have hkeys := keys_walkBlocks node
    obtain ⟨endings, children⟩ := node
    rw [walk, standings_mk]
    refine (arrange_perm _ _ (hkeys ▸ nodup)).trans (List.Perm.append_left _ ?_)
    rw [walkBlocks_eq_map, List.flatMap_map]
    exact List.Perm.flatMap_left _ fun pair hpair => (ih pair hpair).map _

theorem slotEndsOptionally_iff {node : Node} (nodup : node.keys.Nodup) :
    Block.slotEndsOptionally (walkBlocks node.children) = true ↔
      EndsOptionally node.standings [.slot] := by
  have hblock {block : Block Standing} (h : Block.slot? (walkBlocks node.children) = some block) :
      block.endsOptionally = true ↔ EndsOptionally node.standings [.slot] := by
    obtain ⟨hmem, hkey⟩ := Block.mem_of_slot? h
    obtain ⟨child, hchild, hends, _⟩ := mem_walkBlocks hmem
    rw [hkey] at hchild
    rw [hends, endsOptionally_cons_iff nodup hchild, endsOptionally_iff]
  unfold Block.slotEndsOptionally
  rw [Option.any_eq_true]
  constructor
  · intro hslot
    obtain ⟨block, hslot, hends⟩ := hslot
    exact (hblock hslot).mp hends
  · intro h
    cases hslot : Block.slot? (walkBlocks node.children) with
    | some block => exact ⟨block, rfl, (hblock hslot).mpr h⟩
    | none =>
      obtain ⟨child, hchild⟩ := exists_child_of_endsOptionally_cons h
      have hkey : Key.slot ∈ (walkBlocks node.children).map (·.key) := by
        rw [keys_walkBlocks]
        exact List.mem_map_of_mem hchild
      obtain ⟨block, hmem, hkey⟩ := List.mem_map.mp hkey
      exact absurd (beq_iff_eq.mpr hkey) (List.find?_eq_none.mp hslot block hmem)

/-- Whether a template yields is what its node looks at to choose the layout. -/
theorem follows_iff_yields {node : Node} (nodup : node.keys.Nodup) (ending : Ending) (key : Key) :
    ending.Follows node.endings (walkBlocks node.children) key ↔
      ending.standing.Yields node.standings key := by
  unfold Ending.Follows Standing.Yields
  rw [slotEndsOptionally_iff nodup, ← Kind.rank_eq_catchAll]
  exact or_congr_right (or_congr_left (endsOptionally_iff node))

/-- Of two templates that the walk meets the first precedes the second. -/
theorem pairwise_walk {node : Node} (h : node.Distinct) :
    node.walk.Pairwise (Precedes node.standings) := by
  induction h with
  | @intro node nodup below ih =>
    have hkeys := keys_walkBlocks node
    have hfollows := follows_iff_yields nodup
    have hunder {block : Block Standing} (h : block ∈ walkBlocks node.children) {s : Standing}
        (hs : s ∈ block.routes) : ∃ t : Standing, s = t.under block.key := by
      obtain ⟨child, _, _, hroutes⟩ := mem_walkBlocks h
      rw [hroutes] at hs
      obtain ⟨t, _, rfl⟩ := List.mem_map.mp hs
      exact ⟨t, rfl⟩
    have hwalk : node.walk = arrange Ending.standing node.endings (walkBlocks node.children) := by
      obtain ⟨endings, children⟩ := node
      rw [walk]
    rw [hwalk]
    refine pairwise_arrange (hkeys ▸ nodup) ?_ ?_ ?_ ?_ ?_
    · intro a b hab
      simpa [Ending.notAfter, Precedes, Ending.standing] using hab
    · intro block hblock
      obtain ⟨child, hchild, _, hroutes⟩ := mem_walkBlocks hblock
      rw [hroutes, List.pairwise_map]
      have hbelow := precedes_under_iff (endsOptionally_cons_iff nodup hchild)
      exact (ih _ hchild).imp fun h => (hbelow _ _).mpr h
    · intro b hb c hc hbefore x hx y hy
      obtain ⟨s, rfl⟩ := hunder hb hx
      obtain ⟨t, rfl⟩ := hunder hc hy
      exact (precedes_iff_of_apart (branching_apart [] s.path t.path hbefore.ne)).mpr hbefore
    · intro ending block hblock h x hx
      obtain ⟨s, rfl⟩ := hunder hblock hx
      exact (hfollows ending block.key).mp h
    · intro ending block hblock h x hx
      obtain ⟨s, rfl⟩ := hunder hblock hx
      exact fun hyields => h ((hfollows ending block.key).mpr hyields)

end Node

/-- The templates in canonical order: the order is theirs, and nothing but the law decides it. -/
theorem exists_canonicalOrder (templates : List Template) :
    ∃ order : List Template, order.Perm templates ∧
      order.map (·.raw) = canonicalOrder templates ∧
      order.Pairwise fun t u =>
        Precedes (templates.map Template.standing) t.standing u.standing := by
  have hdistinct := Tree.distinct_ofTemplates templates
  have hcontents := Tree.standings_ofTemplates templates
  have hperm := (Node.walk_perm hdistinct).trans hcontents
  -- The walk lists standings; each is the standing of a template that was inserted.
  have hrel : List.Forall₂ (fun s (t : Template) => t.standing = s)
      (templates.map Template.standing) templates := by
    rw [List.forall₂_map_left_iff]
    exact List.forall₂_same.mpr fun t _ => rfl
  obtain ⟨order, hrel, horder⟩ := List.perm_comp_forall₂ hperm hrel
  have hwalk : order.map Template.standing = (Tree.ofTemplates templates).root.walk := by
    have heq : List.Forall₂ Eq (order.map Template.standing) _ :=
      List.forall₂_map_left_iff.mpr hrel.flip
    exact List.forall₂_eq_eq_eq ▸ heq
  refine ⟨order, horder, ?_, ?_⟩
  · have hraw := Node.map_raw_walk (Tree.ofTemplates templates).root
    rw [← hwalk, List.map_map] at hraw
    exact hraw
  · have hpairwise := Node.pairwise_walk hdistinct
    rw [← hwalk, List.pairwise_map] at hpairwise
    exact hpairwise.imp fun h => (precedes_congr (fun _ => hcontents.mem_iff) _ _).mp h

/-- Of two routes in canonical order the first one's template precedes the second one's. -/
theorem pairwise_canonicalOrder_parse (routes : List String) :
    (canonicalOrder (routes.map Template.parse)).Perm routes ∧
      (canonicalOrder (routes.map Template.parse)).Pairwise fun r s =>
        Precedes ((routes.map Template.parse).map Template.standing)
          (Template.parse r).standing (Template.parse s).standing := by
  obtain ⟨order, hperm, hraw, hpairwise⟩ := exists_canonicalOrder (routes.map Template.parse)
  -- A template that was read is what its text is read as.
  have hparse (t : Template) (ht : t ∈ order) : Template.parse t.raw = t := by
    obtain ⟨route, _, rfl⟩ := List.mem_map.mp (hperm.mem_iff.mp ht)
    rfl
  rw [← hraw]
  constructor
  · have hraws := hperm.map (·.raw)
    rw [List.map_map] at hraws
    exact hraws.trans (.of_eq (List.map_id routes))
  · rw [List.pairwise_map]
    refine hpairwise.imp_of_mem fun {t u} ht hu h => ?_
    rw [hparse t ht, hparse u hu]
    exact h

/-- Which templates there are determines their canonical order. -/
theorem canonicalOrder_congr {templates templates' : List Template}
    (h : templates'.Perm templates) : canonicalOrder templates' = canonicalOrder templates := by
  obtain ⟨order, hperm, hraw, hpairwise⟩ := exists_canonicalOrder templates
  obtain ⟨order', hperm', hraw', hpairwise'⟩ := exists_canonicalOrder templates'
  have hmem (s : Standing) :
      s ∈ templates'.map Template.standing ↔ s ∈ templates.map Template.standing :=
    (h.map _).mem_iff
  have hstandings : order'.map Template.standing = order.map Template.standing := by
    refine List.Perm.eq_of_pairwise (fun s t _ _ => Precedes.antisymm)
      (List.pairwise_map.mpr (hpairwise'.imp fun h => (precedes_congr hmem _ _).mp h))
      (List.pairwise_map.mpr hpairwise) ?_
    exact ((hperm'.trans h).trans hperm.symm).map _
  have hraws := congrArg (List.map Standing.raw) hstandings
  rw [List.map_map, List.map_map] at hraws
  rw [← hraw, ← hraw']
  exact hraws

end PathRouter
