import Mathlib.Data.List.Nodup
import Mathlib.Data.List.Perm.Basic
import PathRouter.Priority.Tree
import PathRouter.Proofs.Bindings.Pairs
import PathRouter.Proofs.Priority.Precedence

/-!
# What a priority tree holds

A node holds the templates that end at it and those below its children. Inserting adds one
template and loses none, and keeps the keys of the children of every node distinct. So a tree that
was filled by insertions holds exactly the inserted templates, and each child is the only place of
the key paths that go on with its key.
-/
namespace PathRouter

namespace Bindings

variable {κ α β : Type} [DecidableEq κ]

/-- Changing one value so that it contributes one item more adds this item to all. -/
theorem flatMap_alter_perm {f : κ × α → List β} {x : β} {key : κ} {change : Option α → α}
    (hnew : (f (key, change none)).Perm [x])
    (hold : ∀ a, (f (key, change (some a))).Perm (x :: f (key, a))) (bindings : Bindings κ α) :
    ((alter key change bindings).flatMap f).Perm (x :: bindings.flatMap f) := by
  induction bindings with
  | nil => simpa [alter] using hnew
  | cons pair rest ih =>
    obtain ⟨k, a⟩ := pair
    by_cases hk : k = key
    · subst hk
      simp only [alter, if_true, List.flatMap_cons]
      exact (hold a).append_right _
    · simp only [alter, hk, if_false, List.flatMap_cons]
      exact (ih.append_left _).trans List.perm_middle

theorem mem_alter {key : κ} {change : Option α → α} {bindings : Bindings κ α} {pair : κ × α}
    (h : pair ∈ alter key change bindings) :
    pair ∈ bindings ∨ pair = (key, change none) ∨
      ∃ a, (key, a) ∈ bindings ∧ pair = (key, change (some a)) := by
  induction bindings with
  | nil =>
    rw [alter, List.mem_singleton] at h
    exact Or.inr (Or.inl h)
  | cons first rest ih =>
    obtain ⟨k, a⟩ := first
    by_cases hk : k = key
    · subst hk
      simp only [alter, if_true, List.mem_cons] at h
      rcases h with rfl | h
      · exact Or.inr (Or.inr ⟨a, List.mem_cons_self, rfl⟩)
      · exact Or.inl (List.mem_cons_of_mem _ h)
    · simp only [alter, hk, if_false, List.mem_cons] at h
      rcases h with rfl | h
      · exact Or.inl List.mem_cons_self
      rcases ih h with h | h | ⟨b, hb, h⟩
      · exact Or.inl (List.mem_cons_of_mem _ h)
      · exact Or.inr (Or.inl h)
      · exact Or.inr (Or.inr ⟨b, List.mem_cons_of_mem _ hb, h⟩)

omit [DecidableEq κ] in
/-- Under distinct keys a key has one value. -/
theorem eq_of_mem_of_nodup {bindings : Bindings κ α} (h : (keys bindings).Nodup) {key : κ}
    {a b : α} (ha : (key, a) ∈ bindings) (hb : (key, b) ∈ bindings) : a = b := by
  have he := List.inj_on_of_nodup_map h ha hb rfl
  exact congrArg Prod.snd he

theorem value?_eq_some_iff {bindings : Bindings κ α} (h : (keys bindings).Nodup) {key : κ}
    {a : α} : value? key bindings = some a ↔ (key, a) ∈ bindings := by
  refine ⟨mem_of_value?_eq_some, fun hmem => ?_⟩
  cases hvalue : value? key bindings with
  | none => exact absurd (List.mem_map_of_mem hmem) (value?_eq_none_iff.mp hvalue)
  | some b => rw [eq_of_mem_of_nodup h (mem_of_value?_eq_some hvalue) hmem]

end Bindings

namespace Node

mutual

/-- The templates at and below a node. -/
def standings : Node → List Standing
  | ⟨endings, children⟩ => endings.map Ending.standing ++ standingsBelow children
termination_by structural node => node

def standingsBelow : List (Key × Node) → List Standing
  | [] => []
  | (key, child) :: rest => child.standings.map (.under key) ++ standingsBelow rest
termination_by structural children => children

end

theorem standingsBelow_eq_flatMap (children : List (Key × Node)) :
    standingsBelow children =
      children.flatMap fun pair => pair.2.standings.map (.under pair.1) := by
  induction children with
  | nil => rfl
  | cons pair rest ih => rw [standingsBelow, ih, List.flatMap_cons]

theorem standings_mk (endings : List Ending) (children : List (Key × Node)) :
    (mk endings children).standings = endings.map Ending.standing ++
      children.flatMap fun pair => pair.2.standings.map (.under pair.1) := by
  rw [standings, standingsBelow_eq_flatMap]

theorem mem_standings {node : Node} {s : Standing} :
    s ∈ node.standings ↔ (∃ ending ∈ node.endings, ending.standing = s) ∨
      ∃ key child, (key, child) ∈ node.children ∧ ∃ t ∈ child.standings, t.under key = s := by
  obtain ⟨endings, children⟩ := node
  simp only [standings_mk, List.mem_append, List.mem_map, List.mem_flatMap, Prod.exists]

theorem standings_insert (ending : Ending) (path : List Key) (node : Node) :
    (node.insert ending path).standings.Perm
      (⟨path, ending.kind.rank, ending.raw⟩ :: node.standings) := by
  induction path generalizing node with
  | nil =>
    obtain ⟨endings, children⟩ := node
    simp only [insert_nil, standings_mk, List.map_append, List.map_singleton, List.append_assoc]
    exact List.perm_middle
  | cons key path ih =>
    have hchild (child : Node) : ((child.insert ending path).standings.map
        (Standing.under key)).Perm
        (⟨key :: path, ending.kind.rank, ending.raw⟩ :: child.standings.map (.under key)) :=
      (ih child).map _
    obtain ⟨endings, children⟩ := node
    rw [insert, standings_mk, standings_mk]
    refine ((Bindings.flatMap_alter_perm ?_ ?_ children).append_left _).trans List.perm_middle
    · exact hchild empty
    · exact hchild

/-- The keys of the children are distinct, here and at every node below. -/
inductive Distinct : Node → Prop
  | intro {node : Node} (nodup : node.keys.Nodup)
      (below : ∀ pair ∈ node.children, Distinct pair.2) : Distinct node

theorem distinct_empty : empty.Distinct :=
  .intro List.nodup_nil fun _ h => absurd h List.not_mem_nil

theorem Distinct.insert {node : Node} (h : node.Distinct) (ending : Ending) (path : List Key) :
    (node.insert ending path).Distinct := by
  induction path generalizing node with
  | nil =>
    obtain ⟨nodup, below⟩ := h
    exact .intro nodup below
  | cons key path ih =>
    obtain ⟨nodup, below⟩ := h
    refine .intro (Bindings.nodup_keys_alter nodup) fun pair hpair => ?_
    rcases Bindings.mem_alter hpair with h | rfl | ⟨child, hchild, rfl⟩
    · exact below pair h
    · exact ih distinct_empty
    · exact ih (below _ hchild)

/-- Whether an optional catch-all ends at a node can be told from its templates. -/
theorem endsOptionally_iff (node : Node) :
    node.endsOptionally = true ↔ EndsOptionally node.standings [] := by
  simp only [endsOptionally, List.any_eq_true, beq_iff_eq]
  constructor
  · intro hends
    obtain ⟨ending, hending, hkind⟩ := hends
    exact ⟨ending.standing, mem_standings.mpr (Or.inl ⟨ending, hending, rfl⟩), rfl,
      Kind.rank_eq_optionalCatchAll.mpr hkind⟩
  · intro hends
    obtain ⟨s, hmem, hpath, hrank⟩ := hends
    rcases mem_standings.mp hmem with ⟨ending, hending, rfl⟩ | ⟨key, child, _, t, _, rfl⟩
    · exact ⟨ending, hending, Kind.rank_eq_optionalCatchAll.mp hrank⟩
    · cases hpath

/-- Where an optional catch-all ends below a child is known to the child alone. -/
theorem endsOptionally_cons_iff {node : Node} (nodup : node.keys.Nodup) {key : Key} {child : Node}
    (hchild : (key, child) ∈ node.children) (path : List Key) :
    EndsOptionally node.standings (key :: path) ↔ EndsOptionally child.standings path := by
  constructor
  · intro hends
    obtain ⟨s, hmem, hpath, hrank⟩ := hends
    rcases mem_standings.mp hmem with ⟨ending, _, rfl⟩ | ⟨k, other, hother, t, ht, rfl⟩
    · cases hpath
    · obtain ⟨rfl, rfl⟩ := List.cons.inj hpath
      obtain rfl := Bindings.eq_of_mem_of_nodup nodup hother hchild
      exact ⟨t, ht, rfl, hrank⟩
  · intro hends
    obtain ⟨t, ht, rfl, hrank⟩ := hends
    exact ⟨t.under key, mem_standings.mpr (Or.inr ⟨key, child, hchild, t, ht, rfl⟩), rfl, hrank⟩

/-- No template of a node goes on with a key that no child has. -/
theorem exists_child_of_endsOptionally_cons {node : Node} {key : Key} {path : List Key}
    (h : EndsOptionally node.standings (key :: path)) :
    ∃ child, (key, child) ∈ node.children := by
  obtain ⟨s, hmem, hpath, _⟩ := h
  rcases mem_standings.mp hmem with ⟨ending, _, rfl⟩ | ⟨k, child, hchild, t, _, rfl⟩
  · cases hpath
  · obtain ⟨rfl, _⟩ := List.cons.inj hpath
    exact ⟨child, hchild⟩

end Node

namespace Tree

/-- What holds of the empty tree and is kept by each insertion holds of any tree that was filled by
insertions. -/
theorem ofTemplates_induction {motive : List Template → Tree → Prop} (nil : motive [] empty)
    (insert : ∀ templates tree template, motive templates tree →
      motive (templates ++ [template]) (tree.insert template)) (templates : List Template) :
    motive templates (ofTemplates templates) := by
  induction templates using List.reverseRecOn with
  | nil => exact nil
  | append_singleton templates template ih =>
    rw [ofTemplates, List.foldl_append]
    exact insert templates _ template ih

/-- A tree filled by insertions holds the inserted templates, each as often as it was inserted. -/
theorem standings_ofTemplates (templates : List Template) :
    (ofTemplates templates).root.standings.Perm (templates.map Template.standing) := by
  refine ofTemplates_induction
    (motive := fun ts tree => tree.root.standings.Perm (ts.map Template.standing)) (.refl _) ?_ _
  intro ts tree template h
  have hinsert := Node.standings_insert template.ending template.keyPath tree.root
  rw [List.map_append, List.map_singleton]
  exact hinsert.trans ((h.cons _).trans (List.perm_append_singleton _ _).symm)

theorem distinct_ofTemplates (templates : List Template) :
    (ofTemplates templates).root.Distinct :=
  ofTemplates_induction (motive := fun _ tree => tree.root.Distinct) Node.distinct_empty
    (fun _ _ _ h => h.insert _ _) templates

end Tree

end PathRouter
