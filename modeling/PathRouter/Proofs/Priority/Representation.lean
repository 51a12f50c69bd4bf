import PathRouter.Proofs.Priority.Contents

/-!
# Representation

What a priority tree is after insertions, in terms of the inserted templates and their order alone.
An insertion makes the nodes on the key path that are not there yet, puts the template down at the
last of them, and leaves the nodes off the key path as they were. So the nodes are the beginnings of
the key paths, a node holds the templates whose key path ends there, and its children stand in the
order in which insertions first came to them.
-/
namespace PathRouter

/-- The key with which a key path goes on from a place, if it leads beyond it. -/
def nextKey? (place path : List Key) : Option Key := (place.isPrefixOf? path).bind List.head?

theorem nextKey?_eq_some_iff {place path : List Key} {key : Key} :
    nextKey? place path = some key ↔ place ++ [key] <+: path := by
  rw [nextKey?, Option.bind_eq_some_iff]
  constructor
  · rintro ⟨rest, hrest, hkey⟩
    obtain ⟨tail, rfl⟩ := List.head?_eq_some_iff.mp hkey
    rw [List.isPrefixOf?_eq_some_iff_append_eq] at hrest
    exact ⟨tail, by rw [← hrest, List.append_assoc, List.singleton_append]⟩
  · rintro ⟨tail, rfl⟩
    refine ⟨key :: tail, ?_, rfl⟩
    rw [List.isPrefixOf?_eq_some_iff_append_eq, List.append_assoc, List.singleton_append]

section Descent

/-- One segment further on the way to where a template ends: a segment without text stays in place,
any other one goes on by its key and makes its kind the last one. -/
def Segment.descend (reached : List Key × Kind) (segment : Segment) : List Key × Kind :=
  if segment.value = "" then reached else (reached.1 ++ [segment.key], segment.kind)

/-- Segment by segment a template comes to the end of its key path. -/
theorem Template.foldl_descend (template : Template) :
    template.segments.foldl Segment.descend ([], .literal) =
      (template.keyPath, template.lastKind) := by
  obtain ⟨raw, segments⟩ := template
  induction segments using List.reverseRecOn with
  | nil => rfl
  | append_singleton segments segment ih =>
    simp only at ih
    rw [List.foldl_append, ih, List.foldl_cons, List.foldl_nil, Segment.descend]
    unfold keyPath lastKind filled
    by_cases hvalue : segment.value = ""
    · simp [hvalue]
    · simp [hvalue]

end Descent

namespace Node

section Places

/-- The node at a place, an empty one where there is none. -/
def nodeAt (place : List Key) (node : Node) : Node := (node.at? place).getD empty

theorem at?_empty (place : List Key) :
    empty.at? place = if place = [] then some empty else none := by
  cases place <;> rfl

theorem nodeAt_cons (key : Key) (place : List Key) (node : Node) :
    node.nodeAt (key :: place) = ((node.child? key).getD empty).nodeAt place := by
  unfold nodeAt
  rw [at?]
  cases node.child? key with
  | some child => rfl
  | none =>
    rw [Option.getD_none, at?_empty]
    split <;> rfl

/-- An insertion is seen from the places on the key path, and there it is the insertion along the
rest of the key path. -/
theorem at?_insert (ending : Ending) (path place : List Key) (node : Node) :
    (node.insert ending path).at? place =
      match place.isPrefixOf? path with
      | some rest => some ((node.nodeAt place).insert ending rest)
      | none => node.at? place := by
  induction place generalizing path node with
  | nil => rfl
  | cons key place ih =>
    cases path with
    | nil => rfl
    | cons first path =>
      rw [at?, child?_insert, List.isPrefixOf?]
      by_cases hkey : key = first
      · subst hkey
        rw [if_pos rfl, if_pos (beq_self_eq_true key), Option.bind_some, ih, ← nodeAt_cons]
        cases hrest : place.isPrefixOf? path with
        | some rest => rfl
        | none =>
          -- A child that is new has no node off the key path either.
          have hplace : place ≠ [] := by
            rintro rfl
            cases hrest
          rw [at?]
          cases node.child? key with
          | some child => rfl
          | none =>
            rw [Option.getD_none, at?_empty, if_neg hplace]
            rfl
      · rw [if_neg hkey, if_neg (by simpa using hkey), at?]

theorem isSome_at?_insert (ending : Ending) (path place : List Key) (node : Node) :
    ((node.insert ending path).at? place).isSome = true ↔
      (node.at? place).isSome = true ∨ place <+: path := by
  rw [at?_insert, ← List.isPrefixOf_iff_prefix, ← List.isSome_isPrefixOf?_eq_isPrefixOf]
  cases place.isPrefixOf? path with
  | some rest => simp
  | none => simp

theorem nodeAt_insert (ending : Ending) (path place : List Key) (node : Node) :
    (node.insert ending path).nodeAt place =
      match place.isPrefixOf? path with
      | some rest => (node.nodeAt place).insert ending rest
      | none => node.nodeAt place := by
  rw [nodeAt, at?_insert]
  cases place.isPrefixOf? path <;> rfl

/-- The template is put down at the end of its key path, after those that are there. -/
theorem endings_nodeAt_insert (ending : Ending) (path place : List Key) (node : Node) :
    ((node.insert ending path).nodeAt place).endings =
      (node.nodeAt place).endings ++ if path = place then [ending] else [] := by
  rw [nodeAt_insert]
  cases hrest : place.isPrefixOf? path with
  | none =>
    have hne : path ≠ place := by
      rintro rfl
      have hself := List.isPrefixOf?_eq_some_iff_append_eq.mpr (List.append_nil path)
      rw [hself] at hrest
      cases hrest
    rw [if_neg hne, List.append_nil]
  | some rest =>
    obtain rfl := List.isPrefixOf?_eq_some_iff_append_eq.mp hrest
    cases rest with
    | nil =>
      rw [List.append_nil, if_pos rfl]
      rfl
    | cons key rest =>
      rw [if_neg (by simp), List.append_nil]
      rfl

/-- A place that the key path leads beyond has the next key, after those that were there. -/
theorem keys_nodeAt_insert (ending : Ending) (path place : List Key) (node : Node) :
    ((node.insert ending path).nodeAt place).keys =
      match nextKey? place path with
      | some key =>
        if key ∈ (node.nodeAt place).keys then (node.nodeAt place).keys
        else (node.nodeAt place).keys ++ [key]
      | none => (node.nodeAt place).keys := by
  rw [nodeAt_insert, nextKey?]
  cases place.isPrefixOf? path with
  | none => rfl
  | some rest =>
    cases rest with
    | nil => rfl
    | cons key rest => exact Bindings.keys_alter key _ _

end Places

section Enumeration

mutual

/-- The nodes at and below a node, each with its place. -/
def nodes : Node → List (List Key × Node)
  | ⟨endings, children⟩ => ([], ⟨endings, children⟩) :: nodesBelow children
termination_by structural node => node

def nodesBelow : List (Key × Node) → List (List Key × Node)
  | [] => []
  | (key, child) :: rest =>
    child.nodes.map (fun found => (key :: found.1, found.2)) ++ nodesBelow rest
termination_by structural children => children

end

theorem nodesBelow_eq_flatMap (children : List (Key × Node)) :
    nodesBelow children = children.flatMap fun pair =>
      pair.2.nodes.map fun found => (pair.1 :: found.1, found.2) := by
  induction children with
  | nil => rfl
  | cons pair rest ih => rw [nodesBelow, ih, List.flatMap_cons]

theorem nodes_eq (node : Node) :
    node.nodes = ([], node) :: node.children.flatMap fun pair =>
      pair.2.nodes.map fun found => (pair.1 :: found.1, found.2) := by
  obtain ⟨endings, children⟩ := node
  rw [nodes, nodesBelow_eq_flatMap]

/-- The nodes are found at their places. -/
theorem mem_nodes_iff {node : Node} (h : node.Distinct) {place : List Key} {found : Node} :
    (place, found) ∈ node.nodes ↔ node.at? place = some found := by
  induction place generalizing node with
  | nil =>
    rw [nodes_eq, at?]
    simp [eq_comm]
  | cons key place ih =>
    obtain ⟨nodup, below⟩ := h
    have hchild {child : Node} (hmem : (key, child) ∈ node.children) :
        (place, found) ∈ child.nodes ↔ child.at? place = some found := ih (below _ hmem)
    rw [nodes_eq, at?, Option.bind_eq_some_iff]
    simp only [List.mem_cons, List.mem_flatMap, List.mem_map, child?,
      Bindings.value?_eq_some_iff nodup]
    constructor
    · rintro (h | ⟨⟨k, child⟩, hmem, ⟨p, n⟩, hfound, heq⟩)
      · cases h
      · cases heq
        exact ⟨child, hmem, (hchild hmem).mp hfound⟩
    · rintro ⟨child, hmem, hfound⟩
      exact Or.inr ⟨(key, child), hmem, (place, found), (hchild hmem).mpr hfound, rfl⟩

/-- No place is met twice. -/
theorem nodup_nodes {node : Node} (h : node.Distinct) : (node.nodes.map (·.1)).Nodup := by
  induction h with
  | @intro node nodup below ih =>
    rw [nodes_eq, List.map_cons, List.nodup_cons, List.map_flatMap]
    simp only [List.map_map, Function.comp_def]
    refine ⟨by simp, List.nodup_flatMap.mpr ⟨fun pair hpair => ?_, ?_⟩⟩
    · have hunder := (ih pair hpair).map (List.cons_injective (a := pair.1))
      rwa [List.map_map] at hunder
    · refine (List.pairwise_map.mp nodup).imp fun hne => List.disjoint_left.mpr ?_
      intro place ha hb
      obtain ⟨p, _, rfl⟩ := List.mem_map.mp ha
      obtain ⟨q, _, hq⟩ := List.mem_map.mp hb
      exact hne (List.cons.inj hq).1.symm

mutual

/-- As many templates are at and below a node as end at the nodes there. -/
theorem length_standings : (node : Node) →
    node.standings.length = (node.nodes.flatMap fun found => found.2.endings).length
  | ⟨endings, children⟩ => by
    rw [standings, nodes, List.length_append, List.length_map, length_standingsBelow children,
      List.flatMap_cons, List.length_append]

theorem length_standingsBelow : (children : List (Key × Node)) →
    (standingsBelow children).length =
      ((nodesBelow children).flatMap fun found => found.2.endings).length
  | [] => rfl
  | (key, child) :: rest => by
    rw [standingsBelow, nodesBelow, List.length_append, List.length_map, length_standings child,
      length_standingsBelow rest, List.flatMap_append, List.length_append, List.flatMap_map]

end

end Enumeration

end Node

namespace Tree

/-- What a tree is after the templates were inserted in their order. -/
structure Represents (templates : List Template) (tree : Tree) : Prop where
  /-- There is a node for each beginning of a key path. -/
  isSome_at?_iff (place : List Key) : (tree.root.at? place).isSome = true ↔
    place = [] ∨ ∃ t ∈ templates, place <+: t.keyPath
  endings_nodeAt (place : List Key) : (tree.root.nodeAt place).endings =
    (templates.filter (·.keyPath = place)).map Template.ending
  /-- Children stand in the order in which key paths first went on to them. -/
  keys_nodeAt (place : List Key) : (tree.root.nodeAt place).keys =
    (templates.filterMap fun t => nextKey? place t.keyPath).eraseDups
  distinct : tree.root.Distinct
  size_eq : tree.size = templates.length
  length_endings : (tree.root.nodes.flatMap fun found => found.2.endings).length = tree.size

theorem represents_empty : empty.Represents [] := by
  refine ⟨fun place => ?_, fun place => ?_, fun place => ?_, Node.distinct_empty, rfl, rfl⟩
  · cases place with
    | nil => simp [empty, Node.at?]
    | cons key place => simp [empty, Node.at?_empty]
  · cases place <;> rfl
  · cases place <;> rfl

/-- One more insertion. -/
theorem Represents.insert {templates : List Template} {tree : Tree}
    (h : tree.Represents templates) (template : Template) :
    (tree.insert template).Represents (templates ++ [template]) := by
  constructor
  case isSome_at?_iff =>
    intro place
    rw [Tree.insert, Node.isSome_at?_insert, h.isSome_at?_iff, or_assoc]
    simp [or_and_right, exists_or]
  case endings_nodeAt =>
    intro place
    rw [Tree.insert, Node.endings_nodeAt_insert, h.endings_nodeAt, List.filter_append,
      List.map_append]
    by_cases hplace : template.keyPath = place
    · simp [hplace]
    · simp [hplace]
  case keys_nodeAt =>
    intro place
    rw [Tree.insert, Node.keys_nodeAt_insert, h.keys_nodeAt, List.filterMap_append]
    cases hnext : nextKey? place template.keyPath with
    | none => simp [hnext]
    | some key =>
      have hlast : [template].filterMap (fun t => nextKey? place t.keyPath) = [key] :=
        List.filterMap_cons_some hnext
      rw [hlast, eraseDups_append_singleton]
  case distinct => exact h.distinct.insert _ _
  case size_eq => rw [size_insert, h.size_eq, List.length_append, List.length_singleton]
  case length_endings =>
    have hinsert := Node.standings_insert template.ending template.keyPath tree.root
    rw [Tree.insert, ← Node.length_standings, hinsert.length_eq, List.length_cons,
      Node.length_standings, h.length_endings]

theorem represents_ofTemplates (templates : List Template) :
    (ofTemplates templates).Represents templates :=
  ofTemplates_induction (motive := fun ts tree => tree.Represents ts) represents_empty
    (fun _ _ template h => h.insert template) templates

namespace Represents

variable {templates : List Template} {tree : Tree} (h : tree.Represents templates)
include h

theorem nodup_keys (place : List Key) : (tree.root.nodeAt place).keys.Nodup := by
  rw [h.keys_nodeAt]
  exact nodup_eraseDups _

theorem mem_keys_iff (place : List Key) (key : Key) :
    key ∈ (tree.root.nodeAt place).keys ↔ ∃ t ∈ templates, place ++ [key] <+: t.keyPath := by
  rw [h.keys_nodeAt, List.mem_eraseDups, List.mem_filterMap]
  simp only [nextKey?_eq_some_iff]

end Represents

end Tree

/-- A tree that was filled by insertions has a node for each beginning of a key path. Each node has
the templates whose key path ends there, in the order of insertion, and a child for each key with
which a key path goes on, in the order of the first insertion that needed it. The templates of all
nodes, of which each is met once, are as many as the insertions. The key path of a template and its
last kind are where its segments lead to, those without text left out. -/
theorem tree_represents_insertions (templates : List Template) :
    (Tree.ofTemplates templates).Represents templates ∧
      (∀ place, ((Tree.ofTemplates templates).root.nodeAt place).keys.Nodup) ∧
      (∀ place key, key ∈ ((Tree.ofTemplates templates).root.nodeAt place).keys ↔
        ∃ t ∈ templates, place ++ [key] <+: t.keyPath) ∧
      (∀ place node, (place, node) ∈ (Tree.ofTemplates templates).root.nodes ↔
        (Tree.ofTemplates templates).root.at? place = some node) ∧
      ((Tree.ofTemplates templates).root.nodes.map (·.1)).Nodup ∧
      ∀ template : Template, template.segments.foldl Segment.descend ([], .literal) =
        (template.keyPath, template.lastKind) := by
  have h := Tree.represents_ofTemplates templates
  exact ⟨h, h.nodup_keys, h.mem_keys_iff, fun _ _ => Node.mem_nodes_iff h.distinct,
    Node.nodup_nodes h.distinct, Template.foldl_descend⟩

end PathRouter
