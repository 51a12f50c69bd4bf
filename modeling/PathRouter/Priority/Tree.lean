import PathRouter.Bindings
import PathRouter.Priority.Key

/-!
# The priority tree

Templates by key path: a node for every beginning of a key path, and at each node the templates
whose key path ends there. Nodes keep their templates and children in the order in which they
came, so that what the tree holds can be shown; the canonical order does not depend on it.
-/
namespace PathRouter

/-- A node: the templates that end here, and bindings of a child to each key that goes on. -/
structure Node where
  endings : List Ending
  children : List (Key × Node)

namespace Node

def empty : Node := ⟨[], []⟩

/-- Adds a template where the key path leads, with new nodes where there are none yet. -/
def insert (ending : Ending) : List Key → Node → Node
  | [], node => { node with endings := node.endings ++ [ending] }
  | key :: path, node =>
    { node with
      children :=
        Bindings.alter key (fun child? => insert ending path (child?.getD empty)) node.children }

def child? (key : Key) (node : Node) : Option Node := Bindings.value? key node.children

/-- The node that a key path leads to. -/
def at? : List Key → Node → Option Node
  | [], node => some node
  | key :: path, node => (node.child? key).bind (at? path)

/-- Whether a template that ends here ends in an optional catch-all. -/
def endsOptionally (node : Node) : Bool := node.endings.any (·.kind == .optionalCatchAll)

def keys (node : Node) : List Key := Bindings.keys node.children

/-- The children under literal keys, in the order of their texts. -/
def literals (node : Node) : List (String × Node) :=
  (node.children.filterMap fun
    | (.literal text, child) => some (text, child)
    | (.slot, _) => none).mergeSort fun a b => a.1 ≤ b.1

@[simp] theorem insert_nil (ending : Ending) (node : Node) :
    node.insert ending [] = { node with endings := node.endings ++ [ending] } := rfl

theorem child?_insert (ending : Ending) (key : Key) (path : List Key) (node : Node) (k : Key) :
    (node.insert ending (key :: path)).child? k =
      if k = key then some (((node.child? key).getD empty).insert ending path)
      else node.child? k :=
  Bindings.value?_alter _ _ _ _

end Node

/-- A priority tree, with the number of insertions. -/
structure Tree where
  root : Node
  size : Nat

namespace Tree

def empty : Tree := ⟨.empty, 0⟩

def insert (template : Template) (tree : Tree) : Tree :=
  ⟨tree.root.insert template.ending template.keyPath, tree.size + 1⟩

def ofTemplates (templates : List Template) : Tree :=
  templates.foldl (fun tree template => tree.insert template) empty

@[simp] theorem size_insert (template : Template) (tree : Tree) :
    (tree.insert template).size = tree.size + 1 := rfl

theorem size_ofTemplates (templates : List Template) :
    (ofTemplates templates).size = templates.length := by
  suffices h : ∀ tree : Tree, (templates.foldl (fun tree template => tree.insert template)
      tree).size = tree.size + templates.length by
    simpa [ofTemplates, empty] using h empty
  induction templates with
  | nil => simp
  | cons template rest ih =>
    intro tree
    simp only [List.foldl_cons, ih, size_insert, List.length_cons]
    omega

end Tree

end PathRouter
