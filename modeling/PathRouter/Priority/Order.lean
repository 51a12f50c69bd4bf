import PathRouter.Priority.Tree

/-!
# The canonical order

The tree is read depth first, so that a template comes before those that would serve its paths as
well. At a node three groups are put together: the templates that end here, except for catch-alls;
the literal children in the order of their texts; the children under the dynamic slot. Catch-alls
that end here come last, since they serve everything below. An optional catch-all serves everything
below it and its own place too, so it moves the templates that end here behind the children, and
one in the slot moves them behind the literal children.
-/
namespace PathRouter

/-- What a child contributes to the order at its parent. -/
structure Block (α : Type) where
  key : Key
  /-- Whether an optional catch-all ends at the child. -/
  endsOptionally : Bool
  routes : List α

namespace Block

variable {α : Type}

/-- The text of a literal child and what it contributes. -/
def literal? : Block α → Option (String × List α)
  | ⟨.literal text, _, routes⟩ => some (text, routes)
  | ⟨.slot, _, _⟩ => none

/-- What the literal children contribute, in the order of their texts. -/
def literals (blocks : List (Block α)) : List (String × List α) :=
  (blocks.filterMap literal?).mergeSort fun a b => a.1 ≤ b.1

def literalRoutes (blocks : List (Block α)) : List α := (literals blocks).flatMap (·.2)

def slot? (blocks : List (Block α)) : Option (Block α) := blocks.find? (·.key == .slot)

def slotRoutes (blocks : List (Block α)) : List α := ((slot? blocks).map (·.routes)).getD []

/-- Whether an optional catch-all ends in the slot. -/
def slotEndsOptionally (blocks : List (Block α)) : Bool := (slot? blocks).any (·.endsOptionally)

end Block

namespace Ending

/-- The templates that end at a node, except for catch-alls, in the order of their ranks. -/
def own (endings : List Ending) : List Ending :=
  (endings.mergeSort notAfter).filter (·.kind != .catchAll)

/-- The catch-alls that end at a node. -/
def trailing (endings : List Ending) : List Ending :=
  (endings.mergeSort notAfter).filter (·.kind == .catchAll)

end Ending

/-- The order at a node with these templates, each put down as `emit` says, and these children's
blocks. -/
def arrange {α : Type} (emit : Ending → α) (endings : List Ending) (blocks : List (Block α)) :
    List α :=
  let own := (Ending.own endings).map emit
  let trailing := (Ending.trailing endings).map emit
  let literal := Block.literalRoutes blocks
  let slot := Block.slotRoutes blocks
  if endings.any (·.kind == .optionalCatchAll) then literal ++ slot ++ own ++ trailing
  else if Block.slotEndsOptionally blocks then literal ++ own ++ slot ++ trailing
  else own ++ literal ++ slot ++ trailing

namespace Node

mutual

/-- The templates at and below a node, in canonical order. -/
def flatten : Node → List String
  | ⟨endings, children⟩ => arrange (·.raw) endings (blocks children)
termination_by structural node => node

def blocks : List (Key × Node) → List (Block String)
  | [] => []
  | (key, child) :: rest => ⟨key, child.endsOptionally, child.flatten⟩ :: blocks rest
termination_by structural children => children

end

end Node

def Tree.flatten (tree : Tree) : List String := tree.root.flatten

/-- Puts routes that have been read into canonical order. -/
def canonicalOrder (templates : List Template) : List String :=
  (Tree.ofTemplates templates).flatten

end PathRouter
