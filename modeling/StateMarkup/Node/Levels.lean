import StateMarkup.Node

/-!
# A tree level by level

`Node.levels` lists the nodes of a tree, each with its parent, one level after the other and from
left to right in each of them. `Node.breadthFirst` is the same as one list.
-/

namespace StateMarkup

universe u

/-- A node and the node it is a child of; the top has none. -/
structure Visit where
  node : Node
  parent : Option Node
deriving Repr

/-- Puts the levels of one tree before those of another. -/
def mergeLevels {α : Type u} : List (List α) → List (List α) → List (List α)
  | [], right => right
  | left, [] => left
  | l :: left, r :: right => (l ++ r) :: mergeLevels left right

namespace Node

mutual

/-- The levels of a tree whose top has the given parent. -/
def levelsBelow (parent : Option Node) : Node → List (List Visit)
  | ⟨kind, name, attributes, children⟩ =>
    [⟨⟨kind, name, attributes, children⟩, parent⟩] ::
      levelsOfAll (some ⟨kind, name, attributes, children⟩) children

/-- The levels of siblings, side by side. -/
def levelsOfAll (parent : Option Node) : List Node → List (List Visit)
  | [] => []
  | n :: ns => mergeLevels (levelsBelow parent n) (levelsOfAll parent ns)

end

/-- The levels of a tree, from the top down. -/
def levels (root : Node) : List (List Visit) := levelsBelow none root

/-- The nodes of a tree with their parents, level after level. -/
def breadthFirst (root : Node) : List Visit := root.levels.flatten

end Node

end StateMarkup
