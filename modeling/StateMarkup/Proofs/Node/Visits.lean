import StateMarkup.Node.Levels

/-!
# Every node once

The walk of a tree by levels is a reordering of the simpler walk in pre-order: no node is left out
and none comes twice (`Node.breadthFirst_perm`). So what it meets are the nodes that stand somewhere
in the tree, each with its parent (`Node.mem_breadthFirst_iff`).
-/

namespace StateMarkup

universe u

open scoped List in
/-- The levels of two trees side by side have the nodes of both. The order is another one, so this
is the place where the walk turns from an equation into a permutation. -/
theorem flatten_mergeLevels_perm {α : Type u} (left right : List (List α)) :
    (mergeLevels left right).flatten.Perm (left.flatten ++ right.flatten) := by
  fun_induction mergeLevels left right with
  | case1 right => exact .refl _
  | case2 left _ => simp
  | case3 l left r right ih =>
    simp only [List.flatten_cons, List.append_assoc]
    refine .append_left l ?_
    calc
      r ++ (mergeLevels left right).flatten
        ~ r ++ (left.flatten ++ right.flatten) := .append_left r ih
      _ ~ left.flatten ++ (r ++ right.flatten) := List.perm_append_comm_assoc ..

namespace Node

/-- What holds of a node if it holds of its children holds of all nodes. The recursor of `Node` has
a second motive for lists of nodes, which no proof here needs. -/
theorem induct {motive : Node → Prop}
    (node : ∀ n : Node, (∀ child ∈ n.children, motive child) → motive n) : ∀ n, motive n
  | ⟨kind, name, attributes, children⟩ => node _ fun child _ => induct node child

/-! ## The walk in pre-order -/

mutual

/-- The nodes of a tree with their parents, each before what is below it. This walk follows the
tree, so one can argue about it by induction on the tree. -/
def visitsBelow (parent : Option Node) : Node → List Visit
  | ⟨kind, name, attributes, children⟩ =>
    ⟨⟨kind, name, attributes, children⟩, parent⟩ ::
      visitsOfAll (some ⟨kind, name, attributes, children⟩) children

/-- The nodes of several trees, one tree after the other. -/
def visitsOfAll (parent : Option Node) : List Node → List Visit
  | [] => []
  | n :: ns => visitsBelow parent n ++ visitsOfAll parent ns

end

variable (parent : Option Node) (n : Node)

theorem visitsOfAll_eq (ns : List Node) :
    visitsOfAll parent ns = ns.flatMap (visitsBelow parent) := by
  induction ns with
  | nil => rfl
  | cons n ns ih => rw [visitsOfAll, ih, List.flatMap_cons]

/-- The walk in pre-order for a node that is not taken apart. -/
theorem visitsBelow_eq :
    visitsBelow parent n = ⟨n, parent⟩ :: n.children.flatMap (visitsBelow (some n)) := by
  obtain ⟨kind, name, attributes, children⟩ := n
  rw [visitsBelow, visitsOfAll_eq]

/-- The levels for a node that is not taken apart: itself, and then those of its children. -/
theorem levelsBelow_eq :
    levelsBelow parent n = [⟨n, parent⟩] :: levelsOfAll (some n) n.children := by
  obtain ⟨kind, name, attributes, children⟩ := n
  rw [levelsBelow]

/-- If each of several trees has the same nodes in both walks then so have all of them together. -/
theorem flatten_levelsOfAll_perm {ns : List Node}
    (each : ∀ n ∈ ns, (levelsBelow parent n).flatten.Perm (visitsBelow parent n)) :
    (levelsOfAll parent ns).flatten.Perm (ns.flatMap (visitsBelow parent)) := by
  induction ns with
  | nil => exact .refl _
  | cons n ns ih =>
    obtain ⟨first, rest⟩ := List.forall_mem_cons.mp each
    rw [levelsOfAll, List.flatMap_cons]
    exact (flatten_mergeLevels_perm _ _).trans (first.append (ih rest))

/-- Both walks of a tree have the same nodes, by induction on the tree. -/
theorem flatten_levelsBelow_perm :
    (levelsBelow parent n).flatten.Perm (visitsBelow parent n) := by
  induction n using induct generalizing parent with
  | node n ih =>
    rw [levelsBelow_eq, visitsBelow_eq, List.flatten_cons, List.singleton_append]
    exact (flatten_levelsOfAll_perm (some n) fun child hchild => ih child hchild (some n)).cons _

/-- **Every node once.** The walk by levels is a reordering of the walk in pre-order. -/
theorem breadthFirst_perm (root : Node) : root.breadthFirst.Perm (visitsBelow none root) :=
  flatten_levelsBelow_perm none root

/-! ## The first two levels -/

/-- The first level of two trees side by side is that of the one and that of the other. -/
theorem head?_mergeLevels {α : Type u} (left right : List (List α)) :
    (mergeLevels left right).head?.getD [] = left.head?.getD [] ++ right.head?.getD [] := by
  fun_cases mergeLevels left right <;> simp

/-- Below the first level, too, they are side by side. -/
theorem tail_mergeLevels {α : Type u} (left right : List (List α)) :
    (mergeLevels left right).tail = mergeLevels left.tail right.tail := by
  fun_cases mergeLevels left right with
  | case1 => simp [mergeLevels]
  | case2 left => cases left.tail <;> rfl
  | case3 => rfl

/-- The first level of siblings is the siblings. -/
theorem head?_levelsOfAll (ns : List Node) :
    (levelsOfAll parent ns).head?.getD [] = ns.map (⟨·, parent⟩) := by
  induction ns with
  | nil => rfl
  | cons n ns ih => rw [levelsOfAll, head?_mergeLevels, ih, levelsBelow_eq]; rfl

/-- Behind the first level of siblings come their children and what is below these. -/
theorem mem_tail_levelsOfAll {parent : Option Node} {ns : List Node} {v : Visit}
    (hv : v ∈ (levelsOfAll parent ns).tail.flatten) :
    ∃ n ∈ ns, v ∈ (levelsOfAll (some n) n.children).flatten := by
  induction ns with
  | nil => simp [levelsOfAll] at hv
  | cons n ns ih =>
    rw [levelsOfAll, tail_mergeLevels, (flatten_mergeLevels_perm _ _).mem_iff, List.mem_append,
      levelsBelow_eq, List.tail_cons] at hv
    rcases hv with hv | hv
    · exact ⟨n, List.mem_cons_self, hv⟩
    · obtain ⟨m, hm, hv⟩ := ih hv
      exact ⟨m, List.mem_cons_of_mem n hm, hv⟩

/-! ## Somewhere in a tree -/

/-- The second node stands somewhere in the tree of the first, or is that one. This is how all that
is asked of "every node of a tree" is said. -/
inductive Within : Node → Node → Prop where
  | top (n : Node) : Within n n
  | inside {n child m : Node} : child ∈ n.children → Within child m → Within n m

variable {parent n}

/-- A child of a node in a tree is in the tree. -/
theorem Within.child {m child : Node} (within : n.Within m) (hchild : child ∈ m.children) :
    n.Within child := by
  induction within with
  | top n => exact .inside hchild (.top child)
  | inside hfirst _ ih => exact .inside hfirst (ih hchild)

/-- A node that is not the top has a parent. -/
theorem Within.eq_or_exists_parent {m : Node} (within : n.Within m) :
    m = n ∨ ∃ parent, n.Within parent ∧ m ∈ parent.children := by
  induction within with
  | top n => exact .inl rfl
  | @inside n first m hfirst _ ih =>
    rcases ih with rfl | ⟨parent, within, hm⟩
    · exact .inr ⟨n, .top n, hfirst⟩
    · exact .inr ⟨parent, .inside hfirst within, hm⟩

/-- What holds of all nodes of a tree holds of its top and of all nodes of each child. -/
theorem forall_within_iff {p : Node → Prop} :
    (∀ m, n.Within m → p m) ↔ p n ∧ ∀ child ∈ n.children, ∀ m, child.Within m → p m := by
  constructor
  · intro all
    exact ⟨all n (.top n), fun child hchild m within => all m (.inside hchild within)⟩
  · rintro ⟨top, below⟩ m (_ | ⟨hchild, within⟩)
    · exact top
    · exact below _ hchild m within

/-- What the walk in pre-order meets: the top as it is given, or a child of some node of the
tree. -/
theorem mem_visitsBelow_iff {v : Visit} :
    v ∈ visitsBelow parent n ↔ v = ⟨n, parent⟩ ∨
      ∃ m, n.Within m ∧ v.parent = some m ∧ v.node ∈ m.children := by
  constructor
  · intro hv
    -- what is met in the tree of a child is that child, or has its parent further down
    induction n using induct generalizing parent with
    | node n ih =>
      rw [visitsBelow_eq, List.mem_cons, List.mem_flatMap] at hv
      rcases hv with rfl | ⟨child, hchild, hv⟩
      · exact .inl rfl
      · rcases ih child hchild hv with rfl | ⟨m, within, below⟩
        · exact .inr ⟨n, .top n, rfl, hchild⟩
        · exact .inr ⟨m, .inside hchild within, below⟩
  · rintro (rfl | ⟨m, within, above, hv⟩)
    · rw [visitsBelow_eq]
      exact List.mem_cons_self
    · induction within generalizing parent with
      | top n =>
        rw [visitsBelow_eq]
        refine List.mem_cons_of_mem _ (List.mem_flatMap.mpr ⟨v.node, hv, ?_⟩)
        rw [visitsBelow_eq, ← above]
        exact List.mem_cons_self
      | inside hchild _ ih =>
        rw [visitsBelow_eq]
        exact List.mem_cons_of_mem _ (List.mem_flatMap.mpr ⟨_, hchild, ih above hv⟩)

/-- The walk meets the top, and every child of a node of the tree together with its parent. -/
theorem mem_breadthFirst_iff {root : Node} {v : Visit} :
    v ∈ root.breadthFirst ↔ v = ⟨root, none⟩ ∨
      ∃ m, root.Within m ∧ v.parent = some m ∧ v.node ∈ m.children := by
  rw [(breadthFirst_perm root).mem_iff, mem_visitsBelow_iff]

/-- The walk meets the nodes that stand somewhere in the tree. -/
theorem exists_mem_breadthFirst_iff {root m : Node} :
    (∃ v ∈ root.breadthFirst, v.node = m) ↔ root.Within m := by
  constructor
  · rintro ⟨v, hv, rfl⟩
    rcases mem_breadthFirst_iff.mp hv with rfl | ⟨parent, within, -, hchild⟩
    · exact .top root
    · exact within.child hchild
  · intro within
    rcases within.eq_or_exists_parent with rfl | ⟨parent, within, hchild⟩
    · exact ⟨⟨m, none⟩, mem_breadthFirst_iff.mpr (.inl rfl), rfl⟩
    · exact ⟨⟨m, some parent⟩, mem_breadthFirst_iff.mpr (.inr ⟨parent, within, rfl, hchild⟩), rfl⟩

/-- The walk meets the top, its children in their order, and then what is below these. -/
theorem breadthFirst_eq (root : Node) :
    ∃ deeper, root.breadthFirst = ⟨root, none⟩ :: (root.children.map (⟨·, some root⟩) ++ deeper) ∧
      ∀ v ∈ deeper, ∃ child ∈ root.children, ∃ m, child.Within m ∧ v.parent = some m ∧
        v.node ∈ m.children := by
  refine ⟨(levelsOfAll (some root) root.children).tail.flatten, ?_, fun v hv => ?_⟩
  · rw [breadthFirst, levels, levelsBelow_eq, ← head?_levelsOfAll]
    cases levelsOfAll (some root) root.children <;> simp
  · obtain ⟨child, hchild, hv⟩ := mem_tail_levelsOfAll hv
    rw [(flatten_levelsOfAll_perm (some child) fun n _ => flatten_levelsBelow_perm _ n).mem_iff,
      List.mem_flatMap] at hv
    obtain ⟨n, hn, hv⟩ := hv
    rcases mem_visitsBelow_iff.mp hv with rfl | ⟨m, within, above, hm⟩
    · exact ⟨child, hchild, child, .top child, rfl, hn⟩
    · exact ⟨child, hchild, m, .inside hn within, above, hm⟩

/-- What is asked of every node of a tree can be decided on a walk. -/
instance {p : Node → Prop} [DecidablePred p] {root : Node} :
    Decidable (∀ m, root.Within m → p m) :=
  decidable_of_iff (∀ v ∈ root.breadthFirst, p v.node) (by simp [← exists_mem_breadthFirst_iff])

end Node

end StateMarkup
