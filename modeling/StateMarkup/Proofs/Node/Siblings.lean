import Mathlib.Data.List.Perm.Basic
import StateMarkup.Proofs.Node.Paths

/-!
# Siblings in another order

`Node.Reordered` says that two trees differ in the order of siblings only, at any depth. The levels
of such trees have the same nodes, each in an element of the same name, in another order
(`Node.Reordered.sameLevels`). And any node can be brought to the front of its level
(`Node.exists_reordered_first`).
-/

namespace StateMarkup

namespace Node

/-- The second tree is the first with the children of some of its nodes in another order. The
children are reordered themselves first, one by one, and then put in another order, so one
constructor does for every depth. -/
inductive Reordered : Node → Node → Prop where
  | mk {children between children' : List Node} (kind : NodeKind) (name : String)
      (attributes : List Attribute) : List.Forall₂ Reordered children between →
      between.Perm children' →
      Reordered ⟨kind, name, attributes, children⟩ ⟨kind, name, attributes, children'⟩

/-- What is seen of a node from below. -/
def label (n : Node) : NodeKind × String := (n.kind, n.name)

namespace Reordered

variable {n m : Node}

/-- A tree may stay as it is. -/
theorem refl (n : Node) : n.Reordered n := by
  induction n using induct with
  | node n ih =>
    obtain ⟨kind, name, attributes, children⟩ := n
    exact .mk kind name attributes (List.forall₂_same.mpr ih) (.refl children)

theorem kind_eq (reordered : n.Reordered m) : n.kind = m.kind := by
  cases reordered
  rfl

theorem name_eq (reordered : n.Reordered m) : n.name = m.name := by
  cases reordered
  rfl

/-- What is seen of a node from below does not change when its tree is reordered. -/
theorem label_eq (reordered : n.Reordered m) : n.label = m.label :=
  Prod.ext reordered.kind_eq reordered.name_eq

theorem children (reordered : n.Reordered m) :
    ∃ between, List.Forall₂ Reordered n.children between ∧ between.Perm m.children := by
  cases reordered with
  | mk _ _ _ each perm => exact ⟨_, each, perm⟩

/-- A child, reordered itself, may come first. -/
theorem toFront {child child' : Node} {before after : List Node}
    (children : n.children = before ++ child :: after) (reordered : child.Reordered child') :
    n.Reordered { n with children := child' :: (before ++ after) } := by
  obtain ⟨kind, name, attributes, _⟩ := n
  obtain rfl : _ = before ++ child :: after := children
  have same (ns : List Node) : List.Forall₂ Reordered ns ns :=
    List.forall₂_same.mpr fun n _ => refl n
  exact .mk kind name attributes (List.rel_append (same before) (.cons reordered (same after)))
    List.perm_middle

end Reordered

end Node

/-! ## Levels -/

/-- Two nodes that are met in elements that look the same, and differ in what stands below them only
by its order. No rule looks at more of a parent than its kind and its name. -/
structure Visit.Alike (v w : Visit) : Prop where
  node : v.node.Reordered w.node
  parent : v.parent.map Node.label = w.parent.map Node.label

/-- The same nodes in another order. -/
def SameLevel (level level' : List Visit) : Prop :=
  ∃ between, List.Forall₂ Visit.Alike level between ∧ between.Perm level'

namespace SameLevel

variable {level level' more more' : List Visit}

theorem nil : SameLevel [] [] := ⟨[], .nil, .nil⟩

theorem append (same : SameLevel level level') (same_more : SameLevel more more') :
    SameLevel (level ++ more) (level' ++ more') := by
  obtain ⟨between, alike, perm⟩ := same
  obtain ⟨between_more, alike_more, perm_more⟩ := same_more
  exact ⟨between ++ between_more, List.rel_append alike alike_more, perm.append perm_more⟩

/-- What is told of alike nodes is told of both levels. With this a statement about two trees comes
down to one about two nodes. -/
theorem flatMap_perm {α : Type} {f : Visit → List α}
    (told : ∀ v w : Visit, v.Alike w → (f v).Perm (f w)) (same : SameLevel level level') :
    (level.flatMap f).Perm (level'.flatMap f) := by
  obtain ⟨between, alike, perm⟩ := same
  refine .trans ?_ (perm.flatMap_right f)
  clear perm
  induction alike with
  | nil => exact .refl _
  | cons alike _ ih =>
    rw [List.flatMap_cons, List.flatMap_cons]
    exact (told _ _ alike).append ih

/-- What holds of some node on a level holds of some node on the other. -/
theorem exists_mem_iff {p : Visit → Prop} (told : ∀ v w : Visit, v.Alike w → (p v ↔ p w))
    (same : SameLevel level level') : (∃ v ∈ level, p v) ↔ ∃ v ∈ level', p v := by
  obtain ⟨between, alike, perm⟩ := same
  simp only [← perm.mem_iff]
  clear perm
  induction alike with
  | nil => rfl
  | cons alike _ ih => simp only [List.mem_cons, exists_eq_or_imp, told _ _ alike, ih]

/-- What stands below two levels is the same if the levels are. -/
theorem below (same : SameLevel level level') :
    SameLevel (level.flatMap Visit.below) (level'.flatMap Visit.below) := by
  obtain ⟨between, alike, perm⟩ := same
  suffices deeper : SameLevel (level.flatMap Visit.below) (between.flatMap Visit.below) by
    obtain ⟨between_below, alike_below, perm_below⟩ := deeper
    exact ⟨between_below, alike_below, perm_below.trans (perm.flatMap_right _)⟩
  clear perm
  induction alike with
  | nil => exact .nil
  | @cons v w _ _ alike _ ih =>
    rw [List.flatMap_cons, List.flatMap_cons]
    obtain ⟨children, each, perm⟩ := alike.node.children
    refine .append ⟨children.map (⟨·, some w.node⟩), ?_, perm.map _⟩ ih
    rw [Visit.below, List.forall₂_map_left_iff, List.forall₂_map_right_iff]
    exact each.imp fun _ _ reordered => ⟨reordered, congrArg some alike.node.label_eq⟩

/-- Below the same nodes there are the same nodes on every level. The induction is on the levels,
not on the trees, since each level is made of the one above it by `levelsOf_eq`. -/
theorem levelsOf {tops tops' : List Visit} (same : SameLevel tops tops') :
    List.Forall₂ SameLevel (levelsOf tops) (levelsOf tops') := by
  -- one level less at every step
  induction levels : StateMarkup.levelsOf tops generalizing tops tops' with
  | nil =>
    cases tops with
    | nil =>
      obtain ⟨_, ⟨⟩, perm⟩ := same
      rw [perm.nil_eq.symm]
      exact .nil
    | cons v tops =>
      rw [levelsOf_eq] at levels
      cases levels
  | cons level deeper ih =>
    cases tops with
    | nil => cases levels
    | cons v tops =>
      rw [levelsOf_eq] at levels
      obtain ⟨rfl, rfl⟩ := List.cons.inj levels
      cases tops' with
      | nil =>
        obtain ⟨_, alike, perm⟩ := same
        rw [perm.eq_nil] at alike
        cases alike
      | cons w tops' =>
        rw [levelsOf_eq]
        exact .cons same (ih same.below rfl)

end SameLevel

namespace Node

variable {root root' : Node}

theorem levels_eq_levelsOf (root : Node) : root.levels = levelsOf [⟨root, none⟩] := by
  rw [levelsOf_cons, levelsOf, List.foldr_nil, mergeLevels_nil_right, levels]

/-- **Reordered trees have the same levels**, each in another order. All that follows about two
orders of the siblings goes through this. -/
theorem Reordered.sameLevels (reordered : root.Reordered root') :
    List.Forall₂ SameLevel root.levels root'.levels := by
  rw [levels_eq_levelsOf, levels_eq_levelsOf]
  exact SameLevel.levelsOf ⟨[⟨root', none⟩], .cons ⟨reordered, rfl⟩ .nil, .refl _⟩

/-! ## One level -/

/-- The nodes of the depth. -/
def levelAt (root : Node) (depth : Nat) : List Visit := root.levels.getD depth []

/-- The nodes of smaller depths. -/
def above (root : Node) (depth : Nat) : List Visit := (root.levels.take depth).flatten

/-- What is above a depth: what is above the one before, and the level of that. -/
theorem above_succ (root : Node) (depth : Nat) :
    root.above (depth + 1) = root.above depth ++ root.levelAt depth := by
  rw [above, above, levelAt, List.take_add_one, List.flatten_append, List.getD_eq_getElem?_getD]
  cases root.levels[depth]? <;> simp

theorem above_length (root : Node) : root.above root.levels.length = root.breadthFirst := by
  rw [above, List.take_length, breadthFirst]

namespace Reordered

/-- The level of a depth is the same in both trees but for its order; below the last one, both are
empty. -/
theorem sameLevel (reordered : root.Reordered root') (depth : Nat) :
    SameLevel (root.levelAt depth) (root'.levelAt depth) := by
  have levels := reordered.sameLevels
  unfold levelAt
  generalize root.levels = levels, root'.levels = levels' at levels
  induction levels generalizing depth with
  | nil => exact .nil
  | cons same _ ih =>
    cases depth with
    | zero => exact same
    | succ depth => exact ih depth

/-- So all that is above a depth is the same but for the order. Since the walk goes level by level,
this is what has been met when it comes to the level. -/
theorem sameLevel_above (reordered : root.Reordered root') (depth : Nat) :
    SameLevel (root.above depth) (root'.above depth) := by
  induction depth with
  | zero => exact .nil
  | succ depth ih =>
    rw [above_succ, above_succ]
    exact ih.append (reordered.sameLevel depth)

theorem length_levels (reordered : root.Reordered root') :
    root.levels.length = root'.levels.length := reordered.sameLevels.length_eq

/-- The two walks meet the same nodes, each in its own order. -/
theorem sameLevel_breadthFirst (reordered : root.Reordered root') :
    SameLevel root.breadthFirst root'.breadthFirst := by
  rw [← above_length, ← above_length, ← reordered.length_levels]
  exact reordered.sameLevel_above _

end Reordered

/-! ## To the front of a level -/

/-- A level of two trees side by side is that of the one and then that of the other. A tree that is
not as deep has nothing there. -/
theorem getD_mergeLevels {α : Type} (left right : List (List α)) (depth : Nat) :
    (mergeLevels left right).getD depth [] = left.getD depth [] ++ right.getD depth [] := by
  induction depth generalizing left right with
  | zero => fun_cases mergeLevels left right <;> simp
  | succ depth ih =>
    fun_cases mergeLevels left right with
    | case1 => simp
    | case2 => simp
    | case3 l left r right => exact ih left right

/-- What is on a level of siblings is on that level of one of them. -/
theorem mem_getD_levelsOfAll {parent : Option Node} {ns : List Node} {depth : Nat} {v : Visit}
    (hv : v ∈ (levelsOfAll parent ns).getD depth []) :
    ∃ n ∈ ns, v ∈ (levelsBelow parent n).getD depth [] := by
  induction ns with
  | nil => simp [levelsOfAll] at hv
  | cons n ns ih =>
    rw [levelsOfAll, getD_mergeLevels, List.mem_append] at hv
    rcases hv with hv | hv
    · exact ⟨n, List.mem_cons_self, hv⟩
    · obtain ⟨m, hm, hv⟩ := ih hv
      exact ⟨m, List.mem_cons_of_mem n hm, hv⟩

/-- In some order of the siblings a node of a tree comes first on its level, whatever the tree
stands in. The induction is on the tree: the child with the node in it is reordered and brought to
the front, so that its levels come before those of the others. -/
theorem exists_reordered_below {n : Node} {parent : Option Node} {depth : Nat} {v : Visit}
    (hv : v ∈ (levelsBelow parent n).getD depth []) :
    ∃ n', n.Reordered n' ∧ ∀ parent' : Option Node, parent.map label = parent'.map label →
      ∃ w, ((levelsBelow parent' n').getD depth []).head? = some w ∧ v.Alike w := by
  induction n using induct generalizing parent depth with
  | node n ih =>
    rw [levelsBelow_eq] at hv
    cases depth with
    | zero =>
      obtain rfl : v = ⟨n, parent⟩ := List.mem_singleton.mp hv
      refine ⟨n, .refl n, fun parent' same => ⟨⟨n, parent'⟩, ?_, .refl n, same⟩⟩
      rw [levelsBelow_eq]
      rfl
    | succ depth =>
      obtain ⟨child, hchild, hv⟩ := mem_getD_levelsOfAll hv
      obtain ⟨child', reordered, first⟩ := ih child hchild hv
      obtain ⟨before, after, children⟩ := List.append_of_mem hchild
      -- the levels of the first child come before those of its siblings
      have front := Reordered.toFront children reordered
      refine ⟨_, front, fun parent' _ => ?_⟩
      obtain ⟨w, first, alike⟩ := first (some _) (congrArg some front.label_eq)
      refine ⟨w, ?_, alike⟩
      rw [levelsBelow_eq, List.getD_cons_succ, levelsOfAll, getD_mergeLevels, List.head?_append,
        first, Option.some_or]

/-- **Any node comes first on its level** in some order of the siblings. So does one that refers to
what its own level declares, and then it comes too early. -/
theorem exists_reordered_first {depth : Nat} {v : Visit} (hv : v ∈ root.levelAt depth) :
    ∃ root' w rest, root.Reordered root' ∧ root'.levelAt depth = w :: rest ∧ v.Alike w := by
  obtain ⟨root', reordered, first⟩ := exists_reordered_below hv
  obtain ⟨w, first, alike⟩ := first none rfl
  obtain ⟨rest, level⟩ := List.head?_eq_some_iff.mp first
  exact ⟨root', w, rest, reordered, level, alike⟩

end Node

end StateMarkup
