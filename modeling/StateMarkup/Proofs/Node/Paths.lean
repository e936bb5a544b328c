import Mathlib.Data.List.Nodup
import StateMarkup.Proofs.Node.Visits

/-!
# Every place once, and the higher ones first

Two nodes of a tree may be equal, so where a node stands is said by its path. `Node.IsLevel` lists
the paths of one length with what stands there, and one level gives the next (`IsLevel.below`).

The levels of a tree are put together from those of its children, but they can be walked the other
way as well: with a level read, its children are the next one (`Walks`). So the walk goes through
all paths of the tree, to each of them once and to the shorter ones first
(`Node.exists_paths_breadthFirst`).
-/

namespace StateMarkup

universe u

/-- What is met below a node that is met: its children, each with the node as its parent. -/
def Visit.below (v : Visit) : List Visit := v.node.children.map (⟨·, some v.node⟩)

/-! ## From one level to the next -/

section

variable {α : Type u}

theorem mergeLevels_nil_right (left : List (List α)) : mergeLevels left [] = left := by
  cases left <;> rfl

/-- Three trees beside each other have the same levels however they are grouped. The induction
follows the two outer lists of levels as they get shorter together. -/
theorem mergeLevels_assoc (a b c : List (List α)) :
    mergeLevels (mergeLevels a b) c = mergeLevels a (mergeLevels b c) := by
  induction a generalizing b c with
  | nil => rfl
  | cons a as ih =>
    cases b with
    | nil => rfl
    | cons b bs =>
      cases c with
      | nil => rfl
      | cons c cs => simp [mergeLevels, ih]

end

/-- The levels of several trees, given by their tops, side by side. -/
def levelsOf (tops : List Visit) : List (List Visit) :=
  tops.foldr (fun v => mergeLevels (Node.levelsBelow v.parent v.node)) []

theorem levelsOf_cons (v : Visit) (tops : List Visit) :
    levelsOf (v :: tops) = mergeLevels (Node.levelsBelow v.parent v.node) (levelsOf tops) := rfl

/-- The levels of two groups of trees are those of all of them together. -/
theorem levelsOf_append (left right : List Visit) :
    levelsOf (left ++ right) = mergeLevels (levelsOf left) (levelsOf right) := by
  induction left with
  | nil => rfl
  | cons v left ih => rw [List.cons_append, levelsOf_cons, ih, levelsOf_cons, mergeLevels_assoc]

/-- Siblings are trees side by side, with the same node above all of them. -/
theorem Node.levelsOfAll_eq (parent : Option Node) (ns : List Node) :
    levelsOfAll parent ns = levelsOf (ns.map (⟨·, parent⟩)) := by
  induction ns with
  | nil => rfl
  | cons n ns ih => rw [levelsOfAll, ih, List.map_cons, levelsOf_cons]

/-- Below a top come the levels of its children. This is the equation by which a tree is put
together; `levelsOf_eq` turns it into one that goes level by level. -/
theorem Visit.levels_eq (v : Visit) :
    Node.levelsBelow v.parent v.node = [v] :: levelsOf v.below := by
  rw [Node.levelsBelow_eq, Node.levelsOfAll_eq, below]

/-- **Below the tops come their children.** The first level of several trees is their tops and the
others are the levels of the children of all of them, so the walk can go on with these as its new
tops. -/
theorem levelsOf_eq (v : Visit) (tops : List Visit) :
    levelsOf (v :: tops) = (v :: tops) :: levelsOf ((v :: tops).flatMap Visit.below) := by
  induction tops generalizing v with
  | nil =>
    have alone : [v].flatMap Visit.below = v.below := List.flatMap_singleton ..
    rw [alone, levelsOf_cons, Visit.levels_eq]
    exact mergeLevels_nil_right _
  | cons w tops ih =>
    rw [levelsOf_cons, ih, Visit.levels_eq, mergeLevels, ← levelsOf_append, ← List.flatMap_cons]
    rfl

/-- **The walk, level by level**: what is met from a level on. What comes behind a level is
determined by that level alone, which makes it possible to speak of the walk without its trees. -/
inductive Walks : List Visit → List Visit → Prop where
  | done : Walks [] []
  | level {level deeper : List Visit} : Walks (level.flatMap Visit.below) deeper →
      Walks level (level ++ deeper)

/-- The levels of several trees, one behind the other, are such a walk. Trees have finitely many
levels and `levelsOf_eq` takes one away, so the induction is on the levels and not on the trees. -/
theorem walks_flatten_levelsOf (tops : List Visit) : Walks tops (levelsOf tops).flatten := by
  -- one level less at every step
  induction levels : levelsOf tops generalizing tops with
  | nil =>
    cases tops with
    | nil => exact .done
    | cons v tops =>
      rw [levelsOf_eq] at levels
      cases levels
  | cons level deeper ih =>
    cases tops with
    | nil => cases levels
    | cons v tops =>
      rw [levelsOf_eq] at levels
      obtain ⟨rfl, rfl⟩ := List.cons.inj levels
      exact .level (ih _ rfl)

namespace Node

/-- The nodes of a tree are met level by level, from its top on. -/
theorem walks_breadthFirst (root : Node) : Walks [⟨root, none⟩] root.breadthFirst := by
  have walks := walks_flatten_levelsOf [⟨root, none⟩]
  rwa [levelsOf_cons, levelsOf, List.foldr_nil, mergeLevels_nil_right] at walks

/-! ## Paths -/

variable {root : Node} {path : List Nat}

/-- To follow a path and then another is to follow the one made of both. -/
theorem at?_append (n : Node) (path more : List Nat) :
    n.at? (path ++ more) = (n.at? path).bind (·.at? more) := by
  induction path generalizing n with
  | nil => rfl
  | cons i path ih =>
    rw [List.cons_append, at?, at?]
    cases n.children[i]? with
    | none => rfl
    | some child => exact ih child

/-- The last step of a path goes to a child of what stands at the path before. -/
theorem at?_concat (root : Node) (path : List Nat) (i : Nat) :
    root.at? (path ++ [i]) = (root.at? path).bind (·.children[i]?) := by
  rw [at?_append]
  refine congrArg _ (funext fun n => ?_)
  rw [at?]
  cases n.children[i]? <;> rfl

/-- The node above what stands at a path. The top has none. -/
def parentAt? (root : Node) : List Nat → Option Node
  | [] => none
  | i :: path => root.at? (i :: path).dropLast

@[simp] theorem parentAt?_nil (root : Node) : root.parentAt? [] = none := rfl

/-- The node above a child is the one that the child is found in. -/
@[simp] theorem parentAt?_concat (root : Node) (path : List Nat) (i : Nat) :
    root.parentAt? (path ++ [i]) = root.at? path := by
  cases path with
  | nil => rfl
  | cons j path =>
    rw [List.cons_append, parentAt?, ← List.cons_append, List.dropLast_concat]

/-- Whatever has a parent stands at a path with a last step, and the parent stands one step
before. -/
theorem parentAt?_eq_some_iff {root parent : Node} {path : List Nat} :
    root.parentAt? path = some parent ↔
      ∃ above i, path = above ++ [i] ∧ root.at? above = some parent := by
  rcases List.eq_nil_or_concat path with rfl | ⟨above, i, rfl⟩
  · simp
  · simp only [List.concat_eq_append, parentAt?_concat, List.append_singleton_inj]
    exact ⟨fun there => ⟨above, i, ⟨rfl, rfl⟩, there⟩, fun ⟨_, _, ⟨h, _⟩, there⟩ => h ▸ there⟩

/-- What a walk meets at a path: what stands there, with the node above it. -/
def visitAt? (root : Node) (path : List Nat) : Option Visit :=
  (root.at? path).map (⟨·, root.parentAt? path⟩)

/-- The two parts of a visit, each by its own look-up. -/
theorem visitAt?_eq_some_iff {v : Visit} :
    root.visitAt? path = some v ↔ root.at? path = some v.node ∧ root.parentAt? path = v.parent := by
  obtain ⟨node, parent⟩ := v
  rw [visitAt?, Option.map_eq_some_iff]
  refine ⟨?_, ?_⟩
  · rintro ⟨n, there, ⟨⟩⟩
    exact ⟨there, rfl⟩
  · rintro ⟨there, rfl⟩
    exact ⟨node, there, rfl⟩

theorem isSome_at?_of_visitAt?_eq_some {v : Visit} (there : root.visitAt? path = some v) :
    (root.at? path).isSome = true := by
  rw [(visitAt?_eq_some_iff.mp there).1]
  rfl

/-- The paths that are one step longer and lead somewhere, one for each child. -/
def pathsBelow (root : Node) (path : List Nat) : List (List Nat) :=
  (List.range ((root.at? path).elim 0 (·.children.length))).map (path ++ [·])

/-- A path is one of those if it is one step longer and leads to a node. That there are children
enough for the step is said by the node. -/
theorem mem_pathsBelow_iff {longer : List Nat} :
    longer ∈ root.pathsBelow path ↔
      ∃ i, longer = path ++ [i] ∧ (root.at? longer).isSome = true := by
  rw [pathsBelow, List.mem_map]
  refine ⟨?_, ?_⟩
  · rintro ⟨i, inside, rfl⟩
    refine ⟨i, rfl, ?_⟩
    rw [at?_concat]
    cases there : root.at? path with
    | none => simp [there] at inside
    | some n => simpa [there] using inside
  · rintro ⟨i, rfl, there⟩
    refine ⟨i, ?_, rfl⟩
    rw [at?_concat] at there
    cases above : root.at? path with
    | none => simp [above] at there
    | some n => simpa [above] using there

/-- What is met at these paths are the children, in their order: the same as `Visit.below` says
without paths. This is where the two ways to speak about the next level meet. -/
theorem map_visitAt?_pathsBelow (root : Node) (path : List Nat) :
    (root.pathsBelow path).map root.visitAt? =
      (root.visitAt? path).elim [] (fun v => v.below.map some) := by
  rw [pathsBelow, List.map_map]
  cases there : root.at? path with
  | none => simp [visitAt?, there]
  | some n =>
    refine List.ext_getElem (by simp [visitAt?, there, Visit.below]) fun i inside _ => ?_
    have inside : i < n.children.length := by simpa [there] using inside
    simp [visitAt?, at?_concat, there, Visit.below, inside]

/-- No path is listed twice, since their last steps are different. -/
theorem nodup_pathsBelow (root : Node) (path : List Nat) : (root.pathsBelow path).Nodup :=
  List.nodup_range.map fun _ _ same => by simpa using same

/-! ## Levels -/

/-- **A level of a tree**: the paths of one length, each once, and what is met there. Nodes may be
equal where paths are not, so it is the paths that are said to be distinct. -/
structure IsLevel (root : Node) (depth : Nat) (paths : List (List Nat)) (visits : List Visit) :
    Prop where
  nodup : paths.Nodup
  mem_iff : ∀ path, path ∈ paths ↔ path.length = depth ∧ (root.at? path).isSome = true
  met : paths.map root.visitAt? = visits.map some

namespace IsLevel

variable {depth : Nat} {paths : List (List Nat)} {visits : List Visit}

/-- The top is the level of the empty path. -/
theorem top (root : Node) : root.IsLevel 0 [[]] [⟨root, none⟩] where
  nodup := List.nodup_singleton _
  mem_iff path := by
    rw [List.mem_singleton, List.length_eq_zero_iff]
    refine ⟨?_, And.left⟩
    rintro rfl
    exact ⟨rfl, rfl⟩
  met := rfl

/-- The children of all nodes on a level are the next level. Each path has its own longer ones, so
none is listed twice; and a path of the next length is one of this length with a step more. -/
theorem below (level : root.IsLevel depth paths visits) :
    root.IsLevel (depth + 1) (paths.flatMap root.pathsBelow) (visits.flatMap Visit.below) where
  nodup := by
    refine List.nodup_flatMap.mpr ⟨fun path _ => root.nodup_pathsBelow path,
      level.nodup.imp fun {path other} apart => ?_⟩
    rw [Function.onFun_apply, List.disjoint_left]
    intro longer here there
    obtain ⟨i, rfl, -⟩ := mem_pathsBelow_iff.mp here
    obtain ⟨j, same, -⟩ := mem_pathsBelow_iff.mp there
    exact apart (List.append_inj_left' same rfl)
  mem_iff path := by
    rw [List.mem_flatMap]
    refine ⟨?_, ?_⟩
    · rintro ⟨above, on_level, here⟩
      obtain ⟨i, rfl, there⟩ := mem_pathsBelow_iff.mp here
      exact ⟨by simp [((level.mem_iff above).mp on_level).1], there⟩
    · rintro ⟨long, there⟩
      rcases List.eq_nil_or_concat path with rfl | ⟨above, i, rfl⟩
      · cases long
      · rw [List.concat_eq_append] at long there ⊢
        refine ⟨above, (level.mem_iff above).mpr ⟨by simpa using long, ?_⟩,
          mem_pathsBelow_iff.mpr ⟨i, rfl, there⟩⟩
        -- whatever has a node below it is a node
        rw [at?_concat] at there
        exact Option.isSome_of_isSome_bind there
  met := by
    have children : (paths.flatMap root.pathsBelow).map root.visitAt? =
        (paths.map root.visitAt?).flatMap fun v? => v?.elim [] fun v => v.below.map some := by
      rw [List.map_flatMap, List.flatMap_map]
      exact congrArg (paths.flatMap ·) (funext root.map_visitAt?_pathsBelow)
    rw [children, level.met, List.flatMap_map, List.map_flatMap]
    rfl

/-- **From a level on, the walk goes through all longer paths**, to each once and to the shorter
ones first. The induction is on the walk: one step of it is `IsLevel.below`, and the paths of a
level are shorter than all that come behind it. -/
theorem walks (level : root.IsLevel depth paths visits) {walk : List Visit}
    (walks : Walks visits walk) :
    ∃ all : List (List Nat), all.Nodup ∧
      (∀ path, path ∈ all ↔ depth ≤ path.length ∧ (root.at? path).isSome = true) ∧
      all.Pairwise (·.length ≤ ·.length) ∧ all.map root.visitAt? = walk.map some := by
  induction walks generalizing depth paths with
  | done =>
    refine ⟨[], .nil, fun path => ⟨nofun, ?_⟩, .nil, rfl⟩
    rintro ⟨long, there⟩
    -- a longer path has a start on the level, where nothing is left
    have start : path.take depth ∈ paths := by
      refine (level.mem_iff _).mpr ⟨List.length_take_of_le long, ?_⟩
      rw [← List.take_append_drop depth path, at?_append] at there
      exact Option.isSome_of_isSome_bind there
    simp [List.map_eq_nil_iff.mp level.met] at start
  | @level visits deeper _ ih =>
    obtain ⟨rest, nodup, mem_iff, sorted, met⟩ := ih level.below
    refine ⟨paths ++ rest, ?_, fun path => ?_, ?_, ?_⟩
    · refine List.nodup_append.mpr ⟨level.nodup, nodup, ?_⟩
      rintro path here _ there rfl
      have := ((level.mem_iff path).mp here).1
      have := ((mem_iff path).mp there).1
      omega
    · have here_or_longer :
          path.length = depth ∨ depth + 1 ≤ path.length ↔ depth ≤ path.length := by omega
      rw [List.mem_append, level.mem_iff, mem_iff, ← or_and_right, here_or_longer]
    · refine List.pairwise_append.mpr ⟨?_, sorted, fun path here longer there => ?_⟩
      · refine List.pairwise_of_forall_mem_list fun path here other there => ?_
        have here := ((level.mem_iff path).mp here).1
        have there := ((level.mem_iff other).mp there).1
        omega
      · have := ((level.mem_iff path).mp here).1
        have := ((mem_iff longer).mp there).1
        omega
    · rw [List.map_append, level.met, met, List.map_append]

end IsLevel

/-- **The walk goes to every place of a tree once**, and to the higher ones first. Nothing is said
of the order within a level. -/
theorem exists_paths_breadthFirst (root : Node) :
    ∃ paths : List (List Nat), paths.Nodup ∧
      (∀ path, path ∈ paths ↔ (root.at? path).isSome = true) ∧
      paths.Pairwise (·.length ≤ ·.length) ∧
      paths.map root.visitAt? = root.breadthFirst.map some := by
  simpa using (IsLevel.top root).walks root.walks_breadthFirst

/-- The walk meets what stands at some path, and nothing else. -/
theorem mem_breadthFirst_iff_exists_path {v : Visit} :
    v ∈ root.breadthFirst ↔ ∃ path, root.visitAt? path = some v := by
  obtain ⟨paths, -, mem_iff, -, met⟩ := root.exists_paths_breadthFirst
  have listed : v ∈ root.breadthFirst ↔ some v ∈ paths.map root.visitAt? := by simp [met]
  rw [listed, List.mem_map]
  exact exists_congr fun path => and_iff_right_of_imp fun there =>
    (mem_iff path).mpr (isSome_at?_of_visitAt?_eq_some there)

/-- Whatever stands at a shorter path has been met before. With this, what is declared higher up is
known by the time a node is checked. -/
theorem exists_path_of_breadthFirst_eq {before after : List Visit} {v : Visit}
    (split : root.breadthFirst = before ++ v :: after) :
    ∃ path, root.visitAt? path = some v ∧
      ∀ shorter w, shorter.length < path.length → root.visitAt? shorter = some w → w ∈ before := by
  obtain ⟨paths, -, mem_iff, sorted, met⟩ := root.exists_paths_breadthFirst
  rw [split, List.map_append, List.map_cons] at met
  obtain ⟨ahead, rest, rfl, met_ahead, met_rest⟩ := List.map_eq_append_iff.mp met
  obtain ⟨path, behind, rfl, here, -⟩ := List.map_eq_cons_iff.mp met_rest
  refine ⟨path, here, fun shorter w less there => ?_⟩
  have met_before : some w ∈ before.map some := by
    rw [← met_ahead, ← there]
    have listed := (mem_iff shorter).mpr (isSome_at?_of_visitAt?_eq_some there)
    refine List.mem_map_of_mem ((List.mem_append.mp listed).resolve_right fun later => ?_)
    -- from the path on there is no shorter one
    obtain ⟨-, sorted, -⟩ := List.pairwise_append.mp sorted
    obtain ⟨longer, -⟩ := List.pairwise_cons.mp sorted
    rcases List.mem_cons.mp later with rfl | later
    · exact Nat.lt_irrefl _ less
    · exact Nat.not_lt_of_le (longer shorter later) less
  simpa using met_before

/-- Somewhere in a tree is at some path. -/
theorem within_iff_exists_path {n : Node} : root.Within n ↔ ∃ path, root.at? path = some n := by
  rw [← exists_mem_breadthFirst_iff]
  refine ⟨?_, ?_⟩
  · rintro ⟨v, met, rfl⟩
    obtain ⟨path, there⟩ := mem_breadthFirst_iff_exists_path.mp met
    exact ⟨path, (visitAt?_eq_some_iff.mp there).1⟩
  · rintro ⟨path, there⟩
    have met : ⟨n, root.parentAt? path⟩ ∈ root.breadthFirst :=
      mem_breadthFirst_iff_exists_path.mpr ⟨path, visitAt?_eq_some_iff.mpr ⟨there, rfl⟩⟩
    exact ⟨_, met, rfl⟩

end Node

end StateMarkup
