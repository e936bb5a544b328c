import StateMarkup.Proofs.Node.Paths
import StateMarkup.Proofs.Schema.Survey

/-!
# Declared in time

The rules of place ask what has been declared, and the walk declares on its way. A node is met
before all that stands further down, so the states in a `States` node are declared two levels before
what stands in them is checked. That makes the rules of place a matter of the tree alone
(`Node.validate_places`): hooks and events of a valid tree stand in elements with the names of
states, and a tree is valid if they stand in elements that are states by their own place.

The rule about the root is a rule about all nodes of that kind. Only the top of a document that has
been read has it, but a tree that was put together otherwise may have one further down, and that
must be named `Schema` as well (`Node.validate_inner_root`).
-/

namespace StateMarkup

/-! ## One node -/

namespace Visit

variable {v : Visit} {strict : Bool} {declared : NameSet}

/-- What stands right below the root has a parent of that kind. -/
theorem isBelowRoot_iff :
    v.isBelowRoot = true ↔ ∃ parent, v.parent = some parent ∧ parent.kind = .root := by
  rw [isBelowRoot]
  cases v.parent <;> simp

/-- What stands in a state has an element for its parent whose name is declared. -/
theorem isInState_iff :
    v.isInState declared = true ↔ ∃ parent, v.parent = some parent ∧ parent.kind = .element ∧
      declared.contains parent.name = true := by
  rw [isInState]
  cases v.parent <;> simp [Node.isElement]

/-- What a node must be to break no rule. This is the one place where the rules are opened; whatever
else is said about valid trees goes by this equivalence. -/
theorem violations_eq_nil_iff :
    v.violations strict declared = [] ↔
      (v.node.kind = .root → v.node.name = Tag.schema) ∧
      (v.node.kind = .element → ∀ kind : HookKind, v.node.name = kind.tag →
        v.isBelowRoot = true ∨ v.isInState declared = true) ∧
      (v.node.name = Tag.events → v.isInState declared = true) ∧
      (strict = true → v.node.kind ≠ .unknown) := by
  have root : v.checkRoot = [] ↔ (v.node.kind = .root → v.node.name = Tag.schema) := by
    simp [checkRoot]
  have hooks : v.checkHooks declared = [] ↔ (v.node.kind = .element →
      ∀ kind : HookKind, v.node.name = kind.tag →
        v.isBelowRoot = true ∨ v.isInState declared = true) := by
    simp only [← HookKind.ofTag?_eq_some_iff]
    cases found : HookKind.ofTag? v.node.name <;>
      simp [checkHooks, Node.isElement, found, or_iff_not_imp_left]
  have events : v.checkEvents declared = [] ↔
      (v.node.name = Tag.events → v.isInState declared = true) := by
    simp [checkEvents]
  have closed : (if strict = true then v.checkClosed else []) = [] ↔
      (strict = true → v.node.kind ≠ .unknown) := by
    simp [checkClosed]
  rw [violations, List.append_eq_nil_iff, List.append_eq_nil_iff, List.append_eq_nil_iff, root,
    hooks, events, closed, and_assoc, and_assoc]

end Visit

/-! ## The whole walk -/

namespace Survey

variable {strict : Bool} {s : Survey}

/-- Nothing is found exactly if no node breaks a rule with what was declared before it. The splits
of the list are the moments of the walk. -/
theorem violations_visitAll_eq_nil_iff {visits : List Visit} :
    (s.visitAll strict visits).violations = [] ↔
      s.violations = [] ∧ ∀ before v after, visits = before ++ v :: after →
        v.violations strict (s.visitAll strict before).declared = [] := by
  induction visits generalizing s with
  | nil => simp [visitAll]
  | cons first visits ih =>
    rw [visitAll_cons, ih, visit, List.append_eq_nil_iff, and_assoc]
    refine and_congr_right fun _ => ⟨?_, fun clean => ⟨clean [] first visits rfl, ?_⟩⟩
    · rintro ⟨here, clean⟩ before v after split
      cases before with
      | nil =>
        obtain ⟨rfl, rfl⟩ := List.cons.inj split
        exact here
      | cons w before =>
        obtain ⟨rfl, rfl⟩ := List.cons.inj split
        exact clean before v after rfl
    · rintro before v after rfl
      exact clean (first :: before) v after rfl

/-- What has been declared stays declared. -/
theorem contains_visitAll_append {before : List Visit} {name : String} (after : List Visit)
    (known : (s.visitAll strict before).declared.contains name = true) :
    (s.visitAll strict (before ++ after)).declared.contains name = true := by
  rw [visitAll_append]
  exact contains_visitAll.mpr (.inl known)

end Survey

namespace Node

variable {root : Node} {strict : Bool} {states : NameSet}

/-- No node is missing exactly if the tree has nodes of both names, wherever they stand. -/
theorem missingNodes_eq_nil_iff :
    missingNodes root.breadthFirst = [] ↔
      (∃ n, root.Within n ∧ n.name = Tag.schema) ∧ ∃ n, root.Within n ∧ n.name = Tag.states := by
  have met (name : String) : root.breadthFirst.any (·.node.name == name) = true ↔
      ∃ n, root.Within n ∧ n.name = name := by
    simp only [List.any_eq_true, beq_iff_eq, ← exists_mem_breadthFirst_iff]
    refine ⟨?_, ?_⟩
    · rintro ⟨v, met, named⟩
      exact ⟨v.node, ⟨v, met, rfl⟩, named⟩
    · rintro ⟨_, ⟨v, met, rfl⟩, named⟩
      exact ⟨v, met, named⟩
  simp [missingNodes, ← met]

/-- A tree is valid exactly if its walk finds nothing and no node is missing. -/
theorem exists_validate_iff :
    (∃ states, root.validate strict = .ok states) ↔
      (∀ before v after, root.breadthFirst = before ++ v :: after →
        v.violations strict (Survey.init.visitAll strict before).declared = []) ∧
      (∃ n, root.Within n ∧ n.name = Tag.schema) ∧ ∃ n, root.Within n ∧ n.name = Tag.states := by
  simp only [validate_eq_ok_iff, exists_and_left, exists_eq', and_true]
  rw [survey, List.append_eq_nil_iff, Survey.violations_visitAll_eq_nil_iff,
    missingNodes_eq_nil_iff]
  exact and_congr_left' (and_iff_right rfl)

/-! ## The rules of place -/

/-- **The rules of place** of a tree whose states stand at some paths: hooks stand in a node of the
kind of the root or in a state, events in a state. It is stated for any notion of a state, since
what is known of a valid tree and what makes a tree valid are said with two different ones. -/
structure Places (root : Node) (IsState : List Nat → Prop) : Prop where
  hooks : ∀ path n, root.at? path = some n → n.kind = .element →
    ∀ kind : HookKind, n.name = kind.tag →
      ∃ above i parent, path = above ++ [i] ∧ root.at? above = some parent ∧
        (parent.kind = .root ∨ IsState above)
  events : ∀ path n, root.at? path = some n → n.name = Tag.events →
    ∃ above i, path = above ++ [i] ∧ IsState above

/-- An element with one of the names stands at the path. This is a state by its name alone. -/
def NamedAt (root : Node) (states : NameSet) (path : List Nat) : Prop :=
  ∃ n, root.at? path = some n ∧ n.kind = .element ∧ states.contains n.name = true

/-- An element stands at the path, and right above it a node `States`. This is a state by its own
place. -/
def DeclaredAt (root : Node) (path : List Nat) : Prop :=
  ∃ n above i outer, root.at? path = some n ∧ n.kind = .element ∧ path = above ++ [i] ∧
    root.at? above = some outer ∧ outer.name = Tag.states

variable {path : List Nat} {n : Node} {before : List Visit} {v : Visit}

/-- What stands in a state when it is met stands in a state when all are known. -/
theorem exists_namedAt_of_isInState (there : root.visitAt? path = some v) {declared : NameSet}
    (inside : v.isInState declared = true)
    (known : ∀ name, declared.contains name = true → states.contains name = true) :
    ∃ above i, path = above ++ [i] ∧ root.NamedAt states above := by
  obtain ⟨parent, parent_eq, element, named⟩ := Visit.isInState_iff.mp inside
  obtain ⟨above, i, rfl, above_eq⟩ :=
    parentAt?_eq_some_iff.mp ((visitAt?_eq_some_iff.mp there).2.trans parent_eq)
  exact ⟨above, i, rfl, parent, above_eq, element, known _ named⟩

/-- **Declared in time.** What stands in a declared state is met when the state is known: two steps
above it stands the node that declares it. -/
theorem isInState_of_declaredAt {above : List Nat} {i : Nat}
    (there : root.visitAt? (above ++ [i]) = some v) (declared : root.DeclaredAt above)
    (met : ∀ shorter w, shorter.length < (above ++ [i]).length → root.visitAt? shorter = some w →
      w ∈ before) :
    v.isInState (Survey.init.visitAll strict before).declared = true := by
  obtain ⟨n, outer, j, states, n_eq, element, rfl, states_eq, named⟩ := declared
  have parent_eq := (visitAt?_eq_some_iff.mp there).2
  rw [parentAt?_concat, n_eq] at parent_eq
  have met_states : ⟨states, root.parentAt? outer⟩ ∈ before :=
    met outer _ (by simp) (visitAt?_eq_some_iff.mpr ⟨states_eq, rfl⟩)
  have child : n ∈ states.elementChildren := by
    rw [at?_concat, states_eq] at n_eq
    exact List.mem_filter.mpr ⟨List.mem_of_getElem? n_eq, by simp [isElement, element]⟩
  have declares : n.name ∈ Visit.declares ⟨states, root.parentAt? outer⟩ :=
    Visit.mem_declares_iff.mpr ⟨named, n, child, rfl⟩
  exact Visit.isInState_iff.mpr ⟨n, parent_eq.symm, element,
    Survey.contains_visitAll.mpr (.inr ⟨_, met_states, declares⟩)⟩

/-- Hooks and events of a valid tree stand in the states that it declares. When they were met they
stood in elements whose names were known by then, and what is known then is known at the end. -/
theorem places_of_validate (valid : root.validate strict = .ok states) :
    root.Places (root.NamedAt states) := by
  obtain ⟨clean, -⟩ := exists_validate_iff.mp ⟨states, valid⟩
  obtain ⟨-, known⟩ := validate_eq_ok_iff.mp valid
  -- wherever a node stands it has been met, and what was declared then is still declared at the end
  have rules (path : List Nat) (n : Node) (there : root.at? path = some n) :
      ∃ v declared, root.visitAt? path = some v ∧ v.node = n ∧
        v.violations strict declared = [] ∧
        ∀ name, declared.contains name = true → states.contains name = true := by
    have there := visitAt?_eq_some_iff (v := ⟨n, root.parentAt? path⟩).mpr ⟨there, rfl⟩
    obtain ⟨before, after, split⟩ :=
      List.append_of_mem (mem_breadthFirst_iff_exists_path.mpr ⟨path, there⟩)
    refine ⟨_, _, there, rfl, clean before _ after split, fun name declared => ?_⟩
    rw [← known, survey, split]
    exact Survey.contains_visitAll_append _ declared
  refine ⟨?_, ?_⟩
  · intro path n there element kind named
    obtain ⟨v, declared, met, rfl, none_broken, known⟩ := rules path n there
    obtain ⟨-, hooks, -⟩ := Visit.violations_eq_nil_iff.mp none_broken
    rcases hooks element kind named with below_root | inside
    · obtain ⟨parent, parent_eq, top⟩ := Visit.isBelowRoot_iff.mp below_root
      obtain ⟨above, i, rfl, above_eq⟩ :=
        parentAt?_eq_some_iff.mp ((visitAt?_eq_some_iff.mp met).2.trans parent_eq)
      exact ⟨above, i, parent, rfl, above_eq, .inl top⟩
    · obtain ⟨above, i, rfl, state⟩ := exists_namedAt_of_isInState met inside known
      obtain ⟨parent, above_eq, parent_state⟩ := state
      exact ⟨above, i, parent, rfl, above_eq, .inr ⟨parent, above_eq, parent_state⟩⟩
  · intro path n there named
    obtain ⟨v, declared, met, rfl, none_broken, known⟩ := rules path n there
    obtain ⟨-, -, events, -⟩ := Visit.violations_eq_nil_iff.mp none_broken
    exact exists_namedAt_of_isInState met (events named) known

/-- A tree whose hooks and events stand in states is valid. Whenever the walk comes to one of them,
all that is higher up has been met, and so the node that declares its state has. -/
theorem exists_validate_of_places (top : root.kind = .root)
    (has_states : ∃ n, root.Within n ∧ n.name = Tag.states)
    (places : root.Places root.DeclaredAt)
    (roots : ∀ n, root.Within n → n.kind = .root → n.name = Tag.schema)
    (closed : strict = true → ∀ n, root.Within n → n.kind ≠ .unknown) :
    ∃ states, root.validate strict = .ok states := by
  refine exists_validate_iff.mpr ⟨fun before v after split => ?_,
    ⟨root, .top root, roots root (.top root) top⟩, has_states⟩
  obtain ⟨path, there, met⟩ := exists_path_of_breadthFirst_eq split
  obtain ⟨here, parent_eq⟩ := visitAt?_eq_some_iff.mp there
  have within : root.Within v.node := within_iff_exists_path.mpr ⟨path, here⟩
  refine Visit.violations_eq_nil_iff.mpr ⟨roots _ within, fun element kind named => ?_,
    fun named => ?_, fun asked => closed asked _ within⟩
  · obtain ⟨above, i, parent, rfl, above_eq, root_kind | declared⟩ :=
      places.hooks path _ here element kind named
    · rw [parentAt?_concat, above_eq] at parent_eq
      exact .inl (Visit.isBelowRoot_iff.mpr ⟨parent, parent_eq.symm, root_kind⟩)
    · exact .inr (isInState_of_declaredAt there declared met)
  · obtain ⟨above, i, rfl, declared⟩ := places.events path _ here named
    exact isInState_of_declaredAt there declared met

/-! ## The rules and the walk -/

/-- **The walk of the rules is right about places.** It goes to every place of a tree once, higher
ones first. The states of a valid tree are the names that it declares, and its hooks and events
stand in elements of these names. The other way round, a tree is valid if its root and all nodes of
that kind are named `Schema`, it has a node `States`, its hooks and events stand in elements that
stand in such nodes, and, where that is asked, all elements are closed by their own names. -/
theorem validate_places (root : Node) (strict : Bool) :
    (∃ paths : List (List Nat), paths.Nodup ∧
      (∀ path, path ∈ paths ↔ (root.at? path).isSome = true) ∧
      paths.Pairwise (·.length ≤ ·.length) ∧
      paths.map root.visitAt? = root.breadthFirst.map some) ∧
    (∀ states, root.validate strict = .ok states →
      (∀ name, states.contains name = true ↔ root.Declares name) ∧
        root.Places (root.NamedAt states)) ∧
    (root.kind = .root → (∀ n, root.Within n → n.kind = .root → n.name = Tag.schema) →
      (∃ n, root.Within n ∧ n.name = Tag.states) → root.Places root.DeclaredAt →
      (strict = true → ∀ n, root.Within n → n.kind ≠ .unknown) →
      ∃ states, root.validate strict = .ok states) :=
  ⟨root.exists_paths_breadthFirst,
    fun _ valid => ⟨fun _ => contains_validate_iff valid, places_of_validate valid⟩,
    fun top roots has_states places closed =>
      exists_validate_of_places top has_states places roots closed⟩

/-- A state with events, below a node `States`, and hooks beside it. -/
theorem validate_places_of_one :
    let tree : Node := ⟨.root, "Schema", [], [.element "OnStateSet",
      ⟨.element, "States", [], [⟨.element, "a", [], [.element "Events"]⟩]⟩]⟩
    ∃ states, tree.validate true = .ok states ∧ states.contains "a" = true ∧
      tree.Places (tree.NamedAt states) := by
  intro tree
  have only (path : List Nat) (n : Node) (there : tree.at? path = some n) :
      ((HookKind.ofTag? n.name).isSome = true → path = [0]) ∧
        (n.name = Tag.events → path = [1, 0, 0]) := by
    rcases path with _ | ⟨_ | _ | i, _ | ⟨_ | j, _ | ⟨_ | k, _ | ⟨l, path⟩⟩⟩⟩ <;>
      simp [tree, at?, element] at there <;> (subst there; decide)
  have named : ∀ n, tree.Within n → n.kind = .root → n.name = Tag.schema := by decide
  have closed : ∀ n, tree.Within n → n.kind ≠ .unknown := by decide
  have has_states : ∃ n, tree.Within n ∧ n.name = Tag.states :=
    ⟨_, .inside (.tail _ (.head _)) (.top _), rfl⟩
  have state : tree.DeclaredAt [1, 0] := ⟨_, [1], 0, _, rfl, rfl, rfl, rfl, rfl⟩
  have places : tree.Places tree.DeclaredAt := by
    refine ⟨?_, ?_⟩
    · intro path n there _ kind named
      obtain rfl := (only path n there).1 (by rw [named, HookKind.ofTag?_tag]; rfl)
      exact ⟨[], 0, tree, rfl, rfl, .inl rfl⟩
    · intro path n there named
      obtain rfl := (only path n there).2 named
      exact ⟨[1, 0], 0, rfl, state⟩
  obtain ⟨states, valid⟩ :=
    (validate_places tree true).2.2 rfl named has_states places fun _ => closed
  obtain ⟨declared, inside⟩ := (validate_places tree true).2.1 states valid
  have declares : tree.Declares "a" :=
    ⟨_, .inside (.tail _ (.head _)) (.top _), rfl, _, .head _, rfl⟩
  exact ⟨states, valid, (declared "a").mpr declares, inside⟩

/-- The rule about the root asks for more where a node of its kind stands further down: all else is
in place here, and the tree is not valid. -/
theorem validate_inner_root :
    let tree : Node := ⟨.root, "Schema", [], [.element "States", ⟨.root, "x", [], []⟩]⟩
    tree.kind = .root ∧ tree.name = Tag.schema ∧ (∃ n, tree.Within n ∧ n.name = Tag.states) ∧
      tree.Places tree.DeclaredAt ∧ (∀ n, tree.Within n → n.kind ≠ .unknown) ∧
      ∀ strict, tree.validate strict = .error [.rootNotSchema] := by
  intro tree
  have plain : ∀ n, tree.Within n → HookKind.ofTag? n.name = none ∧ n.name ≠ Tag.events := by
    decide
  refine ⟨rfl, rfl, ⟨_, .inside (.head _) (.top _), rfl⟩, ⟨?_, ?_⟩, by decide,
    fun strict => validate_eq_error_iff.mpr ⟨List.cons_ne_nil _ _, by cases strict <;> decide⟩⟩
  · intro path n there _ kind named
    have no_hooks := (plain n (within_iff_exists_path.mpr ⟨path, there⟩)).1
    rw [HookKind.ofTag?_eq_some_iff.mpr named] at no_hooks
    cases no_hooks
  · intro path n there named
    exact absurd named (plain n (within_iff_exists_path.mpr ⟨path, there⟩)).2

end Node

end StateMarkup
