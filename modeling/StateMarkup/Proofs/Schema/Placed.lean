import StateMarkup.Proofs.Schema.Survey

/-!
# Everything in its place

The rules of place, seen from a child and its parent (`Node.MayStandIn`): states are declared below
the root only, events stand in a state, and hooks in a state or right below the root. The walk by
levels meets all states before whatever stands in them, so a tree with everything in its place is
valid, and its states are those that it declares (`Node.validate_of_placed`).
-/

namespace StateMarkup

namespace Node

variable {names : List String}

/-! ## Places -/

/-- A state of one of the names. -/
def IsStateAmong (names : List String) (n : Node) : Prop := n.kind = .element ∧ n.name ∈ names

/-- The place of a child is right once the names have been declared. There is a field for each rule
about places, and none of them mentions a walk. -/
structure MayStandIn (names : List String) (child parent : Node) : Prop where
  kind : child.kind = .element ∨ child.kind = .text
  states : child.name = Tag.states → parent.kind = .root
  events : child.name = Tag.events → parent.IsStateAmong names
  hooks : ∀ kind : HookKind, child.name = kind.tag → parent.kind = .root ∨ parent.IsStateAmong names

/-- Right below the root a place is right before anything has been declared: events cannot stand
there, and hooks need no state. -/
theorem MayStandIn.of_root {child root : Node} (placed : child.MayStandIn names root)
    (top : root.kind = .root) : child.MayStandIn [] root := by
  have no_state : ¬ root.IsStateAmong names := fun among => by
    cases top.symm.trans among.1
  exact ⟨placed.kind, placed.states, fun events => absurd (placed.events events) no_state,
    fun _ _ => .inl top⟩

theorem MayStandIn.ne_root {child parent : Node} (placed : child.MayStandIn names parent) :
    child.kind ≠ .root := by
  rcases placed.kind with kind | kind <;> simp [kind]

/-- Every node of a tree but the top is in its place. -/
def AllPlaced (names : List String) (n : Node) : Prop :=
  ∀ m, n.Within m → ∀ child ∈ m.children, child.MayStandIn names m

end Node

/-- A child in its place breaks no rule once the names are declared, in strict mode or not. -/
theorem Visit.violations_eq_nil {names : List String} {child parent : Node} {declared : NameSet}
    (placed : child.MayStandIn names parent)
    (known : ∀ name ∈ names, declared.contains name = true) (strict : Bool) :
    violations ⟨child, some parent⟩ strict declared = [] := by
  have state (among : parent.IsStateAmong names) :
      isInState ⟨child, some parent⟩ declared = true := by
    simp [isInState, Node.isElement, among.1, known _ among.2]
  have root : checkRoot ⟨child, some parent⟩ = [] := by
    rcases placed.kind with kind | kind <;> simp [checkRoot, kind]
  have closed : checkClosed ⟨child, some parent⟩ = [] := by
    rcases placed.kind with kind | kind <;> simp [checkClosed, kind]
  have events : checkEvents ⟨child, some parent⟩ declared = [] := by
    by_cases named : child.name = Tag.events
    · simp [checkEvents, state (placed.events named)]
    · simp [checkEvents, named]
  have hooks : checkHooks ⟨child, some parent⟩ declared = [] := by
    cases tag : HookKind.ofTag? child.name with
    | none => simp [checkHooks, tag]
    | some kind =>
      rcases placed.hooks kind (HookKind.ofTag?_eq_some_iff.mp tag) with top | among
      · simp [checkHooks, isBelowRoot, top]
      · simp [checkHooks, state among]
  rw [violations, root, hooks, events, closed]
  cases strict <;> rfl

/-- A root that is named as it should be breaks no rule at all. -/
theorem Visit.violations_root_eq_nil {root : Node} (top : root.kind = .root)
    (named : root.name = Tag.schema) (strict : Bool) (declared : NameSet) :
    violations ⟨root, none⟩ strict declared = [] := by
  have other : Tag.schema ≠ Tag.events := by decide
  simp [violations, checkRoot, checkHooks, checkEvents, checkClosed, Node.isElement, top, named,
    other]

namespace Survey

variable {names : List String} {root : Node} {strict : Bool}

/-- The root and what stands right below it declare the names, and break no rule before that is
done. -/
theorem visitAll_outer (top : root.kind = .root) (named : root.name = Tag.schema)
    (placed : ∀ child ∈ root.children, child.MayStandIn names root)
    (declares : root.children.flatMap (fun child => Visit.declares ⟨child, some root⟩) = names) :
    init.visitAll strict (⟨root, none⟩ :: root.children.map (⟨·, some root⟩)) =
      ⟨.ofList names, []⟩ := by
  have clean : ∀ v ∈ (⟨root, none⟩ :: root.children.map (⟨·, some root⟩) : List Visit),
      ∀ declared : NameSet, (∀ name ∈ [], declared.contains name = true) →
        v.violations strict declared = [] := by
    intro v hv declared _
    rcases List.mem_cons.mp hv with rfl | hv
    · exact Visit.violations_root_eq_nil top named strict declared
    · obtain ⟨child, hchild, rfl⟩ := List.mem_map.mp hv
      exact Visit.violations_eq_nil ((placed child hchild).of_root top) nofun strict
  have nothing : Visit.declares ⟨root, none⟩ = [] := by
    have other : Tag.schema ≠ Tag.states := by decide
    simp [Visit.declares, named, other]
  have nothing_known : ∀ name ∈ ([] : List String), init.declared.contains name = true := nofun
  rw [visitAll_eq nothing_known clean, List.flatMap_cons, nothing, List.flatMap_map,
    List.nil_append, declares]
  rfl

/-- Further down nothing is declared, and nothing is wrong once the names are known. So the rest of
the walk changes nothing. -/
theorem visitAll_inner {s : Survey} {visits : List Visit}
    (known : ∀ name ∈ names, s.declared.contains name = true)
    (inner : ∀ v ∈ visits, ∃ parent, v.parent = some parent ∧ v.node.MayStandIn names parent ∧
      parent.kind ≠ .root) : s.visitAll strict visits = s := by
  have clean : ∀ v ∈ visits, ∀ declared : NameSet,
      (∀ name ∈ names, declared.contains name = true) → v.violations strict declared = [] := by
    rintro ⟨node, above⟩ hv declared known
    obtain ⟨parent, rfl, placed, -⟩ := inner _ hv
    exact Visit.violations_eq_nil placed known strict
  have nothing : visits.flatMap Visit.declares = [] := by
    rw [List.flatMap_eq_nil_iff]
    intro v hv
    obtain ⟨parent, -, placed, no_root⟩ := inner v hv
    exact if_neg fun states => no_root (placed.states states)
  rw [visitAll_eq known clean, nothing]
  rfl

end Survey

namespace Node

variable {names : List String} {root : Node}

/-- Whatever has children further down is an element or a text. -/
theorem AllPlaced.ne_root (placed : root.AllPlaced names) {child m : Node}
    (hchild : child ∈ root.children) (within : child.Within m) : m.kind ≠ .root := by
  rcases within.eq_or_exists_parent with rfl | ⟨parent, within, hm⟩
  · exact (placed root (.top root) m hchild).ne_root
  · exact (placed parent (.inside hchild within) m hm).ne_root

/-- **A tree with everything in its place is valid**, and its states are those that it declares
right below the root. The walk falls into two parts, what stands right below the root and the rest,
and each of them has its lemma above. -/
theorem validate_of_placed (top : root.kind = .root) (named : root.name = Tag.schema)
    (placed : root.AllPlaced names) (states : ∃ child ∈ root.children, child.name = Tag.states)
    (declares : root.children.flatMap (fun child => Visit.declares ⟨child, some root⟩) = names)
    (strict : Bool) : root.validate strict = .ok (.ofList names) := by
  -- the walk meets the root, then all that stands right below it, and then the rest
  obtain ⟨deeper, walk, below⟩ := breadthFirst_eq root
  have known : ∀ name ∈ names, (NameSet.ofList names).contains name = true := by
    intro name hname
    simp [NameSet.ofList, NameSet.contains_addAll, hname]
  have inner : ∀ v ∈ deeper, ∃ parent, v.parent = some parent ∧ v.node.MayStandIn names parent ∧
      parent.kind ≠ .root := by
    intro v hv
    obtain ⟨child, hchild, parent, within, above, hnode⟩ := below v hv
    exact ⟨parent, above, placed parent (.inside hchild within) v.node hnode,
      placed.ne_root hchild within⟩
  have walked : Survey.init.visitAll strict root.breadthFirst = ⟨.ofList names, []⟩ := by
    rw [walk, ← List.cons_append, Survey.visitAll_append,
      Survey.visitAll_outer top named (placed root (.top root)) declares,
      Survey.visitAll_inner known inner]
  have complete : missingNodes root.breadthFirst = [] := by
    obtain ⟨child, hchild, states⟩ := states
    have schema_met : root.breadthFirst.any (·.node.name == Tag.schema) = true := by
      simp [walk, named]
    have states_met : root.breadthFirst.any (·.node.name == Tag.states) = true := by
      rw [List.any_eq_true]
      refine ⟨⟨child, some root⟩, ?_, by simpa using states⟩
      simp [walk, hchild]
    simp [missingNodes, schema_met, states_met]
  refine validate_eq_ok_iff.mpr ⟨?_, ?_⟩
  · rw [survey, walked, complete]
    rfl
  · rw [survey, walked]

end Node

end StateMarkup
