import StateMarkup.Proofs.Token.Spacing
import StateMarkup.Schema.OfNode

/-!
# Schemas written down

`Schema.toNode` is the tree of a document that says what a schema says: the hooks that have tasks,
then the states, each with its hooks and its events. An event without a target, or without an error
state, has no such attribute.

Whatever names there are, as long as no state, event or task is called like a tag with a meaning of
its own (`Schema.InWords`), what the tree says is the schema again: `Schema.ofNode_toNode`.
-/

namespace StateMarkup

/-! ## Names -/

/-- A word without a meaning of its own. Names of states, events and tasks are like this if they are
to be found again: a state called `Events` would be taken for something else. -/
def IsPlainName (name : String) : Prop := IsWord name ∧ Tag.isStructural name = false

instance (name : String) : Decidable (IsPlainName name) :=
  inferInstanceAs (Decidable (IsWord name ∧ Tag.isStructural name = false))

/-- There are no other kinds of hooks, so what is written for all of them is written for each. -/
theorem HookKind.mem_all (kind : HookKind) : kind ∈ HookKind.all := by cases kind <;> decide

theorem HookKind.isStructural_tag (kind : HookKind) : Tag.isStructural kind.tag = true := by
  cases kind <;> decide

namespace IsPlainName

variable {name : String}

/-- A plain name is no tag with a meaning of its own. -/
theorem ne_tag (plain : IsPlainName name) {tag : String}
    (structural : Tag.isStructural tag = true) : name ≠ tag := by
  rintro rfl
  cases plain.2.symm.trans structural

/-- A plain name is not the tag of a hook. -/
theorem ofTag?_eq_none (plain : IsPlainName name) : HookKind.ofTag? name = none := by
  rw [Option.eq_none_iff_forall_ne_some]
  intro kind found
  exact plain.ne_tag kind.isStructural_tag (HookKind.ofTag?_eq_some_iff.mp found)

end IsPlainName

/-- The names of all tasks in the lists are plain. -/
structure HookLists.InWords (hooks : HookLists) : Prop where
  tasks : ∀ kind, ∀ task ∈ hooks.tasks kind, IsPlainName task

/-- The name and the tasks of an event are plain, and it leads to words. Where it leads need not be
plain, since nobody looks at the value of an attribute. -/
structure Event.InWords (event : Event) : Prop where
  name : IsPlainName event.name
  target : event.target = "" ∨ IsWord event.target
  errorState : ∀ target ∈ event.errorState, IsWord target
  tasks : ∀ task ∈ event.tasks, IsPlainName task

/-- All names in a state are like that. -/
structure State.InWords (state : State) : Prop where
  name : IsPlainName state.name
  hooks : state.hooks.InWords
  events : ∀ event ∈ state.events, event.InWords

/-- **What a document can say**: names of states, events and tasks are words that are no tags with a
meaning of their own, and events lead to words, or to nothing. -/
structure Schema.InWords (schema : Schema) : Prop where
  hooks : schema.hooks.InWords
  states : ∀ state ∈ schema.states, state.InWords

instance (hooks : HookLists) : Decidable hooks.InWords :=
  decidable_of_iff (∀ kind ∈ HookKind.all, ∀ task ∈ hooks.tasks kind, IsPlainName task)
    ⟨fun tasks => ⟨fun kind => tasks kind (HookKind.mem_all kind)⟩,
     fun ⟨tasks⟩ kind _ => tasks kind⟩

instance (event : Event) : Decidable event.InWords :=
  decidable_of_iff (IsPlainName event.name ∧ (event.target = "" ∨ IsWord event.target) ∧
      (∀ target ∈ event.errorState, IsWord target) ∧ ∀ task ∈ event.tasks, IsPlainName task)
    ⟨fun ⟨name, target, errorState, tasks⟩ => ⟨name, target, errorState, tasks⟩,
     fun ⟨name, target, errorState, tasks⟩ => ⟨name, target, errorState, tasks⟩⟩

instance (state : State) : Decidable state.InWords :=
  decidable_of_iff (IsPlainName state.name ∧ state.hooks.InWords ∧
      ∀ event ∈ state.events, event.InWords)
    ⟨fun ⟨name, hooks, events⟩ => ⟨name, hooks, events⟩,
     fun ⟨name, hooks, events⟩ => ⟨name, hooks, events⟩⟩

instance (schema : Schema) : Decidable schema.InWords :=
  decidable_of_iff (schema.hooks.InWords ∧ ∀ state ∈ schema.states, state.InWords)
    ⟨fun ⟨hooks, states⟩ => ⟨hooks, states⟩, fun ⟨hooks, states⟩ => ⟨hooks, states⟩⟩

/-! ## Trees -/

/-- A task by its name. -/
def Node.ofTask (task : String) : Node := ⟨.element, Tag.task, [], [.ofText task]⟩

/-- A container of tasks, or of the hooks of a kind. -/
def Node.ofTasks (tag : String) (tasks : List String) : Node :=
  ⟨.element, tag, [], tasks.map .ofTask⟩

/-- The containers of those hooks that have tasks. A hook without tasks has none, so the tree has no
more in it than the schema says. -/
def HookLists.toNodes (hooks : HookLists) : List Node :=
  (HookKind.all.filter fun kind => !(hooks.tasks kind).isEmpty).map fun kind =>
    .ofTasks kind.tag (hooks.tasks kind)

namespace Event

variable (event : Event)

/-- Where an event leads. A target that is not given is the empty text in a schema, and no attribute
in the tree. -/
def attributes : List Attribute :=
  (if event.target = "" then [] else [⟨Tag.targetState, event.target⟩]) ++
    (event.errorState.map fun target => ⟨Tag.errorState, target⟩).toList

/-- An event as an element. -/
def toNode : Node := ⟨.element, event.name, event.attributes, event.tasks.map .ofTask⟩

end Event

/-- A state as an element. -/
def State.toNode (state : State) : Node :=
  ⟨.element, state.name, [],
    state.hooks.toNodes ++ [⟨.element, Tag.events, [], state.events.map Event.toNode⟩]⟩

/-- **A schema as the tree of a document.** -/
def Schema.toNode (schema : Schema) : Node :=
  ⟨.root, Tag.schema, [],
    schema.hooks.toNodes ++ [⟨.element, Tag.states, [], schema.states.map State.toNode⟩]⟩

/-! ## Reading it back -/

/-- The tasks of a node that has been written with tasks in it are these tasks. -/
theorem Node.taskNames_eq {n : Node} {tasks : List String} (h : n.children = tasks.map .ofTask) :
    n.taskNames = tasks := by
  have all : n.childrenNamed Tag.task = tasks.map .ofTask := by
    rw [childrenNamed, h, List.filter_eq_self]
    intro child hchild
    obtain ⟨task, -, rfl⟩ := List.mem_map.mp hchild
    exact beq_self_eq_true _
  rw [taskNames, all, List.filterMap_map]
  exact List.filterMap_some

/-- The container of a kind is there exactly if it has tasks. -/
theorem HookLists.mem_toNodes_iff {hooks : HookLists} {n : Node} :
    n ∈ hooks.toNodes ↔
      ∃ kind, hooks.tasks kind ≠ [] ∧ .ofTasks kind.tag (hooks.tasks kind) = n := by
  simp [toNodes, HookKind.mem_all]

/-! Behind the hooks of a state come its events, and behind those of a schema its states. -/

section

variable {n : Node} {hooks : HookLists} {tag : String} {below : List Node}

/-- The hooks are found again in their containers, whatever else comes last. Reading looks for the
last container of a kind; there is at most one, and what comes last is not called like one. -/
theorem Node.hookTasks_eq (children : n.children = hooks.toNodes ++ [⟨.element, tag, [], below⟩])
    (other : HookKind.ofTag? tag = none) (kind : HookKind) :
    n.hookTasks kind = hooks.tasks kind := by
  rw [hookTasks]
  split
  · rename_i container found
    have named : container.name = kind.tag :=
      beq_iff_eq.mp (List.find?_some (p := fun m : Node => m.name == kind.tag) found)
    have mem := List.mem_reverse.mp (List.mem_of_find?_eq_some found)
    rw [children, List.mem_append, List.mem_singleton, HookLists.mem_toNodes_iff] at mem
    -- of the containers only one has the tag, and what comes last has none
    rcases mem with ⟨kind', -, rfl⟩ | rfl
    · obtain rfl : kind' = kind := by
        have both := congrArg HookKind.ofTag? named
        simpa [ofTasks] using both
      exact taskNames_eq rfl
    · have hook : HookKind.ofTag? tag = some kind := HookKind.ofTag?_eq_some_iff.mpr named
      cases other.symm.trans hook
  · rename_i nothing
    refine (Decidable.byContradiction fun tasks => ?_ : hooks.tasks kind = []).symm
    have mem : ofTasks kind.tag (hooks.tasks kind) ∈ n.children.reverse := by
      rw [List.mem_reverse, children]
      exact List.mem_append_left _ (HookLists.mem_toNodes_iff.mpr ⟨kind, tasks, rfl⟩)
    exact List.find?_eq_none.mp nothing _ mem (beq_self_eq_true _)

/-- So all three lists are found again, for a state as for the schema. -/
theorem HookLists.ofNode_eq (children : n.children = hooks.toNodes ++ [⟨.element, tag, [], below⟩])
    (other : HookKind.ofTag? tag = Option.none) : HookLists.ofNode n = hooks := by
  have same := Node.hookTasks_eq children other
  rw [HookLists.ofNode, same, same, same]
  rfl

/-- What comes last is found by its name, since no container before it is called the same. -/
theorem Node.child?_eq_last (children : n.children = hooks.toNodes ++ [⟨.element, tag, [], below⟩])
    (other : HookKind.ofTag? tag = none) : n.child? tag = some ⟨.element, tag, [], below⟩ := by
  have absent : hooks.toNodes.find? (·.name == tag) = none := by
    rw [List.find?_eq_none]
    intro container mem same
    obtain ⟨kind, -, rfl⟩ := HookLists.mem_toNodes_iff.mp mem
    have hook : HookKind.ofTag? tag = some kind :=
      HookKind.ofTag?_eq_some_iff.mpr (beq_iff_eq.mp same).symm
    cases other.symm.trans hook
  rw [child?, children, List.find?_append, absent]
  simp

end

/-- An event is found again in its element. The empty target comes back because it is what reading
puts where there is no attribute. -/
theorem Event.ofNode_toNode {event : Event} (words : event.InWords) :
    Event.ofNode event.toNode = event := by
  obtain ⟨name, target, errorState, tasks⟩ := event
  have told : Node.taskNames (Event.toNode ⟨name, target, errorState, tasks⟩) = tasks :=
    Node.taskNames_eq rfl
  have leads : (Node.attribute? (Event.toNode ⟨name, target, errorState, tasks⟩)
      Tag.targetState).getD "" = target := by
    by_cases nowhere : target = "" <;> cases errorState <;>
      simp [toNode, attributes, Node.attribute?, Tag.targetState, Tag.errorState, nowhere]
  have answers : (Node.attribute? (Event.toNode ⟨name, target, errorState, tasks⟩)
      Tag.errorState).filter (· != "") = errorState := by
    cases errorState with
    | none =>
      by_cases nowhere : target = "" <;>
        simp [toNode, attributes, Node.attribute?, Tag.targetState, Tag.errorState, nowhere]
    | some answer =>
      have word : answer ≠ "" := by
        rintro rfl
        exact absurd (words.errorState "" rfl) (by decide)
      simp [toNode, attributes, Node.attribute?, Tag.targetState, Tag.errorState, word]
  rw [Event.ofNode, told, leads, answers]
  rfl

/-- A state is found again in its element, with its hooks and its events in their order. -/
theorem State.ofNode_toNode {state : State} (words : state.InWords) :
    State.ofNode state.toNode = state := by
  have hooks : HookLists.ofNode state.toNode = state.hooks := HookLists.ofNode_eq rfl (by decide)
  have events : state.toNode.child? Tag.events = some ⟨.element, Tag.events, [], _⟩ :=
    Node.child?_eq_last rfl (by decide)
  have all : (state.events.map Event.toNode).filter Node.isEvent =
      state.events.map Event.toNode := by
    rw [List.filter_eq_self]
    intro child hchild
    obtain ⟨event, hevent, rfl⟩ := List.mem_map.mp hchild
    have plain := (words.events event hevent).name.ofTag?_eq_none
    simp [Node.isEvent, Node.isText, Event.toNode, plain]
  have read : (state.events.map Event.toNode).map Event.ofNode = state.events := by
    rw [List.map_map]
    exact (List.map_congr_left fun event hevent =>
      Event.ofNode_toNode (words.events event hevent)).trans (List.map_id _)
  rw [State.ofNode, hooks, events]
  dsimp only
  rw [all, read]
  rfl

/-- All that stands in the node of the states is states. -/
theorem Schema.elementChildren_states (schema : Schema) :
    Node.elementChildren ⟨.element, Tag.states, [], schema.states.map State.toNode⟩ =
      schema.states.map State.toNode := by
  rw [Node.elementChildren, List.filter_eq_self]
  intro child hchild
  obtain ⟨state, -, rfl⟩ := List.mem_map.mp hchild
  rfl

/-- **A schema is found again in its tree.** Each part of it is found where it has been put, by the
lemmas for hooks and for what comes last. -/
theorem Schema.ofNode_toNode {schema : Schema} (words : schema.InWords) :
    Schema.ofNode schema.toNode = schema := by
  have hooks : HookLists.ofNode schema.toNode = schema.hooks := HookLists.ofNode_eq rfl (by decide)
  have states : schema.toNode.child? Tag.states = some ⟨.element, Tag.states, [], _⟩ :=
    Node.child?_eq_last rfl (by decide)
  have read : (schema.states.map State.toNode).map State.ofNode = schema.states := by
    rw [List.map_map]
    exact (List.map_congr_left fun state hstate =>
      State.ofNode_toNode (words.states state hstate)).trans (List.map_id _)
  rw [Schema.ofNode, hooks, states]
  dsimp only
  rw [elementChildren_states, read]

end StateMarkup
