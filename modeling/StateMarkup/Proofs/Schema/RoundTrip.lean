import StateMarkup.Proofs.Node.RoundTrip
import StateMarkup.Proofs.Schema.Placed
import StateMarkup.Proofs.Schema.States
import StateMarkup.Proofs.Schema.Writing

/-!
# Schemas that are written down are compiled again

The tree of a schema is that of a document, all of it closed and in its place: `Node.IsWritten`,
shown for each part of a schema from the parts in it. So every text with its tokens is read as the
tree, the tree is valid, and what it says is the schema.

`Engine.compile_written`: such a text compiles without a warning to an engine of the schema and, if
strict rules are asked for, exactly if the schema refers to nothing but itself.
-/

namespace StateMarkup

/-! ## The parts of a schema -/

namespace Node

variable {names : List String} {n : Node}

/-- A node that has been written down for a part of a schema: like one of a document, closed, and
with all of its children where they may stand. The three together are what reading and validation
ask for, so one walk over the schema settles both. -/
structure IsWritten (names : List String) (n : Node) : Prop where
  regular : n.IsRegular
  closed : n.kind ≠ .unknown
  placed : ∀ child ∈ n.children, child.MayStandIn names n

/-- All nodes of a tree have been written down like that. -/
def AllWritten (names : List String) (n : Node) : Prop := ∀ m, n.Within m → m.IsWritten names

/-- The form in which a tree is put together: the top has been written down, and all of each
child. -/
theorem allWritten_iff :
    n.AllWritten names ↔ n.IsWritten names ∧ ∀ child ∈ n.children, child.AllWritten names :=
  forall_within_iff

/-- Only states, events and hooks have places of their own. Whatever is called otherwise may stand
anywhere, as long as it is an element or a text. -/
theorem mayStandIn_of_ne {child : Node} (parent : Node)
    (kind : child.kind = .element ∨ child.kind = .text)
    (states : child.name ≠ Tag.states) (events : child.name ≠ Tag.events)
    (hooks : HookKind.ofTag? child.name = none) : child.MayStandIn names parent := by
  refine ⟨kind, fun named => absurd named states, fun named => absurd named events,
    fun hook named => ?_⟩
  rw [HookKind.ofTag?_eq_some_iff.mpr named] at hooks
  cases hooks

/-- A plain name is not that of a container, so tasks, events and states may stand anywhere. -/
theorem mayStandIn_of_plain {child : Node} (parent : Node)
    (kind : child.kind = .element ∨ child.kind = .text) (plain : IsPlainName child.name) :
    child.MayStandIn names parent :=
  mayStandIn_of_ne parent kind (plain.ne_tag (by decide)) (plain.ne_tag (by decide))
    plain.ofTag?_eq_none

theorem isChain_of_elements {ns : List Node} (elements : ∀ n ∈ ns, n.kind = .element) :
    ns.IsChain MayTouch := by
  induction ns with
  | nil => exact .nil
  | cons n ns ih =>
    obtain ⟨first, others⟩ := List.forall_mem_cons.mp elements
    refine List.isChain_cons.mpr ⟨fun next _ texts => ?_, ih others⟩
    cases first.symm.trans texts.1

/-- A node with nothing but elements in it is written down rightly if all of them are, each in its
place. All nodes of a schema are like that except tasks, so the lemmas below only have to look at
the children. -/
theorem allWritten_of_elements (kind : n.kind = .element ∨ n.kind = .root) (name : IsWord n.name)
    (attributes : ∀ a ∈ n.attributes, IsWord a.name ∧ IsWord a.value)
    (elements : ∀ child ∈ n.children, child.kind = .element ∧ child.MayStandIn names n ∧
      child.AllWritten names) : n.AllWritten names := by
  have no_text : n.kind ≠ .text := by rcases kind with kind | kind <;> simp [kind]
  have closed : n.kind ≠ .unknown := by rcases kind with kind | kind <;> simp [kind]
  have apart := isChain_of_elements fun child hchild => (elements child hchild).1
  have placed : ∀ child ∈ n.children, child.MayStandIn names n := fun child hchild =>
    (elements child hchild).2.1
  exact allWritten_iff.mpr
    ⟨⟨⟨name, attributes, fun text => absurd text no_text, apart, fun child hchild =>
      (placed child hchild).ne_root⟩, closed, placed⟩,
      fun child hchild => (elements child hchild).2.2⟩

/-- A task with its text, the one place where a tree of a schema has a text. -/
theorem allWritten_ofTask {task : String} (plain : IsPlainName task) :
    (ofTask task).AllWritten names := by
  have text : (ofText task).AllWritten names :=
    allWritten_iff.mpr ⟨⟨⟨plain.1, nofun, fun _ => ⟨rfl, rfl⟩, .nil, nofun⟩, nofun, nofun⟩, nofun⟩
  have placed : (ofText task).MayStandIn names (ofTask task) :=
    mayStandIn_of_plain _ (.inr rfl) plain
  refine allWritten_iff.mpr ⟨⟨⟨?_, nofun, nofun, .singleton _, ?_⟩, nofun, ?_⟩, ?_⟩
  · show IsWord Tag.task
    decide
  · simp [ofTask, ofText]
  · simpa [ofTask] using placed
  · simpa [ofTask] using text

/-- An element with tasks in it: a container, or an event. -/
theorem allWritten_of_tasks {tasks : List String} (kind : n.kind = .element) (name : IsWord n.name)
    (attributes : ∀ a ∈ n.attributes, IsWord a.name ∧ IsWord a.value)
    (children : n.children = tasks.map .ofTask) (plain : ∀ task ∈ tasks, IsPlainName task) :
    n.AllWritten names := by
  refine allWritten_of_elements (.inl kind) name attributes fun child hchild => ?_
  rw [children] at hchild
  obtain ⟨task, htask, rfl⟩ := List.mem_map.mp hchild
  have other : Tag.task ≠ Tag.states ∧ Tag.task ≠ Tag.events ∧ HookKind.ofTag? Tag.task = none := by
    decide
  exact ⟨rfl, mayStandIn_of_ne n (.inl rfl) other.1 other.2.1 other.2.2,
    allWritten_ofTask (plain task htask)⟩

end Node

theorem HookKind.isWord_tag (kind : HookKind) : IsWord kind.tag := by cases kind <;> decide

section

variable {names : List String}

/-- The containers of hooks stand where hooks may: in the schema itself or in one of its states. -/
theorem HookLists.mem_toNodes {hooks : HookLists} {container parent : Node} (words : hooks.InWords)
    (place : parent.kind = .root ∨ parent.IsStateAmong names) (h : container ∈ hooks.toNodes) :
    container.kind = .element ∧ container.MayStandIn names parent ∧ container.AllWritten names := by
  obtain ⟨kind, -, rfl⟩ := mem_toNodes_iff.mp h
  have other : kind.tag ≠ Tag.states ∧ kind.tag ≠ Tag.events := by cases kind <;> decide
  exact ⟨rfl, ⟨.inl rfl, fun states => absurd states other.1, fun events => absurd events other.2,
      fun _ _ => place⟩,
    Node.allWritten_of_tasks rfl kind.isWord_tag nofun rfl (words.tasks kind)⟩

/-- A node with hooks and one more element in it: a state, or the schema. Both are written in this
way, and `last` is the node of the events or of the states. -/
theorem Node.allWritten_of_hooks {n last : Node} {hooks : HookLists}
    (place : n.kind = .root ∨ n.IsStateAmong names) (name : IsWord n.name)
    (attributes : n.attributes = []) (children : n.children = hooks.toNodes ++ [last])
    (words : hooks.InWords)
    (element : last.kind = .element ∧ last.MayStandIn names n ∧ last.AllWritten names) :
    n.AllWritten names := by
  have kind : n.kind = .element ∨ n.kind = .root := place.symm.imp_left And.left
  refine allWritten_of_elements kind name (by simp [attributes]) fun child hchild => ?_
  rw [children, List.mem_append, List.mem_singleton] at hchild
  rcases hchild with container | rfl
  · exact HookLists.mem_toNodes words place container
  · exact element

/-- An event is an element with tasks in it whose attributes are words: the target and the error
state, where they are given. -/
theorem Event.allWritten_toNode {event : Event} (words : event.InWords) :
    event.toNode.AllWritten names := by
  have attributes : ∀ a ∈ event.attributes, IsWord a.name ∧ IsWord a.value := by
    intro a ha
    simp only [attributes, List.mem_append, Option.mem_toList,
      Option.map_eq_some_iff] at ha
    rcases ha with target | ⟨answer, answers, rfl⟩
    · split at target
      · cases target
      · rename_i nowhere
        obtain rfl := List.mem_singleton.mp target
        exact ⟨show IsWord Tag.targetState by decide, words.target.resolve_left nowhere⟩
    · exact ⟨show IsWord Tag.errorState by decide, words.errorState answer answers⟩
  exact Node.allWritten_of_tasks rfl words.name.1 attributes rfl words.tasks

/-- A state is written down rightly if it is one of the known states. Its hooks may stand in it for
that reason, and so may the node of its events. -/
theorem State.allWritten_toNode {state : State} (words : state.InWords)
    (known : state.name ∈ names) : state.toNode.AllWritten names := by
  have among : state.toNode.IsStateAmong names := ⟨rfl, known⟩
  have events :
      Node.AllWritten names ⟨.element, Tag.events, [], state.events.map Event.toNode⟩ := by
    refine Node.allWritten_of_elements (.inl rfl) (show IsWord Tag.events by decide) nofun
      fun child hchild => ?_
    obtain ⟨event, hevent, rfl⟩ := List.mem_map.mp hchild
    have event_words := words.events event hevent
    exact ⟨rfl, Node.mayStandIn_of_plain _ (.inl rfl) event_words.name,
      Event.allWritten_toNode event_words⟩
  have other : Tag.events ≠ Tag.states ∧ ∀ kind : HookKind, Tag.events ≠ kind.tag :=
    ⟨by decide, fun kind => by cases kind <;> decide⟩
  exact Node.allWritten_of_hooks (.inr among) words.name.1 rfl rfl words.hooks
    ⟨rfl, ⟨.inl rfl, fun states => absurd states other.1, fun _ => among,
      fun kind tag => absurd tag (other.2 kind)⟩, events⟩

/-- **The tree of a schema has been written down rightly**, all of it. The names of the states are
those that the tree itself declares. -/
theorem Schema.allWritten_toNode {schema : Schema} (words : schema.InWords) :
    schema.toNode.AllWritten (schema.states.map (·.name)) := by
  have states : Node.AllWritten (schema.states.map (·.name))
      ⟨.element, Tag.states, [], schema.states.map State.toNode⟩ := by
    refine Node.allWritten_of_elements (.inl rfl) (show IsWord Tag.states by decide) nofun
      fun child hchild => ?_
    obtain ⟨state, hstate, rfl⟩ := List.mem_map.mp hchild
    have state_words := words.states state hstate
    exact ⟨rfl, Node.mayStandIn_of_plain _ (.inl rfl) state_words.name,
      State.allWritten_toNode state_words (List.mem_map_of_mem hstate)⟩
  have other : Tag.states ≠ Tag.events := by decide
  exact Node.allWritten_of_hooks (.inl rfl) (show IsWord Tag.schema by decide) rfl rfl words.hooks
    ⟨rfl, ⟨.inl rfl, fun _ => rfl, fun events => absurd events other, fun _ _ => .inl rfl⟩, states⟩

end

/-! ## The height of a schema -/

namespace Node

variable {n : Node} {bound : Nat}

/-- A node is at most one higher than its children. -/
theorem height_le_succ (below : ∀ child ∈ n.children, child.height ≤ bound) :
    n.height ≤ bound + 1 := by
  have highest := heightOfAll_le_iff.mpr below
  rw [height_eq]
  split <;> omega

/-- A container of tasks is not higher than 2: itself and the tasks, since texts do not count. -/
theorem height_le_two_of_tasks {tasks : List String} (children : n.children = tasks.map .ofTask) :
    n.height ≤ 2 := by
  refine height_le_succ fun child hchild => ?_
  rw [children] at hchild
  obtain ⟨task, -, rfl⟩ := List.mem_map.mp hchild
  exact Nat.le_of_eq (by simp [ofTask, ofText, height, heightOfAll])

end Node

/-- A state is not higher than 4, with its events, their tasks and itself. However large a schema
is, its tree does not get any deeper. -/
theorem State.height_toNode_le (state : State) : state.toNode.height ≤ 4 := by
  refine Node.height_le_succ fun child hchild => ?_
  rcases List.mem_append.mp hchild with container | events
  · obtain ⟨kind, -, rfl⟩ := HookLists.mem_toNodes_iff.mp container
    exact Nat.le_succ_of_le (Node.height_le_two_of_tasks rfl)
  · obtain rfl := List.mem_singleton.mp events
    refine Node.height_le_succ fun child hchild => ?_
    obtain ⟨event, -, rfl⟩ := List.mem_map.mp hchild
    exact Node.height_le_two_of_tasks rfl

/-- So a schema is not higher than 6, far below the limit. -/
theorem Schema.height_toNode_le (schema : Schema) : schema.toNode.height ≤ 6 := by
  refine Node.height_le_succ fun child hchild => ?_
  rcases List.mem_append.mp hchild with container | states
  · obtain ⟨kind, -, rfl⟩ := HookLists.mem_toNodes_iff.mp container
    exact Nat.le_trans (Node.height_le_two_of_tasks rfl) (by decide)
  · obtain rfl := List.mem_singleton.mp states
    refine Node.height_le_succ fun child hchild => ?_
    obtain ⟨state, -, rfl⟩ := List.mem_map.mp hchild
    exact state.height_toNode_le

/-! ## The tree of a schema -/

namespace Schema

variable {schema : Schema}

/-- The tree of a schema is that of a document. -/
theorem isDocument_toNode (words : schema.InWords) : schema.toNode.IsDocument :=
  ⟨rfl, fun m within => (allWritten_toNode words m within).regular,
    Nat.le_trans schema.height_toNode_le (by decide)⟩

/-- All of its elements are closed under their own names. -/
theorem allClosed_toNode (words : schema.InWords) : schema.toNode.AllClosed :=
  fun m within => (allWritten_toNode words m within).closed

/-- Blanks do not matter: every text with the tokens of a schema is read as its tree. This is the
round trip of documents, for a tree that is closed and so has no warnings. -/
theorem parse_of_spaced (words : schema.InWords) {text : String}
    (written : Spaced schema.toNode.tokens text.toList) :
    Document.parse text = .ok ⟨schema.toNode, []⟩ := by
  obtain ⟨warnings, read, clean⟩ := Document.parse_of_spaced (isDocument_toNode words) written
  rw [read, clean (allClosed_toNode words)]

/-- **The tree of a schema is valid**, and its states are those of the schema. The nodes are all in
their places, so nothing is found; and of all nodes only the one of the states declares anything. -/
theorem validate_toNode (words : schema.InWords) (strict : Bool) :
    schema.toNode.validate strict = .ok (.ofList (schema.states.map (·.name))) := by
  have hooks : schema.hooks.toNodes.flatMap
      (fun child => Visit.declares ⟨child, some schema.toNode⟩) = [] := by
    rw [List.flatMap_eq_nil_iff]
    intro container h
    obtain ⟨kind, -, rfl⟩ := HookLists.mem_toNodes_iff.mp h
    have other : kind.tag ≠ Tag.states := by cases kind <;> decide
    exact if_neg other
  refine Node.validate_of_placed rfl rfl (fun m within => (allWritten_toNode words m within).placed)
    ⟨_, List.mem_append_right _ (List.mem_singleton_self _), rfl⟩ ?_ strict
  calc
    schema.toNode.children.flatMap (fun child => Visit.declares ⟨child, some schema.toNode⟩)
      = (Node.elementChildren ⟨.element, Tag.states, [], schema.states.map State.toNode⟩).map
          (·.name) := by
        rw [show schema.toNode.children = schema.hooks.toNodes ++ [_] from rfl, List.flatMap_append,
          hooks, List.nil_append, List.flatMap_singleton]
        rfl
    _ = schema.states.map (·.name) := by
        rw [elementChildren_states, List.map_map]
        rfl

/-- What a schema refers to is in the schema, and no name makes a key that all events or all states
share. -/
structure IsSelfContained (schema : Schema) : Prop where
  targets : ∀ told ∈ schema.events, told.2.target ≠ "" ∧ schema.HasState told.2.target
  errorStates : ∀ told ∈ schema.events, ∀ target ∈ told.2.errorState, schema.HasState target
  states : ∀ state ∈ schema.states, state.name ≠ "state"
  events : ∀ told ∈ schema.events, told.2.name ≠ "event"

/-- The names that the tree declares are the states that the schema has. -/
theorem contains_names_iff {name : String} :
    (NameSet.ofList (schema.states.map (·.name))).contains name = true ↔ schema.HasState name := by
  have nothing : (NameMap.empty : NameSet).contains name = false := rfl
  rw [NameSet.ofList, NameSet.contains_addAll, nothing, Bool.or_false, List.contains_iff_mem,
    List.mem_map, HasState]

/-- For a schema in words the strict rules ask for no more than that it is self-contained: names of
states and events are no structural words anyway. -/
theorem checkReferences_eq_ok_iff_isSelfContained (words : schema.InWords) :
    schema.checkReferences (.ofList (schema.states.map (·.name))) = .ok () ↔
      schema.IsSelfContained := by
  have plain : ∀ state ∈ schema.states, Tag.isStructural state.name = false := fun state hstate =>
    (words.states state hstate).name.2
  rw [checkReferences_eq_ok_iff, referenceViolations_eq_nil_iff]
  simp only [contains_names_iff]
  constructor
  · rintro ⟨states, events⟩
    exact ⟨fun told htold => ⟨(events told htold).2.1, (events told htold).2.2 _ (.inl rfl)⟩,
      fun told htold target answers => (events told htold).2.2 target (.inr answers),
      fun state hstate => (states state hstate).2, fun told htold => (events told htold).1⟩
  · rintro ⟨targets, errorStates, states, events⟩
    refine ⟨fun state hstate => ⟨plain state hstate, states state hstate⟩, fun told htold =>
      ⟨events told htold, (targets told htold).1, ?_⟩⟩
    rintro target (rfl | answers)
    · exact (targets told htold).2
    · exact errorStates told htold target answers

end Schema

namespace Engine

/-- An engine is made of the tree of a schema, unless strict rules are asked for and the schema is
not self-contained; and it is an engine of the schema. Both modes agree up to the check of the
references, because there is nothing unknown in the tree. -/
theorem ofNode_toNode_eq_ok_iff {schema : Schema} (words : schema.InWords) {options : EngineOptions}
    {engine : Engine} :
    ofNode options schema.toNode = .ok engine ↔
      (options.strict = true → schema.IsSelfContained) ∧
        ofSchema options schema (.ofList (schema.states.map (·.name))) = engine := by
  rw [ofNode_eq_ok_iff, Schema.ofNode_toNode words, Schema.validate_toNode words]
  simp only [Except.ok.injEq, exists_eq_left',
    Schema.checkReferences_eq_ok_iff_isSelfContained words]

/-- **Schemas that are written down are compiled again.** A schema can be printed, and every text
with the same tokens compiles to an engine of the schema, without a warning. Strict rules accept it
exactly if the schema is self-contained. -/
theorem compile_written {schema : Schema} (words : schema.InWords) (fallback : Bool) :
    let engine (strict : Bool) : Engine :=
      ofSchema ⟨strict, fallback⟩ schema (.ofList (schema.states.map (·.name)))
    Spaced schema.toNode.tokens schema.toNode.print.toList ∧
      ∀ text : String, Spaced schema.toNode.tokens text.toList →
        compile ⟨false, fallback⟩ text = ⟨[(engine false).summary], .ok (engine false)⟩ ∧
        ((∃ made, (compile ⟨true, fallback⟩ text).result = .ok made) ↔ schema.IsSelfContained) ∧
        (schema.IsSelfContained →
          compile ⟨true, fallback⟩ text = ⟨[(engine true).summary], .ok (engine true)⟩) := by
  intro engine
  refine ⟨Document.spaced_print (Schema.isDocument_toNode words), fun text written => ?_⟩
  have parsed := Schema.parse_of_spaced words written
  have compiles {strict : Bool} (accepted : strict = true → schema.IsSelfContained) :
      compile ⟨strict, fallback⟩ text = ⟨[(engine strict).summary], .ok (engine strict)⟩ := by
    have made : ofNode ⟨strict, fallback⟩ schema.toNode = .ok (engine strict) :=
      (ofNode_toNode_eq_ok_iff words).mpr ⟨accepted, rfl⟩
    simp [compile, parsed, made]
  refine ⟨compiles fun strict => absurd strict Bool.false_ne_true, ⟨?_, fun contained => ?_⟩,
    fun contained => compiles fun _ => contained⟩
  · rintro ⟨made, compiled⟩
    obtain ⟨document, read, made_of⟩ := compile_eq_ok_iff.mp compiled
    obtain rfl := Except.ok.inj (parsed.symm.trans read)
    exact ((ofNode_toNode_eq_ok_iff words).mp made_of).1 rfl
  · exact ⟨engine true, by rw [compiles fun _ => contained]⟩

/-- Two states, one of them with a hook and an event, in a text with blanks here and there. The
second state is not declared before the first refers to it, which does not matter. -/
theorem compile_written_of_two :
    let schema : Schema :=
      ⟨.none, [⟨"a", ⟨[], ["t"], []⟩, [⟨"Go", "b", some "a", []⟩]⟩, ⟨"b", .none, []⟩]⟩
    let text := "<Schema><States ><a><OnAfterEvent><Task> t</Task></OnAfterEvent>\n<Events>" ++
      "<Go targetState = \"b\" errorState=\" a\"></Go></Events></a>" ++
      "<b><Events></Events></b></States></Schema>\n"
    let engine := ofSchema ⟨true, true⟩ schema (.ofList ["a", "b"])
    schema.InWords ∧ schema.IsSelfContained ∧ Spaced schema.toNode.tokens text.toList ∧
      compile ⟨true, true⟩ text = ⟨[engine.summary], .ok engine⟩ := by
  intro schema text engine
  have words : schema.InWords := by decide
  have contained : schema.IsSelfContained := ⟨by decide, by decide, by decide, by decide⟩
  have tokens : (tokenize text).map (·.token) = schema.toNode.tokens ++ [.eof] := by decide +kernel
  have written := (tokens_tokenize_eq_iff.mp tokens).2
  obtain ⟨-, every⟩ := compile_written words true
  exact ⟨words, contained, written, (every text written).2.2 contained⟩

end Engine

end StateMarkup
