import StateMarkup.Proofs.Declarations
import StateMarkup.Proofs.Node.Shape
import StateMarkup.Proofs.Schema.States

/-!
# Every name is a word

Names are put together with other texts to keys and messages, and it is never asked what is in them.
It need not be: the tree that a document is read as is made of words (`Node.IsDocument`), a schema
takes its names out of the tree as they are, and the tables take them out of the schema
(`Engine.documents_in_words`). One name may be empty, that of a target that is not given.
-/

namespace StateMarkup

/-! ## Schemas in words -/

/-- The tasks in the lists are words. -/
def HookLists.Worded (hooks : HookLists) : Prop := ∀ kind, ∀ task ∈ hooks.tasks kind, IsWord task

/-- The names in an event are words, but for a target that is not given. Unlike with `Event.InWords`
they need not be plain: this is about what is read, not about what is to be read again. -/
structure Event.Worded (event : Event) : Prop where
  name : IsWord event.name
  target : event.target = "" ∨ IsWord event.target
  errorState : ∀ target ∈ event.errorState, IsWord target
  tasks : ∀ task ∈ event.tasks, IsWord task

/-- All names in a state are like that. -/
structure State.Worded (state : State) : Prop where
  name : IsWord state.name
  hooks : state.hooks.Worded
  events : ∀ event ∈ state.events, event.Worded

/-- All names in a schema are like that. -/
structure Schema.Worded (schema : Schema) : Prop where
  hooks : schema.hooks.Worded
  states : ∀ state ∈ schema.states, state.Worded

/-! ## What is read off a tree -/

namespace Node

variable {n : Node}

/-- What is below a node of words is of words. -/
theorem AllRegular.child (all : n.AllRegular) {child : Node} (hchild : child ∈ n.children) :
    child.AllRegular :=
  (allRegular_iff.mp all).2 child hchild

theorem AllRegular.isRegular (all : n.AllRegular) : n.IsRegular := all n (.top n)

/-- Whichever attribute is asked for, its value is a word. -/
theorem IsRegular.isWord_attribute? (regular : n.IsRegular) {name value : String}
    (found : n.attribute? name = some value) : IsWord value := by
  obtain ⟨a, ha, rfl⟩ := Option.map_eq_some_iff.mp found
  exact (regular.attributes a (List.mem_reverse.mp (List.mem_of_find?_eq_some ha))).2

/-- The text in a node is a word. -/
theorem AllRegular.isWord_textContent? (all : n.AllRegular) {text : String}
    (found : n.textContent? = some text) : IsWord text := by
  obtain ⟨child, hchild, rfl⟩ := Option.map_eq_some_iff.mp found
  exact (all.child (List.mem_of_find?_eq_some hchild)).isRegular.name

/-- So the names of tasks are words, since they are the texts of children. -/
theorem AllRegular.isWord_of_mem_taskNames (all : n.AllRegular) :
    ∀ task ∈ n.taskNames, IsWord task := by
  intro task htask
  obtain ⟨child, hchild, text⟩ := List.mem_filterMap.mp htask
  exact (all.child (List.mem_of_mem_filter hchild)).isWord_textContent? text

/-- And so are the tasks of a hook, whichever container of it is the one that is read. -/
theorem AllRegular.isWord_of_mem_hookTasks (all : n.AllRegular) (kind : HookKind) :
    ∀ task ∈ n.hookTasks kind, IsWord task := by
  rw [hookTasks]
  split
  · rename_i container found
    have below := List.mem_reverse.mp (List.mem_of_find?_eq_some found)
    exact (all.child below).isWord_of_mem_taskNames
  · exact List.forall_mem_nil _

end Node

section

variable {n : Node} (all : n.AllRegular)
include all

/-- The lists of hooks that are read from a node of words are of words. -/
theorem HookLists.worded_ofNode : (HookLists.ofNode n).Worded := by
  intro kind
  cases kind with
  | before => exact all.isWord_of_mem_hookTasks .before
  | after => exact all.isWord_of_mem_hookTasks .after
  | onEnter => exact all.isWord_of_mem_hookTasks .onEnter

/-- An event that is read from a node of words is of words. Its target is the one name that can be
empty. -/
theorem Event.worded_ofNode : (Event.ofNode n).Worded where
  name := all.isRegular.name
  target := by
    rw [ofNode]
    cases found : n.attribute? Tag.targetState with
    | none => exact .inl rfl
    | some target => exact .inr (all.isRegular.isWord_attribute? found)
  errorState := by
    intro target given
    exact all.isRegular.isWord_attribute? (Option.filter_eq_some_iff.mp given).1
  tasks := all.isWord_of_mem_taskNames

/-- A state that is read from a node of words is of words. -/
theorem State.worded_ofNode : (State.ofNode n).Worded where
  name := all.isRegular.name
  hooks := HookLists.worded_ofNode all
  events := by
    intro event hevent
    rw [ofNode] at hevent
    split at hevent
    · rename_i events found
      obtain ⟨child, hchild, rfl⟩ := List.mem_map.mp hevent
      have below := all.child (Node.mem_of_child? found).1
      exact Event.worded_ofNode (below.child (List.mem_of_mem_filter hchild))
    · cases hevent

/-- **A tree of words is read as a schema of words.** Names are only ever taken over from nodes, so
each part follows from the one below it. -/
theorem Schema.worded_ofNode : (Schema.ofNode n).Worded where
  hooks := HookLists.worded_ofNode all
  states := by
    intro state hstate
    rw [ofNode] at hstate
    split at hstate
    · rename_i states found
      obtain ⟨child, hchild, rfl⟩ := List.mem_map.mp hstate
      have below := all.child (Node.mem_of_child? found).1
      exact State.worded_ofNode (below.child (List.mem_of_mem_filter hchild))
    · cases hstate

/-- What a tree of words declares is a word. -/
theorem Node.Declares.isWord {name : String} (declares : n.Declares name) : IsWord name := by
  obtain ⟨states, within, -, child, hchild, rfl⟩ := declares
  exact (all child (within.child (List.mem_of_mem_filter hchild))).name

end

/-! ## Tables -/

/-- The names in a transition are words, but for a target that is not given. -/
structure Transition.Worded (t : Transition) : Prop where
  event : IsWord t.event
  source : IsWord t.source
  target : t.target = "" ∨ IsWord t.target
  errorState : ∀ target ∈ t.errorState, IsWord target

/-- Keys and tasks are words, and there is no key without tasks. -/
def HookTable.Worded (table : HookTable) : Prop :=
  ∀ key tasks, table.get? key = some tasks →
    IsWord key ∧ tasks ≠ [] ∧ ∀ task ∈ tasks, IsWord task

/-- The name of a fallback is a word: the name of an event with a suffix. -/
theorem IsWord.fallbackEvent {event : String} (word : IsWord event) :
    IsWord (fallbackEvent event) :=
  word.append (by decide)

/-- The transitions of an event of words are of words. This is both the one that is written and the
one to the error state, which is made up. -/
theorem Event.Worded.transition {event : Event} {source : String} {t : Transition}
    (words : event.Worded) (owner : IsWord source) (ht : t ∈ event.transitions source) :
    t.Worded := by
  rcases mem_transitions_iff.mp ht with rfl | ⟨target, given, rfl⟩
  · exact ⟨words.name, owner, words.target, words.errorState⟩
  · exact ⟨words.name.fallbackEvent, owner, .inr (words.errorState target given), nofun⟩

namespace HookTable.Worded

theorem empty : HookTable.empty.Worded := nofun

/-- More tasks make the list of their key longer. Without tasks to append no entry is made, which is
why every key has tasks. -/
theorem append {table : HookTable} (words : table.Worded) {key : String} {tasks : List String}
    (key_word : IsWord key) (task_words : ∀ task ∈ tasks, IsWord task) :
    (table.append key tasks).Worded := by
  unfold HookTable.append
  split
  · exact words
  · rename_i some_task
    intro other found_tasks found
    rw [HookTable.get?, NameMap.get?_update] at found
    split at found
    · rename_i same
      subst same
      cases found
      refine ⟨key_word, ?_, ?_⟩
      · intro none
        exact some_task (List.isEmpty_iff.mpr (List.append_eq_nil_iff.mp none).2)
      · refine List.forall_mem_append.mpr ⟨?_, task_words⟩
        cases before : table.lists.get? other with
        | none => exact List.forall_mem_nil _
        | some old => exact (words other old before).2.2
    · exact words other found_tasks found

/-- A table that lists of words are appended to is one of words. -/
theorem foldl {lists : List (String × List String)}
    (each : ∀ list ∈ lists, IsWord list.1 ∧ ∀ task ∈ list.2, IsWord task) {table : HookTable}
    (words : table.Worded) :
    (lists.foldl (fun table (key, tasks) => table.append key tasks) table).Worded := by
  induction lists generalizing table with
  | nil => exact words
  | cons list rest ih =>
    obtain ⟨⟨key, tasks⟩, others⟩ := List.forall_mem_cons.mp each
    exact ih others (words.append key tasks)

end HookTable.Worded

namespace Schema

variable {schema : Schema}

/-- The events of a schema are those of its states, each told with its state. -/
theorem mem_events_iff {state : State} {event : Event} :
    (state, event) ∈ schema.events ↔ state ∈ schema.states ∧ event ∈ state.events := by
  simp [events]

namespace Worded

/-- The lists of tasks of one event have words for keys: a prefix and the name of the event. -/
theorem eventHooks {state : State} {event : Event} (words : state.Worded) (named : event.Worded) :
    ∀ list ∈ eventHooks state event, IsWord list.1 ∧ ∀ task ∈ list.2, IsWord task := by
  have before : IsWord (HookKey.before event.name) := .append (by decide) named.name
  have after : IsWord (HookKey.after event.name) := .append (by decide) named.name
  simp only [Schema.eventHooks, List.forall_mem_cons]
  exact ⟨⟨before, words.hooks .before⟩, ⟨before, named.tasks⟩, ⟨after, words.hooks .after⟩,
    List.forall_mem_nil _⟩

/-- The lists of tasks of one state have words for keys as well. -/
theorem stateHooks {state : State} (words : state.Worded) :
    ∀ list ∈ stateHooks state, IsWord list.1 ∧ ∀ task ∈ list.2, IsWord task := by
  have enter : IsWord (HookKey.enter state.name) := .append (by decide) words.name
  refine List.forall_mem_cons.mpr ⟨⟨enter, words.hooks .onEnter⟩, ?_⟩
  intro list hlist
  obtain ⟨event, hevent, hlist⟩ := List.mem_flatMap.mp hlist
  exact eventHooks words (words.events event hevent) list hlist

variable (words : schema.Worded)
include words

/-- The tables of a schema of words are of words. -/
theorem hookTable : schema.hookTable.Worded := by
  refine HookTable.Worded.empty.foldl (List.forall_mem_append.mpr ⟨?_, ?_⟩)
  · simp only [List.forall_mem_cons]
    exact ⟨⟨by decide, words.hooks .before⟩, ⟨by decide, words.hooks .after⟩,
      ⟨by decide, words.hooks .onEnter⟩, List.forall_mem_nil _⟩
  · intro list hlist
    obtain ⟨state, hstate, hlist⟩ := List.mem_flatMap.mp hlist
    exact stateHooks (words.states state hstate) list hlist

/-- Every transition in the table comes from an event of the schema. -/
theorem transitionTable : ∀ t ∈ schema.transitionTable.toList, t.Worded := by
  intro t ht
  rw [Schema.transitionTable, TransitionTable.toList_ofList] at ht
  obtain ⟨⟨state, event⟩, declared, ht⟩ := mem_transitions_iff.mp ht
  obtain ⟨hstate, hevent⟩ := mem_events_iff.mp declared
  have state_words := words.states state hstate
  exact (state_words.events event hevent).transition state_words.name ht

end Worded

end Schema

/-! ## Engines in words -/

/-- **All names of an engine are words**, but for targets that are not given. -/
structure Engine.Worded (engine : Engine) : Prop where
  schema : engine.schema.Worded
  declared : ∀ state, engine.states.contains state = true → IsWord state
  transitions : ∀ t ∈ engine.transitions.toList, t.Worded
  hooks : engine.hooks.Worded

namespace Engine

/-- An engine has its names from the tree: through its schema, from which the tables are made, and
through the states that the tree declares. -/
theorem worded_of_ofNode {options : EngineOptions} {root : Node} {engine : Engine}
    (all : root.AllRegular) (made : ofNode options root = .ok engine) : engine.Worded := by
  obtain ⟨states, valid, -, rfl⟩ := ofNode_eq_ok_iff.mp made
  have words := Schema.worded_ofNode all
  refine ⟨words, ?_, words.transitionTable, words.hookTable⟩
  intro state declared
  exact ((Node.contains_validate_iff valid).mp declared).isWord all

/-- **Documents are in words.** Every tree that is read has the shape of one, and all that is
compiled from it is in words. The two halves belong together: the names are words because the tree
is made of words. -/
theorem documents_in_words {source : String} {document : Document}
    (parsed : Document.parse source = .ok document) :
    document.root.IsDocument ∧ ∀ options engine,
      (compile options source).result = .ok engine → engine.Worded := by
  have shape := Document.isDocument_root parsed
  refine ⟨shape, ?_⟩
  intro options engine compiled
  obtain ⟨read, again, made⟩ := compile_eq_ok_iff.mp compiled
  obtain rfl := Except.ok.inj (parsed.symm.trans again)
  exact worded_of_ofNode shape.regular made

/-- The one name that is empty is that of a target that is not given. -/
theorem documents_in_words_of_one :
    let source := "<Schema><States><a><OnAfterEvent><Task>t</Task></OnAfterEvent><Events>" ++
      "<Go errorState=\"a\"></Go></Events></a></States></Schema>"
    ∃ document engine, Document.parse source = .ok document ∧
      (compile .default source).result = .ok engine ∧
      document.root.IsDocument ∧ engine.Worded ∧
      engine.transitions.toList = [⟨"Go", "a", "", some "a", .regular⟩,
        ⟨"Go_failed", "a", "a", none, .fallback⟩] ∧
      engine.hooks.toList = [("after_Go", ["t"])] := by
  intro source
  obtain ⟨engine, compiled, tables⟩ : ∃ engine, (compile .default source).result = .ok engine ∧
      engine.transitions.toList = [⟨"Go", "a", "", some "a", .regular⟩,
        ⟨"Go_failed", "a", "a", none, .fallback⟩] ∧
      engine.hooks.toList = [("after_Go", ["t"])] :=
    exists_of_compile_any (by decide +kernel)
  obtain ⟨document, parsed, -⟩ := compile_eq_ok_iff.mp compiled
  obtain ⟨shape, words⟩ := documents_in_words parsed
  exact ⟨document, engine, parsed, compiled, shape, words .default engine compiled, tables⟩

end Engine

end StateMarkup
