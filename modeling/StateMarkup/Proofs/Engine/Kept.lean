import StateMarkup.Proofs.Declarations
import StateMarkup.Proofs.Engine.Compiled
import StateMarkup.Proofs.Schedule

/-!
# What is read of repeated containers

Hooks and events stand in containers, and the rules of place accept any number of them in a schema
or a state. The schema reads the last container of hooks of each kind and the first one of events,
and passes over the others. `Containers` is a choice among them, and with one `Node.HasTask`,
`Node.HasKey` and `Node.HasEvent` say which tasks, keys and events a tree has.

What an engine has is what the containers that are read say, neither more nor less. So a task is
lost for one of two reasons: its container is passed over, or its hook has no key, as it is with
what a state schedules around its events when it has none. `Engine.keepsAll_iff` says exactly when
nothing is lost, and that there is no third reason.
-/

namespace StateMarkup

/-! ## Choosing containers -/

/-- Which of the containers in a node count. -/
structure Containers where
  hooks : Node → HookKind → Node → Prop
  events : Node → Node → Prop

namespace Containers

/-- All of them, whether they are closed by their own name or not. -/
def all : Containers where
  hooks n kind c := c ∈ n.children ∧ c.name = kind.tag ∧ c.isText = false
  events n c := c ∈ n.children ∧ c.name = Tag.events ∧ c.isText = false

/-- Those that the schema reads: the last container of hooks of a kind and the first of events. -/
def read : Containers where
  hooks n kind c := n.children.reverse.find? (·.name == kind.tag) = some c
  events n c := n.child? Tag.events = some c

end Containers

namespace Node

variable {counts more : Containers} {root n s e : Node} {kind : HookKind} {key task : String}

/-- The elements of a tree that are the states of its schema. -/
def stateNodes (root : Node) : List Node :=
  match root.child? Tag.states with
  | some states => states.elementChildren
  | none => []

/-- A state of the tree and an event in one of its containers that count. -/
def HasEvent (root : Node) (counts : Containers) (s e : Node) : Prop :=
  s ∈ root.stateNodes ∧ ∃ events, counts.events s events ∧ e ∈ events.children ∧ e.isEvent = true

/-- The transition that an element has as an event of a state. -/
def transitionIn (e s : Node) : Transition :=
  ⟨e.name, s.name, (e.attribute? Tag.targetState).getD "",
    (e.attribute? Tag.errorState).filter (· != ""), .regular⟩

/-- **The keys of a hook** in the root or in a state. A hook of the root has the one key that all
events or states share. In a state, the hook on entering has the key of the state, and those around
its events have the key of each event: as many as it has events, and none if it has none. -/
inductive HasKey (root : Node) (counts : Containers) : Node → HookKind → String → Prop where
  | beforeAll : HasKey root counts root .before HookKey.beforeEvent
  | afterAll : HasKey root counts root .after HookKey.afterEvent
  | enterAll : HasKey root counts root .onEnter HookKey.enterState
  | enter {s : Node} : s ∈ root.stateNodes → HasKey root counts s .onEnter (HookKey.enter s.name)
  | before {s e : Node} : root.HasEvent counts s e →
      HasKey root counts s .before (HookKey.before e.name)
  | after {s e : Node} : root.HasEvent counts s e →
      HasKey root counts s .after (HookKey.after e.name)

/-- A task of a hook: it stands in a container of the root or of a state that counts. -/
structure HasTask (root : Node) (counts : Containers) (n : Node) (kind : HookKind)
    (task : String) : Prop where
  place : n = root ∨ n ∈ root.stateNodes
  inside : ∃ c, counts.hooks n kind c ∧ task ∈ c.taskNames

/-- **What a tree schedules** under a key: the tasks of the hooks that have the key, and those that
stand in an event itself. -/
inductive Schedules (root : Node) (counts : Containers) : String → String → Prop where
  | hook {n : Node} {kind : HookKind} {key task : String} : root.HasTask counts n kind task →
      root.HasKey counts n kind key → Schedules root counts key task
  | own {s e : Node} {task : String} : root.HasEvent counts s e → task ∈ e.taskNames →
      Schedules root counts (HookKey.before e.name) task

/-- The second choice has every container of the first, in the root and in the states. -/
structure Covers (root : Node) (counts more : Containers) : Prop where
  hooks : ∀ n, n = root ∨ n ∈ root.stateNodes → ∀ kind c,
    counts.hooks n kind c → more.hooks n kind c
  events : ∀ s ∈ root.stateNodes, ∀ c, counts.events s c → more.events s c

instance : Decidable (root.Covers .all .read) :=
  decidable_of_iff
    ((∀ n ∈ root :: root.stateNodes, ∀ kind ∈ HookKind.all, ∀ c ∈ n.children,
        c.name = kind.tag → c.isText = false →
          n.children.reverse.find? (·.name == kind.tag) = some c) ∧
      ∀ s ∈ root.stateNodes, ∀ c ∈ s.children, c.name = Tag.events → c.isText = false →
        s.child? Tag.events = some c)
    (by
      have each (kind : HookKind) : kind ∈ HookKind.all := by cases kind <;> decide
      refine ⟨?_, ?_⟩
      · rintro ⟨hooks, events⟩
        exact ⟨fun n hn kind c ⟨hc, tag, element⟩ =>
            hooks n (List.mem_cons.mpr hn) kind (each kind) c hc tag element,
          fun s hs c ⟨hc, tag, element⟩ => events s hs c hc tag element⟩
      · rintro ⟨hooks, events⟩
        exact ⟨fun n hn kind _ c hc tag element =>
            hooks n (List.mem_cons.mp hn) kind c ⟨hc, tag, element⟩,
          fun s hs c hc tag element => events s hs c ⟨hc, tag, element⟩⟩)

theorem Covers.hasEvent (covers : root.Covers counts more) (has : root.HasEvent counts s e) :
    root.HasEvent more s e := by
  obtain ⟨hs, events, counted, he⟩ := has
  exact ⟨hs, events, covers.events s hs events counted, he⟩

/-- More events give no hook fewer keys. -/
theorem Covers.hasKey (covers : root.Covers counts more) (has : root.HasKey counts n kind key) :
    root.HasKey more n kind key := by
  cases has with
  | beforeAll => exact .beforeAll
  | afterAll => exact .afterAll
  | enterAll => exact .enterAll
  | enter hs => exact .enter hs
  | before has => exact .before (covers.hasEvent has)
  | after has => exact .after (covers.hasEvent has)

theorem Covers.hasTask (covers : root.Covers counts more) (has : root.HasTask counts n kind task) :
    root.HasTask more n kind task := by
  obtain ⟨place, c, counted, ht⟩ := has
  exact ⟨place, c, covers.hooks n place kind c counted, ht⟩

/-- With more containers no less is scheduled. Tasks and keys grow apart from each other: a task is
scheduled where a container and an event meet, and each of the two is still there. -/
theorem Covers.schedules (covers : root.Covers counts more)
    (scheduled : root.Schedules counts key task) : root.Schedules more key task := by
  cases scheduled with
  | hook has_task has_key => exact .hook (covers.hasTask has_task) (covers.hasKey has_key)
  | own has ht => exact .own (covers.hasEvent has) ht

/-- What all containers say is said by those that are read: each task of a hook under some key of
the hook, each task of an event under the key of the event, and each event with all that its
transition has. What stands in a container that is passed over may be repeated in one that is read,
so this is less than that all are read. -/
structure ReadSaysAll (root : Node) : Prop where
  hooks : ∀ n kind task, root.HasTask .all n kind task →
    ∃ key, root.HasKey .all n kind key ∧ root.Schedules .read key task
  own : ∀ s e, root.HasEvent .all s e → ∀ task ∈ e.taskNames,
    root.Schedules .read (HookKey.before e.name) task
  events : ∀ s e, root.HasEvent .all s e →
    ∃ s' e', root.HasEvent .read s' e' ∧ e'.transitionIn s' = e.transitionIn s

/-- A state that schedules a task around its events has an event. Where one has none the task has no
key, and no table could hold it. -/
def TasksHaveEvents (root : Node) : Prop :=
  ∀ s ∈ root.stateNodes, ∀ kind, kind ≠ .onEnter → ∀ task, root.HasTask .all s kind task →
    ∃ e, root.HasEvent .all s e

instance : Decidable root.TasksHaveEvents :=
  decidable_of_iff
    (∀ s ∈ root.stateNodes, ∀ kind ∈ [HookKind.before, .after],
      (∃ c ∈ s.children, c.name = kind.tag ∧ c.isText = false ∧ c.taskNames ≠ []) →
        ∃ events ∈ s.children, events.name = Tag.events ∧ events.isText = false ∧
          ∃ e ∈ events.children, e.isEvent = true) <| by
    constructor
    · rintro events s hs kind around task ⟨-, c, ⟨hc, tag, element⟩, ht⟩
      have kinds : kind ∈ [HookKind.before, .after] := by cases kind <;> simp_all
      obtain ⟨c', hc', tag', element', e, he, event⟩ :=
        events s hs kind kinds ⟨c, hc, tag, element, List.ne_nil_of_mem ht⟩
      exact ⟨e, hs, c', ⟨hc', tag', element'⟩, he, event⟩
    · rintro events s hs kind kinds ⟨c, hc, tag, element, some_task⟩
      obtain ⟨task, ht⟩ := List.exists_mem_of_ne_nil _ some_task
      have around : kind ≠ .onEnter := by rintro rfl; simp at kinds
      obtain ⟨e, -, c', ⟨hc', tag', element'⟩, he, event⟩ :=
        events s hs kind around task ⟨.inr hs, c, ⟨hc, tag, element⟩, ht⟩
      exact ⟨c', hc', tag', element', e, he, event⟩

/-- A task of a hook has a key, unless it is scheduled around the events of a state that has
none. -/
theorem TasksHaveEvents.exists_hasKey (events : root.TasksHaveEvents)
    (has : root.HasTask .all n kind task) : ∃ key, root.HasKey .all n kind key := by
  rcases has.place with rfl | hs
  · cases kind with
    | before => exact ⟨_, .beforeAll⟩
    | after => exact ⟨_, .afterAll⟩
    | onEnter => exact ⟨_, .enterAll⟩
  · cases kind with
    | before =>
      obtain ⟨e, has_event⟩ := events n hs .before nofun task has
      exact ⟨_, .before has_event⟩
    | after =>
      obtain ⟨e, has_event⟩ := events n hs .after nofun task has
      exact ⟨_, .after has_event⟩
    | onEnter => exact ⟨_, .enter hs⟩

/-- A child is smaller than the node that it stands in. -/
theorem sizeOf_lt_of_mem_children {n child : Node} (h : child ∈ n.children) :
    sizeOf child < sizeOf n := by
  obtain ⟨kind, name, attributes, children⟩ := n
  have smaller : sizeOf child < sizeOf children := List.sizeOf_lt_of_mem h
  rw [mk.sizeOf_spec]
  omega

/-- No state is the root: it stands two levels below it, and so it is smaller. The keys of the root
and of a state are not mixed up for that reason, even where nodes are compared as values. -/
theorem root_not_mem_stateNodes (root : Node) : root ∉ root.stateNodes := by
  intro hroot
  rw [stateNodes] at hroot
  cases found : root.child? Tag.states with
  | none => simp [found] at hroot
  | some states =>
    rw [found] at hroot
    have above := sizeOf_lt_of_mem_children (List.mem_of_find?_eq_some found)
    have below := sizeOf_lt_of_mem_children (List.mem_of_mem_filter hroot)
    omega

/-- If no container is passed over, what all of them say is said exactly if every task has a key. -/
theorem Covers.readSaysAll_iff (covers : root.Covers .all .read) :
    root.ReadSaysAll ↔ root.TasksHaveEvents := by
  constructor
  · intro said s hs kind around task has
    obtain ⟨key, has_key, -⟩ := said.hooks s kind task has
    cases has_key with
    | enter => exact absurd rfl around
    | before has_event => exact ⟨_, has_event⟩
    | after has_event => exact ⟨_, has_event⟩
    | beforeAll | afterAll | enterAll => exact absurd hs (root_not_mem_stateNodes root)
  · intro events
    refine ⟨fun n kind task has => ?_, fun s e has task ht => .own (covers.hasEvent has) ht,
      fun s e has => ⟨s, e, covers.hasEvent has, rfl⟩⟩
    obtain ⟨key, has_key⟩ := events.exists_hasKey has
    exact ⟨key, has_key, covers.schedules (.hook has has_key)⟩

/-- Nothing is repeated here, and yet the task of the state has no key: the state has no event. -/
example :
    let task : Node := ⟨.element, "Task", [], [.ofText "a"]⟩
    let state : Node := ⟨.element, "s", [], [⟨.element, "OnBeforeEvent", [], [task]⟩]⟩
    let root : Node := ⟨.root, "Schema", [], [⟨.element, "States", [], [state]⟩]⟩
    root.Covers .all .read ∧ ¬ root.TasksHaveEvents := by decide

/-! ## What the schema reads -/

/-- The tasks of a hook are those of the container that is read. -/
theorem mem_hookTasks_iff :
    task ∈ n.hookTasks kind ↔ ∃ c, Containers.read.hooks n kind c ∧ task ∈ c.taskNames := by
  simp only [hookTasks, Containers.read]
  cases n.children.reverse.find? (·.name == kind.tag) <;> simp

/-- The states of a schema are read from the nodes that are states. -/
theorem mem_states_ofNode_iff {state : State} :
    state ∈ (Schema.ofNode root).states ↔ ∃ s ∈ root.stateNodes, .ofNode s = state := by
  rw [Schema.ofNode, stateNodes]
  cases root.child? Tag.states <;> simp

/-- The events of a state are read from the container of events that is read. -/
theorem mem_events_ofNode_iff {event : Event} (hs : s ∈ root.stateNodes) :
    event ∈ (State.ofNode s).events ↔ ∃ e, root.HasEvent .read s e ∧ .ofNode e = event := by
  simp only [State.ofNode, HasEvent, Containers.read, hs, true_and]
  cases s.child? Tag.events <;> simp [and_assoc]

/-- The lists of tasks of a state are among those of the schema. -/
theorem mem_hookLists_of_state {list : String × List String} (hs : s ∈ root.stateNodes)
    (h : list ∈ Schema.stateHooks (.ofNode s)) : list ∈ (Schema.ofNode root).hookLists := by
  have hstate := mem_states_ofNode_iff.mpr ⟨s, hs, rfl⟩
  exact List.mem_append_right _ (List.mem_flatMap.mpr ⟨.ofNode s, hstate, h⟩)

/-- So are those of an event that is read. -/
theorem HasEvent.mem_hookLists {list : String × List String} (has : root.HasEvent .read s e)
    (h : list ∈ Schema.eventHooks (.ofNode s) (.ofNode e)) :
    list ∈ (Schema.ofNode root).hookLists := by
  have hevent := (mem_events_ofNode_iff has.1).mpr ⟨e, has, rfl⟩
  have of_event := List.mem_flatMap.mpr ⟨Event.ofNode e, hevent, h⟩
  exact mem_hookLists_of_state has.1 (List.mem_cons_of_mem _ of_event)

/-- **The hook table has what is scheduled in the containers that are read**, and nothing else. A
task under a key is in one of the lists that the table is made of, and each of these lists belongs
to a hook of the root, to a hook of a state or to an event. -/
theorem mem_tasks_hookTable_iff :
    task ∈ (Schema.ofNode root).hookTable.tasks key ↔ root.Schedules .read key task := by
  have listed : task ∈ (Schema.ofNode root).hookTable.tasks key ↔
      ∃ list ∈ (Schema.ofNode root).hookLists, list.1 = key ∧ task ∈ list.2 := by
    rw [Schema.tasks_hookTable, tasksUnder, List.mem_flatMap]
    refine exists_congr fun list => and_congr_right fun _ => ?_
    by_cases same : list.1 = key
    · simp [same]
    · simp [same, Ne.symm same]
  rw [listed]
  refine ⟨?_, ?_⟩
  · rintro ⟨list, hlist, rfl, ht⟩
    rcases List.mem_append.mp hlist with shared | of_state
    · simp only [List.mem_cons, List.not_mem_nil, or_false] at shared
      rcases shared with rfl | rfl | rfl
      · exact .hook ⟨.inl rfl, mem_hookTasks_iff.mp ht⟩ .beforeAll
      · exact .hook ⟨.inl rfl, mem_hookTasks_iff.mp ht⟩ .afterAll
      · exact .hook ⟨.inl rfl, mem_hookTasks_iff.mp ht⟩ .enterAll
    · obtain ⟨state, hstate, hlist⟩ := List.mem_flatMap.mp of_state
      obtain ⟨s, hs, rfl⟩ := mem_states_ofNode_iff.mp hstate
      rcases List.mem_cons.mp hlist with rfl | hlist
      · exact .hook ⟨.inr hs, mem_hookTasks_iff.mp ht⟩ (.enter hs)
      · obtain ⟨event, hevent, hlist⟩ := List.mem_flatMap.mp hlist
        obtain ⟨e, has, rfl⟩ := (mem_events_ofNode_iff hs).mp hevent
        simp only [Schema.eventHooks, List.mem_cons, List.not_mem_nil, or_false] at hlist
        rcases hlist with rfl | rfl | rfl
        · exact .hook ⟨.inr hs, mem_hookTasks_iff.mp ht⟩ (.before has)
        · exact .own has ht
        · exact .hook ⟨.inr hs, mem_hookTasks_iff.mp ht⟩ (.after has)
  · intro scheduled
    cases scheduled with
    | own has ht => exact ⟨_, has.mem_hookLists (.tail _ (.head _)), rfl, ht⟩
    | hook has_task has_key =>
      have ht := mem_hookTasks_iff.mpr has_task.inside
      cases has_key with
      | beforeAll => exact ⟨_, .head _, rfl, ht⟩
      | afterAll => exact ⟨_, .tail _ (.head _), rfl, ht⟩
      | enterAll => exact ⟨_, .tail _ (.tail _ (.head _)), rfl, ht⟩
      | enter hs => exact ⟨_, mem_hookLists_of_state hs (.head _), rfl, ht⟩
      | before has => exact ⟨_, has.mem_hookLists (.head _), rfl, ht⟩
      | after has => exact ⟨_, has.mem_hookLists (.tail _ (.tail _ (.head _))), rfl, ht⟩

/-- The listing has the transitions of the events that are read, and besides them none that is the
transition of an event. -/
theorem mem_transitionTable_iff {t : Transition} :
    t ∈ (Schema.ofNode root).transitionTable.toList ∧ t.kind = .regular ↔
      ∃ s e, root.HasEvent .read s e ∧ e.transitionIn s = t := by
  rw [Schema.transitionTable, TransitionTable.toList_ofList, Schema.mem_transitions_iff]
  refine ⟨?_, ?_⟩
  · rintro ⟨⟨⟨state, event⟩, hdeclared, ht⟩, regular⟩
    obtain ⟨_, hstate, hevent⟩ := List.mem_flatMap.mp hdeclared
    obtain ⟨_, hevent, ⟨⟩⟩ := List.mem_map.mp hevent
    obtain ⟨s, hs, rfl⟩ := mem_states_ofNode_iff.mp hstate
    obtain ⟨e, has, rfl⟩ := (mem_events_ofNode_iff hs).mp hevent
    rcases Event.mem_transitions_iff.mp ht with rfl | ⟨_, _, rfl⟩
    · exact ⟨s, e, has, rfl⟩
    · cases regular
  · rintro ⟨s, e, has, rfl⟩
    have hstate := mem_states_ofNode_iff.mpr ⟨s, has.1, rfl⟩
    have hevent := (mem_events_ofNode_iff has.1).mpr ⟨e, has, rfl⟩
    refine ⟨⟨(.ofNode s, .ofNode e), ?_, ?_⟩, rfl⟩
    · exact List.mem_flatMap.mpr ⟨_, hstate, List.mem_map_of_mem hevent⟩
    · exact Event.mem_transitions_iff.mpr (.inl rfl)

end Node

/-! ## What an engine keeps -/

namespace Engine

variable {options : EngineOptions} {source : String} {engine : Engine}

/-- **Nothing is dropped**: every task of any hook is in the hook table under a key of the hook,
every task of any event under the key of the event, and every event has its transition in the
listing. A hook without a key loses its tasks, so in a state without events only the tasks on
entering it can be kept. -/
structure KeepsAll (engine : Engine) (root : Node) : Prop where
  hooks : ∀ n kind task, root.HasTask .all n kind task →
    ∃ key, root.HasKey .all n kind key ∧ task ∈ engine.hooks.tasks key
  own : ∀ s e, root.HasEvent .all s e → ∀ task ∈ e.taskNames,
    task ∈ engine.hooks.tasks (HookKey.before e.name)
  events : ∀ s e, root.HasEvent .all s e → e.transitionIn s ∈ engine.transitions.toList

/-- **An engine has what the containers that are read say.** So it drops nothing exactly if whatever
stands in a container that is passed over is said by those that are read as well, and every hook
with a task has a key. If no container is passed over, each task is under all keys that it should be
under, and only a state without events drops what it schedules around them. -/
theorem keepsAll_iff (compiled : (compile options source).result = .ok engine) :
    ∃ document, Document.parse source = .ok document ∧
      (∀ key task, task ∈ engine.hooks.tasks key ↔ document.root.Schedules .read key task) ∧
      (∀ t, t ∈ engine.transitions.toList ∧ t.kind = .regular ↔
        ∃ s e, document.root.HasEvent .read s e ∧ e.transitionIn s = t) ∧
      (engine.KeepsAll document.root ↔ document.root.ReadSaysAll) ∧
      (document.root.Covers .all .read →
        (∀ key task, document.root.Schedules .all key task → task ∈ engine.hooks.tasks key) ∧
        (engine.KeepsAll document.root ↔ document.root.TasksHaveEvents)) := by
  obtain ⟨document, parsed, made⟩ := compile_eq_ok_iff.mp compiled
  obtain ⟨states, -, -, rfl⟩ := ofNode_eq_ok_iff.mp made
  have tasks (key task : String) :
      task ∈ (Schema.ofNode document.root).hookTable.tasks key ↔
        document.root.Schedules .read key task := Node.mem_tasks_hookTable_iff
  have events (t : Transition) := @Node.mem_transitionTable_iff document.root t
  -- what the tables hold is what is read, so the three parts agree one by one
  have keeps : (ofSchema options (.ofNode document.root) states).KeepsAll document.root ↔
      document.root.ReadSaysAll := by
    constructor
    · intro keeps
      refine ⟨fun n kind task has => ?_, fun s e has task ht => ?_, fun s e has => ?_⟩
      · obtain ⟨key, has_key, ht⟩ := keeps.hooks n kind task has
        exact ⟨key, has_key, (tasks key task).mp ht⟩
      · exact (tasks _ task).mp (keeps.own s e has task ht)
      · exact (events _).mp ⟨keeps.events s e has, rfl⟩
    · intro said
      refine ⟨fun n kind task has => ?_, fun s e has task ht => ?_, fun s e has => ?_⟩
      · obtain ⟨key, has_key, ht⟩ := said.hooks n kind task has
        exact ⟨key, has_key, (tasks key task).mpr ht⟩
      · exact (tasks _ task).mpr (said.own s e has task ht)
      · exact ((events _).mpr (said.events s e has)).1
  exact ⟨document, parsed, tasks, events, keeps, fun covers =>
    ⟨fun key task scheduled => (tasks key task).mpr (covers.schedules scheduled),
      keeps.trans covers.readSaysAll_iff⟩⟩

/-- Hooks of a schema and of a state, and a task of an event: nothing is repeated, the state has an
event, and all is kept. -/
theorem keepsAll_of_one :
    let source := "<Schema><OnBeforeEvent><Task>a</Task></OnBeforeEvent><States><s>" ++
      "<OnAfterEvent><Task>c</Task></OnAfterEvent><Events><Go targetState=\"s\">" ++
      "<Task>b</Task></Go></Events></s></States></Schema>"
    ∃ document engine, Document.parse source = .ok document ∧
      (compile ⟨true, true⟩ source).result = .ok engine ∧
      engine.hooks.toList = [("after_Go", ["c"]), ("before_Go", ["b"]), ("before_event", ["a"])] ∧
      engine.KeepsAll document.root := by
  intro source
  let container (tag : String) (content : List Node) : Node := ⟨.element, tag, [], content⟩
  let event : Node := ⟨.element, "Go", [⟨"targetState", "s"⟩], [container "Task" [.ofText "b"]]⟩
  let state : Node := container "s"
    [container "OnAfterEvent" [container "Task" [.ofText "c"]], container "Events" [event]]
  let root : Node := ⟨.root, "Schema", [],
    [container "OnBeforeEvent" [container "Task" [.ofText "a"]], container "States" [state]]⟩
  have parsed : Document.parse source = .ok ⟨root, []⟩ := by decide +kernel
  obtain ⟨engine, made, hooks⟩ : ∃ engine, ofNode ⟨true, true⟩ root = .ok engine ∧
      engine.hooks.toList = [("after_Go", ["c"]), ("before_Go", ["b"]), ("before_event", ["a"])] :=
    exists_of_toOption_any (by decide +kernel)
  have compiled : (compile ⟨true, true⟩ source).result = .ok engine :=
    compile_eq_ok_iff.mpr ⟨_, parsed, made⟩
  obtain ⟨document, same, -, -, -, covered⟩ := keepsAll_iff compiled
  obtain rfl := Except.ok.inj (parsed.symm.trans same)
  have covers : root.Covers .all .read := by decide +kernel
  have keys : root.TasksHaveEvents := by decide +kernel
  exact ⟨_, engine, parsed, compiled, hooks, (covered covers).2.mpr keys⟩

/-- Two containers of hooks and two of events in a state: the strict rules accept them, and the
engine has nothing of what stands in them. -/
theorem not_keepsAll_of_repeated :
    let source := "<Schema><States><s><OnStateSet><Task>a</Task></OnStateSet><OnStateSet>" ++
      "</OnStateSet><Events></Events><Events><Go targetState=\"s\"></Go></Events></s></States>" ++
      "</Schema>"
    ∃ document engine, Document.parse source = .ok document ∧
      (compile ⟨true, true⟩ source).result = .ok engine ∧
      document.root.Schedules .all (HookKey.enter "s") "a" ∧
      (∃ s e, document.root.HasEvent .all s e ∧ e.name = "Go") ∧
      engine.hooks.toList = [] ∧ engine.transitions.toList = [] ∧
      ¬ engine.KeepsAll document.root := by
  intro source
  let container (tag : String) (content : List Node) : Node := ⟨.element, tag, [], content⟩
  let event : Node := ⟨.element, "Go", [⟨"targetState", "s"⟩], []⟩
  let state : Node := container "s"
    [container "OnStateSet" [container "Task" [.ofText "a"]], container "OnStateSet" [],
      container "Events" [], container "Events" [event]]
  let root : Node := ⟨.root, "Schema", [], [container "States" [state]]⟩
  have parsed : Document.parse source = .ok ⟨root, []⟩ := by decide +kernel
  obtain ⟨engine, made, hooks, transitions⟩ : ∃ engine, ofNode ⟨true, true⟩ root = .ok engine ∧
      engine.hooks.toList = [] ∧ engine.transitions.toList = [] :=
    exists_of_toOption_any (by decide +kernel)
  have is_state : state ∈ root.stateNodes := .head _
  have is_events : Containers.all.events state (container "Events" [event]) :=
    ⟨.tail _ (.tail _ (.tail _ (.head _))), rfl, rfl⟩
  have has : root.HasEvent .all state event := ⟨is_state, _, is_events, .head _, rfl⟩
  have has_task : root.HasTask .all state .onEnter "a" :=
    ⟨.inr is_state, _, ⟨.head _, rfl, rfl⟩, .head _⟩
  refine ⟨_, engine, parsed, compile_eq_ok_iff.mpr ⟨_, parsed, made⟩,
    .hook has_task (.enter is_state), ⟨state, event, has, rfl⟩, hooks, transitions, fun keeps => ?_⟩
  have listed := keeps.events state event has
  rw [transitions] at listed
  cases listed

end Engine

end StateMarkup
