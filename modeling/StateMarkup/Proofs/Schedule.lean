import Mathlib.Data.List.Basic
import StateMarkup.Proofs.HookKey
import StateMarkup.Schema.Tables

/-!
# What a schema schedules

The hook table of a schema is filled from many places under keys that are texts. Here it is read
back: under the key of an event stand the tasks of all declarations of the event, in the order of
the document, and under the key of a state those of all states of the name (`Schema.tasks_before`,
`Schema.tasks_after`, `Schema.tasks_enter`). What all events and states share stands under its own
keys, but for an event named `event` and a state named `state`.
-/

namespace StateMarkup

/-! ## Filling a table -/

/-- The tasks that several lists have under a key, one list after the other. A table is read back
through this function, since it goes along with the lists where the table has forgotten them. -/
def tasksUnder (key : String) (lists : List (String × List String)) : List String :=
  lists.flatMap fun list => if key = list.1 then list.2 else []

/-- Nothing is under a key in no lists. -/
@[simp] theorem tasksUnder_nil (key : String) : tasksUnder key [] = [] := rfl

/-- The first list counts if the key is its own. -/
@[simp] theorem tasksUnder_cons (key : String) (list : String × List String)
    (rest : List (String × List String)) :
    tasksUnder key (list :: rest) = (if key = list.1 then list.2 else []) ++ tasksUnder key rest :=
  rfl

/-- What lists have under a key comes apart as the lists do. -/
@[simp] theorem tasksUnder_append (key : String) (lists more : List (String × List String)) :
    tasksUnder key (lists ++ more) = tasksUnder key lists ++ tasksUnder key more :=
  List.flatMap_append

/-- Lists that come in groups are read group by group. In a schema the groups are its states, and in
a state its events. -/
theorem tasksUnder_flatMap {α : Type} (key : String) (xs : List α)
    (f : α → List (String × List String)) :
    tasksUnder key (xs.flatMap f) = xs.flatMap fun x => tasksUnder key (f x) :=
  List.flatMap_assoc

/-- What is done for some elements only may be done for all, if for the others nothing is done. The
key of a hook decides in the lists what the name of an event decides in the document, and this lemma
leads from the one to the other. -/
theorem flatMap_filter_eq {α β : Type} (p : α → Bool) (f : α → List β) (xs : List α) :
    (xs.filter p).flatMap f = xs.flatMap fun x => if p x then f x else [] := by
  induction xs with
  | nil => rfl
  | cons x rest ih =>
    rw [List.filter_cons, List.flatMap_cons]
    split
    · rw [List.flatMap_cons, ih]
    · rw [ih, List.nil_append]

/-- A table that lists are appended to has them all, behind what it had. The table is kept general
for the induction, which goes along the lists. -/
theorem HookTable.tasks_foldl_append (lists : List (String × List String)) (table : HookTable)
    (key : String) :
    (lists.foldl (fun table (key, tasks) => table.append key tasks) table).tasks key =
      table.tasks key ++ tasksUnder key lists := by
  induction lists generalizing table with
  | nil => rw [List.foldl_nil, tasksUnder_nil, List.append_nil]
  | cons list rest ih =>
    rw [List.foldl_cons, ih, tasks_append, tasksUnder_cons]
    split
    · rename_i same
      rw [same, List.append_assoc]
    · rw [List.nil_append]

namespace Schema

variable (schema : Schema)

/-- The table of a schema has under a key what the lists of the schema have. -/
theorem tasks_hookTable (key : String) :
    schema.hookTable.tasks key = tasksUnder key schema.hookLists :=
  HookTable.tasks_foldl_append schema.hookLists .empty key

/-! ## Reading it back -/

/-- The tasks before an event: for each declaration those of its state, then its own. -/
def tasksBefore (event : String) : List String :=
  schema.states.flatMap fun state =>
    (state.events.filter (·.name = event)).flatMap fun declared =>
      state.hooks.before ++ declared.tasks

/-- The tasks after an event: for each declaration those of its state. -/
def tasksAfter (event : String) : List String :=
  schema.states.flatMap fun state =>
    (state.events.filter (·.name = event)).flatMap fun _ => state.hooks.after

/-- The tasks on entering a state. -/
def tasksEnter (target : String) : List String :=
  (schema.states.filter (·.name = target)).flatMap (·.hooks.onEnter)

variable {schema}

/-- What a declaration schedules before an event: nothing unless the event is its own, and then the
tasks of its state before its own tasks. -/
theorem tasksUnder_before_eventHooks (event : String) (state : State) (declared : Event) :
    tasksUnder (HookKey.before event) (eventHooks state declared) =
      if declared.name = event then state.hooks.before ++ declared.tasks else [] := by
  by_cases h : declared.name = event
  · simp [eventHooks, h]
  · simp [eventHooks, h, Ne.symm h]

/-- What a declaration schedules after an event. A declaration has no tasks of its own here, only
those of its state. -/
theorem tasksUnder_after_eventHooks (event : String) (state : State) (declared : Event) :
    tasksUnder (HookKey.after event) (eventHooks state declared) =
      if declared.name = event then state.hooks.after else [] := by
  by_cases h : declared.name = event
  · simp [eventHooks, h]
  · simp [eventHooks, h, Ne.symm h]

/-- What a state schedules before an event, declaration by declaration. The list on entering the
state has a key of another kind and does not count. -/
theorem tasksUnder_before_stateHooks (event : String) (state : State) :
    tasksUnder (HookKey.before event) (stateHooks state) =
      (state.events.filter (·.name = event)).flatMap fun declared =>
        state.hooks.before ++ declared.tasks := by
  rw [stateHooks, tasksUnder_cons, tasksUnder_flatMap, flatMap_filter_eq]
  simp [tasksUnder_before_eventHooks]

/-- What a state schedules after an event: its tasks once for each declaration of the event. -/
theorem tasksUnder_after_stateHooks (event : String) (state : State) :
    tasksUnder (HookKey.after event) (stateHooks state) =
      (state.events.filter (·.name = event)).flatMap fun _ => state.hooks.after := by
  rw [stateHooks, tasksUnder_cons, tasksUnder_flatMap, flatMap_filter_eq]
  simp [tasksUnder_after_eventHooks]

/-- A state schedules its tasks on entering under its own key. The lists of its events have keys of
other kinds. -/
theorem tasksUnder_enter_stateHooks (target : String) (state : State) :
    tasksUnder (HookKey.enter target) (stateHooks state) =
      if state.name = target then state.hooks.onEnter else [] := by
  rw [stateHooks, tasksUnder_cons, tasksUnder_flatMap]
  by_cases h : state.name = target
  · simp [eventHooks, h]
  · simp [eventHooks, h, Ne.symm h]

/-- The lists of the schema come first, then those of the states. The shared keys are written as
keys of `event` and `state`, so that any key can be compared with them by its name. -/
theorem tasks_hookTable_eq_append (key : String) :
    schema.hookTable.tasks key =
      tasksUnder key [(HookKey.before "event", schema.hooks.before),
        (HookKey.after "event", schema.hooks.after),
        (HookKey.enter "state", schema.hooks.onEnter)] ++
      schema.states.flatMap fun state => tasksUnder key (stateHooks state) := by
  rw [tasks_hookTable, hookLists, tasksUnder_append, tasksUnder_flatMap, HookKey.beforeEvent_eq,
    HookKey.afterEvent_eq, HookKey.enterState_eq]

/-- Under the key of an event stand the tasks of its declarations. For the name `event` the tasks
before all events stand in front of them, since the keys are equal. -/
theorem tasks_before (event : String) :
    schema.hookTable.tasks (HookKey.before event) =
      (if event = "event" then schema.hooks.before else []) ++ schema.tasksBefore event := by
  simp [tasks_hookTable_eq_append, tasksUnder_before_stateHooks, tasksBefore]

/-- Under the second key of an event stand the tasks after it, with the same exception. -/
theorem tasks_after (event : String) :
    schema.hookTable.tasks (HookKey.after event) =
      (if event = "event" then schema.hooks.after else []) ++ schema.tasksAfter event := by
  simp [tasks_hookTable_eq_append, tasksUnder_after_stateHooks, tasksAfter]

/-- Under the key of a state stand the tasks of all states of the name, with the same exception for
the name `state`. -/
theorem tasks_enter (target : String) :
    schema.hookTable.tasks (HookKey.enter target) =
      (if target = "state" then schema.hooks.onEnter else []) ++ schema.tasksEnter target := by
  rw [tasks_hookTable_eq_append, tasksEnter, flatMap_filter_eq]
  simp [tasksUnder_enter_stateHooks]

end Schema

end StateMarkup
