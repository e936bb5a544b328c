import Mathlib.Data.List.Induction
import StateMarkup.Proofs.NameMap
import StateMarkup.Proofs.Schedule

/-!
# What a hook table gathers

A hook table is made by appending lists of tasks, and many places append under the same key.
`HookTable.Gathers` says of a table and of lists that came one after the other that the table is
these lists and nothing else: under each key their concatenation, no key without a task, the keys
and the names of the tasks in increasing order and each of them once.

One list more changes what is found under its own key only (`HookTable.get?_append`). So what is
found after any lists is known (`HookTable.get?_ofLists`), and all else that a table can be asked
follows from what is found in it (`HookTable.gathers_of_get?`).
-/

namespace StateMarkup

namespace HookTable

/-- The table that lists are appended to, one after the other. -/
def ofLists (lists : List (String × List String)) : HookTable :=
  lists.foldl (fun table (key, tasks) => table.append key tasks) empty

variable {table : HookTable} {lists : List (String × List String)} {key name : String}
  {tasks : List String}

/-! ## One list more -/

/-- Tasks show under their own key, and a list without tasks does not show at all. This is the only
place where the definition of appending is opened. -/
theorem get?_append (table : HookTable) (key other : String) (tasks : List String) :
    (table.append key tasks).get? other =
      if other = key ∧ tasks ≠ [] then some (table.tasks key ++ tasks) else table.get? other := by
  unfold append
  cases tasks with
  | nil => simp
  | cons task rest =>
    have found := NameMap.get?_update table.lists key other fun old => old.getD [] ++ task :: rest
    simpa [get?, HookTable.tasks] using found

/-- A list that comes last comes last under its key. Tables grow at the end, so what follows is seen
from the last list on. -/
theorem tasksUnder_concat (key : String) (lists : List (String × List String))
    (last : String × List String) :
    tasksUnder key (lists ++ [last]) =
      tasksUnder key lists ++ if key = last.1 then last.2 else [] := by
  rw [tasksUnder_append, tasksUnder_cons, tasksUnder_nil, List.append_nil]

/-- A table of several lists is that of all but the last, with the last appended. -/
theorem ofLists_concat (lists : List (String × List String)) (last : String × List String) :
    ofLists (lists ++ [last]) = (ofLists lists).append last.1 last.2 := by
  rw [ofLists, List.foldl_append]
  rfl

/-- **What is found under a key**: all that was appended under it, in order, if that is anything.
The induction goes back from the last list; what was there before is known by then, also whether it
was anything. -/
theorem get?_ofLists (lists : List (String × List String)) (key : String) :
    (ofLists lists).get? key =
      if tasksUnder key lists = [] then none else some (tasksUnder key lists) := by
  induction lists using List.reverseRecOn generalizing key with
  | nil => rfl
  | append_singleton before last ih =>
    obtain ⟨changed, tasks⟩ := last
    have so_far : (ofLists before).tasks changed = tasksUnder changed before :=
      tasks_foldl_append before empty changed
    rw [ofLists_concat, get?_append, tasksUnder_concat, so_far, ih]
    by_cases own : key = changed
    · subst own
      cases tasks with
      | nil => simp
      | cons task rest => simp
    · simp [own]

/-! ## All that a table can be asked -/

/-- **A table that is made of lists** which were appended to it in this order. -/
structure Gathers (table : HookTable) (lists : List (String × List String)) : Prop where
  /-- what is found under a key is the concatenation of the lists of the key -/
  got : ∀ key tasks, table.get? key = some tasks ↔ tasks = tasksUnder key lists ∧ tasks ≠ []
  /-- nothing is found under a key exactly if its lists are empty -/
  notGot : ∀ key, table.get? key = none ↔ tasksUnder key lists = []
  /-- the entries are what is found under their keys -/
  listed : ∀ key tasks, (key, tasks) ∈ table.toList ↔ table.get? key = some tasks
  /-- the keys of the entries strictly increase -/
  increasing : (table.toList.map Prod.fst).Pairwise (· < ·)
  /-- no entry is without a task -/
  filled : ∀ entry ∈ table.toList, entry.2 ≠ []
  /-- the size is the number of keys -/
  counted : table.size = (table.toList.map Prod.fst).length
  /-- the names of the tasks strictly increase -/
  namesIncreasing : table.taskNames.Pairwise (· < ·)
  /-- they are the names that are found under some key -/
  named : ∀ name, name ∈ table.taskNames ↔ ∃ key tasks, table.get? key = some tasks ∧ name ∈ tasks
  /-- and they are the names that have been appended -/
  appended : ∀ name, name ∈ table.taskNames ↔ ∃ list ∈ lists, name ∈ list.2

/-- A task is among those under a key if one of the lists of the key has it. -/
theorem mem_tasksUnder_iff :
    name ∈ tasksUnder key lists ↔ ∃ list ∈ lists, list.1 = key ∧ name ∈ list.2 := by
  rw [tasksUnder, List.mem_flatMap]
  refine exists_congr fun list => and_congr_right fun _ => ?_
  by_cases own : key = list.1
  · simp [own]
  · simp [own, Ne.symm own]

/-- The entries of a table are what is found in it, key by key. -/
theorem mem_toList_iff : (key, tasks) ∈ table.toList ↔ table.get? key = some tasks :=
  NameMap.get?_eq_some_iff.symm

/-- The names of the tasks are those in the entries. The list of names is a set made of all values,
so order and repetitions of the values are forgotten. -/
theorem mem_taskNames_iff :
    name ∈ table.taskNames ↔ ∃ key tasks, table.get? key = some tasks ∧ name ∈ tasks := by
  rw [taskNames, NameSet.mem_names_ofList, List.mem_flatten]
  simp only [NameMap.values, List.mem_map]
  constructor
  · rintro ⟨_, ⟨⟨key, found⟩, entry, rfl⟩, named⟩
    exact ⟨key, found, mem_toList_iff.mp entry, named⟩
  · rintro ⟨key, tasks, found, named⟩
    exact ⟨tasks, ⟨(key, tasks), mem_toList_iff.mpr found, rfl⟩, named⟩

/-- A task of a key is among all tasks of the table. So whoever knows the tasks in this list can run
every hook. -/
theorem mem_taskNames (h : name ∈ table.tasks key) : name ∈ table.taskNames := by
  rw [HookTable.tasks] at h
  cases found : table.get? key with
  | none => simp [found] at h
  | some tasks =>
    rw [found] at h
    exact mem_taskNames_iff.mpr ⟨key, tasks, found, h⟩

/-- The names of the tasks are listed once each. -/
theorem nodup_taskNames (table : HookTable) : table.taskNames.Nodup := NameMap.nodup_names _

/-- A table in which is found what lists have under their keys is made of these lists. All parts of
`HookTable.Gathers` follow from what is found: the listing, its order and its size belong to every
map, and a list that is found is not empty. -/
theorem gathers_of_get? (found : ∀ key, table.get? key =
      if tasksUnder key lists = [] then none else some (tasksUnder key lists)) :
    table.Gathers lists := by
  have got (key : String) (tasks : List String) :
      table.get? key = some tasks ↔ tasks = tasksUnder key lists ∧ tasks ≠ [] := by
    rw [found]
    by_cases none : tasksUnder key lists = []
    · simp [none]
    · rw [if_neg none, Option.some.injEq]
      exact ⟨fun same => ⟨same.symm, same ▸ none⟩, fun same => same.1.symm⟩
  refine ⟨got, fun key => ?_, fun key tasks => mem_toList_iff, table.lists.pairwise_names, ?_,
    (List.length_map _).symm, NameMap.pairwise_names _, fun name => mem_taskNames_iff, ?_⟩
  · rw [found]
    by_cases none : tasksUnder key lists = [] <;> simp [none]
  · rintro ⟨key, tasks⟩ entry
    exact ((got key tasks).mp (mem_toList_iff.mp entry)).2
  · intro name
    rw [mem_taskNames_iff]
    constructor
    · rintro ⟨key, tasks, there, named⟩
      obtain ⟨rfl, -⟩ := (got key tasks).mp there
      obtain ⟨list, among, -, named⟩ := mem_tasksUnder_iff.mp named
      exact ⟨list, among, named⟩
    · rintro ⟨list, among, named⟩
      have under : name ∈ tasksUnder list.1 lists :=
        mem_tasksUnder_iff.mpr ⟨list, among, rfl, named⟩
      exact ⟨list.1, _, (got list.1 _).mpr ⟨rfl, List.ne_nil_of_mem under⟩, under⟩

/-- **Hook tables are what has been appended to them**, whatever the lists and their order. The
table of a schema is made of the lists for all events and states, and then, state by state, of those
on entering it and, event by event, of those before the event, of the event and after it. These
lists are written out here with their keys, and not taken from the definition of the table. -/
theorem gathers_what_is_appended :
    (∀ lists, (ofLists lists).Gathers lists) ∧ ∀ schema : Schema, schema.hookTable.Gathers
      ([("before_event", schema.hooks.before), ("after_event", schema.hooks.after),
          ("enter_state", schema.hooks.onEnter)] ++
        schema.states.flatMap fun state =>
          ("enter_" ++ state.name, state.hooks.onEnter) :: state.events.flatMap fun event =>
            [("before_" ++ event.name, state.hooks.before),
              ("before_" ++ event.name, event.tasks),
              ("after_" ++ event.name, state.hooks.after)]) :=
  ⟨fun lists => gathers_of_get? (get?_ofLists lists),
    fun schema => gathers_of_get? (get?_ofLists schema.hookLists)⟩

/-- An event named like the key of all events adds to their list, and a list without tasks leaves no
key behind. -/
example : (ofLists [("before_event", ["b"]), ("after_event", []), ("before_event", ["a", "b"]),
    ("after_Go", ["c"])]).toList = [("after_Go", ["c"]), ("before_event", ["b", "a", "b"])] := by
  decide

end HookTable

end StateMarkup
