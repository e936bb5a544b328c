import StateMarkup.NameMap

/-!
# Hook tables

A `HookTable` has a list of task names for some keys. Lists are only ever extended, and an empty
extension leaves no trace, so every key that is there has a task.
-/

namespace StateMarkup

/-- Task names by key. -/
structure HookTable where
  lists : NameMap (List String)

namespace HookTable

/-- The table without keys. -/
def empty : HookTable := ⟨.empty⟩

/-- The table with more tasks at the end of a key's list. -/
def append (table : HookTable) (key : String) (tasks : List String) : HookTable :=
  if tasks.isEmpty then table
  else ⟨table.lists.update key fun old => old.getD [] ++ tasks⟩

/-- The list of a key. -/
def get? (table : HookTable) (key : String) : Option (List String) := table.lists.get? key

/-- The tasks of a key; a key that is not there has none. -/
def tasks (table : HookTable) (key : String) : List String := (table.get? key).getD []

/-- The keys with their lists, in increasing order of the keys. -/
def toList (table : HookTable) : List (String × List String) := table.lists.entries

/-- The number of keys. -/
def size (table : HookTable) : Nat := table.lists.size

/-- True if no key is there. -/
def isEmpty (table : HookTable) : Bool := table.lists.isEmpty

/-- The names of all tasks, each once, in increasing order. -/
def taskNames (table : HookTable) : List String :=
  (NameSet.ofList table.lists.values.flatten).names

/-- Tasks go to the end of their own list and to no other. -/
theorem tasks_append (table : HookTable) (key other : String) (tasks : List String) :
    (table.append key tasks).tasks other =
      if other = key then table.tasks key ++ tasks else table.tasks other := by
  unfold append
  split
  · rename_i h
    have : tasks = [] := by simpa using h
    split <;> simp_all [HookTable.tasks]
  · unfold HookTable.tasks get?
    rw [NameMap.get?_update]
    split <;> rfl

end HookTable

end StateMarkup
