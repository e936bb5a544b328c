import StateMarkup.NameMap
import StateMarkup.Text.Quoted

/-!
# Registries of tasks

A `Registry` holds at most one task for a name. Adding a name that is taken and removing or getting
one that is not there are errors, and an error comes without a registry: it changes nothing.
-/

namespace StateMarkup

universe u

/-- Tasks by name. -/
structure Registry (τ : Type u) where
  tasks : NameMap τ

/-- Why a registry refuses. -/
inductive RegistryError where
  | alreadyExists (name : String)
  | notFound (name : String)
deriving DecidableEq, Repr

/-- The wording of a refusal. -/
def RegistryError.message : RegistryError → String
  | .alreadyExists name => "task already exists: " ++ name
  | .notFound name => "task not found: " ++ name

namespace Registry

variable {τ : Type u}

/-- The registry without tasks. -/
def empty : Registry τ := ⟨.empty⟩

/-- Whether there is a task of the name. -/
def contains (r : Registry τ) (name : String) : Bool := r.tasks.contains name

/-- The task of the name. -/
def get (r : Registry τ) (name : String) : Except RegistryError τ :=
  match r.tasks.get? name with
  | some task => .ok task
  | none => .error (.notFound name)

/-- The registry with one more task. -/
def add (r : Registry τ) (name : String) (task : τ) : Except RegistryError (Registry τ) :=
  if r.contains name then .error (.alreadyExists name) else .ok ⟨r.tasks.insert name task⟩

/-- The task of the name, and the registry without it. -/
def remove (r : Registry τ) (name : String) : Except RegistryError (τ × Registry τ) :=
  match r.tasks.get? name with
  | some task => .ok (task, ⟨r.tasks.erase name⟩)
  | none => .error (.notFound name)

/-- The names of all tasks, in increasing order. -/
def names (r : Registry τ) : List String := r.tasks.names

/-- The number of tasks. -/
def size (r : Registry τ) : Nat := r.tasks.size

/-- True if there is no task. -/
def isEmpty (r : Registry τ) : Bool := r.tasks.isEmpty

/-- A registry for a reader: the quoted names of its tasks. -/
def describe (r : Registry τ) : String :=
  "TaskRegistry \x7b tasks: [" ++ ", ".intercalate (r.names.map Text.quote) ++ "] \x7d"

end Registry

/-- A task for a reader: its quoted name. -/
def describeTask (name : String) : String := "FnTask \x7b name: " ++ Text.quote name ++ " \x7d"

end StateMarkup
