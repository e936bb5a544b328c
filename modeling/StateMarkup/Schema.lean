import StateMarkup.Tag

/-!
# Schemas

What a document says, without its markup: the hooks that belong to every event, and the states in
the order of the document, each with its own hooks and its events. A hook is a list of task names.
-/

namespace StateMarkup

/-- The three lists of tasks that a schema and a state may have. -/
structure HookLists where
  before : List String
  after : List String
  onEnter : List String
deriving DecidableEq, Repr

namespace HookLists

/-- No tasks. -/
def none : HookLists := ⟨[], [], []⟩

/-- The list of one kind. -/
def tasks (hooks : HookLists) : HookKind → List String
  | .before => hooks.before
  | .after => hooks.after
  | .onEnter => hooks.onEnter

/-- True if there is no task in any of the lists. -/
def isEmpty (hooks : HookLists) : Bool :=
  hooks.before.isEmpty && hooks.after.isEmpty && hooks.onEnter.isEmpty

end HookLists

/-- An event of a state. -/
structure Event where
  name : String
  /-- where the event leads; empty if the document does not say -/
  target : String
  /-- where to go when the hooks of the event fail -/
  errorState : Option String
  /-- the event's own tasks -/
  tasks : List String
deriving DecidableEq, Repr

/-- A state. -/
structure State where
  name : String
  hooks : HookLists
  events : List Event
deriving DecidableEq, Repr

/-- All that a document says. -/
structure Schema where
  hooks : HookLists
  states : List State
deriving DecidableEq, Repr

namespace Schema

/-- The first state of the name. -/
def state? (schema : Schema) (name : String) : Option State :=
  schema.states.find? (·.name == name)

/-- Every event with its state, in the order of the document. -/
def events (schema : Schema) : List (State × Event) :=
  schema.states.flatMap fun state => state.events.map fun event => (state, event)

end Schema

end StateMarkup
