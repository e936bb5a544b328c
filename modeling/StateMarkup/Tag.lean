/-!
# The fixed vocabulary of a document

Seven tag names have a meaning of their own, three of them for the containers of hooks that a
schema and each of its states may have; two attribute names belong to events.
-/

namespace StateMarkup

namespace Tag

/-- The root of a document. -/
def schema : String := "Schema"

/-- The element whose children are the states. -/
def states : String := "States"

/-- The element of a state whose children are its events. -/
def events : String := "Events"

/-- The element whose text names a task. -/
def task : String := "Task"

/-- The container of the tasks that run before an event. -/
def onBeforeEvent : String := "OnBeforeEvent"

/-- The container of the tasks that run after an event. -/
def onAfterEvent : String := "OnAfterEvent"

/-- The container of the tasks that run when a state is entered. -/
def onStateSet : String := "OnStateSet"

/-- The attribute with the state that an event leads to. -/
def targetState : String := "targetState"

/-- The attribute with the state to go to when the hooks of an event fail. -/
def errorState : String := "errorState"

/-- Every tag name with a fixed meaning. -/
def structural : List String :=
  [schema, states, events, task, onBeforeEvent, onAfterEvent, onStateSet]

/-- True of the tag names with a fixed meaning. -/
def isStructural (name : String) : Bool := structural.contains name

end Tag

/-- The three containers of hooks that a schema and a state may have. -/
inductive HookKind where
  /-- tasks that run before an event -/
  | before
  /-- tasks that run after an event -/
  | after
  /-- tasks that run when a state is entered -/
  | onEnter
deriving DecidableEq, Repr

namespace HookKind

/-- All three. -/
def all : List HookKind := [.before, .after, .onEnter]

/-- The tag of a container. -/
def tag : HookKind → String
  | .before => Tag.onBeforeEvent
  | .after => Tag.onAfterEvent
  | .onEnter => Tag.onStateSet

/-- The container with a given tag. -/
def ofTag? (name : String) : Option HookKind := all.find? (·.tag == name)

@[simp] theorem ofTag?_tag (kind : HookKind) : ofTag? kind.tag = some kind := by
  cases kind <;> decide

/-- Tags are the only way to a container. -/
theorem ofTag?_eq_some_iff {name : String} {kind : HookKind} :
    ofTag? name = some kind ↔ name = kind.tag := by
  constructor
  · intro h
    have := List.find?_some h
    exact (beq_iff_eq.mp this).symm
  · rintro rfl; simp

end HookKind

end StateMarkup
