import StateMarkup.Engine
import StateMarkup.Json

/-!
# Compiled documents as JSON

What an engine was compiled to. The fields of every object stand in increasing order of their names.
-/

namespace StateMarkup

/-- The three lists of tasks. -/
def HookLists.toJson (hooks : HookLists) : Json :=
  .object [("after", .strings hooks.after), ("before", .strings hooks.before),
    ("on_enter", .strings hooks.onEnter)]

/-- An event. -/
def Event.toJson (event : Event) : Json :=
  .object [("error_state", .ofOption event.errorState), ("name", .string event.name),
    ("target_state", .string event.target), ("tasks", .strings event.tasks)]

/-- A state. -/
def State.toJson (state : State) : Json :=
  .object [("default_events", state.hooks.toJson),
    ("events", .list (state.events.map Event.toJson)), ("name", .string state.name)]

/-- A schema. -/
def Schema.toJson (schema : Schema) : Json :=
  .object [("default_events", schema.hooks.toJson),
    ("states", .list (schema.states.map State.toJson))]

/-- The name of a kind of transition. -/
def TransitionKind.name : TransitionKind → String
  | .regular => "regular"
  | .fallback => "fallback"

/-- A transition. -/
def Transition.toJson (t : Transition) : Json :=
  .object [("error_state", .ofOption t.errorState), ("event", .string t.event),
    ("kind", .string t.kind.name), ("source", .string t.source), ("target", .string t.target)]

/-- All that an engine was compiled to. -/
def Engine.toJson (engine : Engine) : Json :=
  .object
    [("hooks", .object (engine.hooks.toList.map fun (key, tasks) => (key, .strings tasks))),
     ("schema", engine.schema.toJson), ("states", .strings engine.states.names),
     ("transitions", .list (engine.transitions.toList.map Transition.toJson))]

end StateMarkup
