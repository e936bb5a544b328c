import StateMarkup.HookKey
import StateMarkup.HookTable
import StateMarkup.Schema
import StateMarkup.Transition

/-!
# The two tables of a schema

The transition table has an entry for every event of every state and, right after it, one for its
error state if it has one. The hook table collects the lists of tasks under their keys: those of the
schema first, then those of each state and of each of its events, in the order of the document.
-/

namespace StateMarkup

/-- The transitions of an event of the named state. -/
def Event.transitions (event : Event) (source : String) : List Transition :=
  ⟨event.name, source, event.target, event.errorState, .regular⟩ ::
    match event.errorState with
    | some target => [⟨fallbackEvent event.name, source, target, none, .fallback⟩]
    | none => []

namespace Schema

/-- The transitions of a schema, in order. -/
def transitions (schema : Schema) : List Transition :=
  schema.events.flatMap fun (state, event) => event.transitions state.name

/-- The transition table of a schema. -/
def transitionTable (schema : Schema) : TransitionTable := .ofList schema.transitions

/-- The lists of tasks of an event, with their keys. -/
def eventHooks (state : State) (event : Event) : List (String × List String) :=
  [(HookKey.before event.name, state.hooks.before),
   (HookKey.before event.name, event.tasks),
   (HookKey.after event.name, state.hooks.after)]

/-- The lists of tasks of a state, with their keys. -/
def stateHooks (state : State) : List (String × List String) :=
  (HookKey.enter state.name, state.hooks.onEnter) :: state.events.flatMap (eventHooks state)

/-- All lists of tasks of a schema with their keys, in the order in which they are scheduled. -/
def hookLists (schema : Schema) : List (String × List String) :=
  [(HookKey.beforeEvent, schema.hooks.before),
   (HookKey.afterEvent, schema.hooks.after),
   (HookKey.enterState, schema.hooks.onEnter)] ++ schema.states.flatMap stateHooks

/-- The hook table of a schema. -/
def hookTable (schema : Schema) : HookTable :=
  schema.hookLists.foldl (fun table (key, tasks) => table.append key tasks) .empty

end Schema

end StateMarkup
