import StateMarkup.NameMap
import StateMarkup.Schema
import StateMarkup.Violation

/-!
# What the names in a schema refer to

The strict rules that need the schema: every event leads to a declared state, and so does its error
state; no state has the name of a structural tag; and no name makes a key that every event or every
state passes anyway.
-/

namespace StateMarkup

/-- The strict rules that a state breaks. -/
def State.referenceViolations (state : State) : List Violation :=
  (if Tag.isStructural state.name then [.reservedState state.name] else []) ++
    if HookKey.enter state.name = HookKey.enterState then [.stateSharesKey state.name] else []

/-- The strict rules that an event of the named state breaks. -/
def Event.referenceViolations (event : Event) (state : String) (declared : NameSet) :
    List Violation :=
  (if HookKey.before event.name = HookKey.beforeEvent then [.eventSharesKeys event.name state]
    else []) ++
  (if event.target = "" then [.noTarget event.name state]
    else if declared.contains event.target then []
    else [.undeclaredTarget event.name state event.target]) ++
  match event.errorState with
  | some target =>
    if declared.contains target then [] else [.undeclaredErrorState event.name state target]
  | none => []

namespace Schema

/-- The strict rules that a schema breaks, those about states first. -/
def referenceViolations (schema : Schema) (declared : NameSet) : List Violation :=
  schema.states.flatMap State.referenceViolations ++
    schema.events.flatMap fun (state, event) => event.referenceViolations state.name declared

/-- Whether all names refer to what is declared, or else all violations. -/
def checkReferences (schema : Schema) (declared : NameSet) : Except (List Violation) Unit :=
  let violations := schema.referenceViolations declared
  if violations.isEmpty then .ok () else .error violations

end Schema

end StateMarkup
