import StateMarkup.Engine.Apply

/-!
# Simulations

A simulation fires events one after the other against an entity that has nothing but a state. For
every task name in the hooks of the engine there is a task that always succeeds; it says that it
runs and is put down in a list.
-/

namespace StateMarkup

/-- The entity of a simulation: its state and the tasks that have run. -/
structure Simulated where
  state : String
  tasks : List String
deriving DecidableEq, Repr

/-- The outcome of one event, with the tasks that ran and what was reported. -/
structure SimulatedEvent where
  event : String
  result : Except EngineError Outcome
  tasks : List String
  log : List Notice

/-- A whole simulation: its events, and the state in the end. -/
structure Simulation where
  events : List SimulatedEvent
  state : String

namespace Simulation

/-- The tasks of a simulation are known by their names alone. -/
def host : Host String Simulated :=
  ⟨fun entity => some entity.state,
    fun state entity => (⟨state, entity.tasks⟩, .ok ()),
    fun task registry entity =>
      ⟨registry, ⟨entity.state, entity.tasks ++ [task]⟩, [.spoken .info ("task " ++ task)], .ok ()⟩⟩

/-- Registers a task for each of several names. -/
def register (registry : Registry String) : List String → Except RegistryError (Registry String)
  | [] => .ok registry
  | name :: rest =>
    match registry.add name name with
    | .ok registry => register registry rest
    | .error error => .error error

/-- Fires one event in a state; the tasks that have run before are forgotten. -/
def fire (engine : Engine) (registry : Registry String) (state event : String) :
    SimulatedEvent × String :=
  let applied := engine.apply host event registry ⟨state, []⟩
  (⟨event, applied.result, applied.world.tasks, applied.log⟩, applied.world.state)

/-- Fires events one after the other. -/
def fireAll (engine : Engine) (registry : Registry String) (state : String) :
    List String → Simulation
  | [] => ⟨[], state⟩
  | event :: rest =>
    let (first, state) := fire engine registry state event
    let after := fireAll engine registry state rest
    ⟨first :: after.events, after.state⟩

/-- Simulates events on an engine. -/
def run (engine : Engine) (state : String) (events : List String) :
    Except RegistryError Simulation :=
  match register .empty engine.hooks.taskNames with
  | .ok registry => .ok (fireAll engine registry state events)
  | .error error => .error error

/-- True of an event that was not fired. -/
def hasFailed (event : SimulatedEvent) : Bool :=
  match event.result with
  | .ok _ => false
  | .error _ => true

/-- Whether some event was not fired. -/
def failed (s : Simulation) : Bool := s.events.any hasFailed

end Simulation

end StateMarkup
