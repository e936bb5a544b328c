import StateMarkup.Script

/-!
# Sessions

A `Session` exercises an engine step by step: it makes entities, registers, removes and restores
tasks, asks and fires events. Every step has a reply and, beside it, the state of the entity it is
about, what tasks left in the trace and what was reported.
-/

namespace StateMarkup

/-- What a step asks for, of the entity that it is about or of the registry. -/
inductive SessionRequest where
  /-- makes the entity, in place of the one of that name if there is one -/
  | entity (puppet : Puppet)
  /-- registers a task -/
  | add (script : Script)
  /-- takes a task out of the registry -/
  | remove (name : String)
  /-- registers the task that was taken out last and not restored since -/
  | restore
  /-- asks for a task -/
  | has (name : String)
  /-- lists the tasks -/
  | names
  /-- asks whether an event may be fired -/
  | can (event : String)
  /-- fires an event, and tells only whether it was fired -/
  | trigger (event : String)
  /-- fires an event -/
  | apply (event : String)
deriving Repr

/-- One step: the name of an entity, and a request. -/
structure SessionStep where
  id : String
  request : SessionRequest
deriving Repr

/-- What is said to a step. -/
inductive SessionReply where
  | done
  /-- there is nothing the step could be about -/
  | nothing
  | answer (yes : Bool)
  | name (name : String)
  | names (names : List String)
  | outcome (outcome : Outcome)
  | registryError (error : RegistryError)
  | engineError (error : EngineError)
deriving Repr

/-- The reply to a step and what goes with it. -/
structure SessionReport where
  reply : SessionReply
  state : Option String
  /-- what tasks left behind, the first first -/
  trace : List TraceEntry
  log : List Notice

/-- What a session knows. -/
structure Session where
  engine : Engine
  /-- how many levels of events inside events there may be -/
  levels : Nat
  registry : Registry ScriptTask
  entities : NameMap Puppet
  /-- how often each task has run, by its number -/
  runs : Array Nat
  /-- the tasks taken out, the last one first -/
  removed : List ScriptTask
  overrun : Bool

namespace Session

/-- A session without tasks and entities. -/
def init (engine : Engine) (levels : Nat) : Session :=
  ⟨engine, levels, .empty, .empty, #[], [], false⟩

/-- The session with another registry. -/
def withRegistry (s : Session) (registry : Registry ScriptTask) : Session :=
  ⟨s.engine, s.levels, registry, s.entities, s.runs, s.removed, s.overrun⟩

/-- The state of an entity that has one. -/
def stateOf (s : Session) (id : String) : Option String := (s.entities.get? id).bind Puppet.inspect

/-- A reply that leaves no trace. -/
def plain (s : Session) (id : String) (reply : SessionReply) : SessionReport :=
  ⟨reply, s.stateOf id, [], []⟩

/-- Registers a task. -/
def register (s : Session) (id : String) (task : ScriptTask) : SessionReport × Session :=
  match s.registry.add task.script.name task with
  | .ok registry => (s.plain id .done, s.withRegistry registry)
  | .error error => (s.plain id (.registryError error), s)

/-- Fires an event, and makes a reply of its outcome. -/
def fire (s : Session) (id event : String) (reply : Outcome → SessionReply) :
    SessionReport × Session :=
  match s.entities.get? id with
  | none => (s.plain id .nothing, s)
  | some puppet =>
    let applied := s.engine.apply (Script.host s.engine s.levels) event s.registry
      ⟨puppet, s.runs, [], false⟩
    let scene := applied.world
    let after : Session :=
      ⟨s.engine, s.levels, applied.registry, s.entities.insert id scene.puppet, scene.runs,
        s.removed, s.overrun || scene.overrun⟩
    let said := match applied.result with
      | .ok outcome => reply outcome
      | .error error => .engineError error
    (⟨said, after.stateOf id, scene.trace.reverse, applied.log⟩, after)

/-- Does what is requested of an entity or of the registry. -/
def serve (s : Session) (id : String) : SessionRequest → SessionReport × Session
  | .entity puppet =>
    let after : Session :=
      ⟨s.engine, s.levels, s.registry, s.entities.insert id puppet, s.runs, s.removed, s.overrun⟩
    (after.plain id .done, after)
  | .add script =>
    let made : Session :=
      ⟨s.engine, s.levels, s.registry, s.entities, s.runs.push 0, s.removed, s.overrun⟩
    made.register id ⟨s.runs.size, script⟩
  | .remove name =>
    match s.registry.remove name with
    | .ok (task, registry) =>
      (s.plain id (.name task.script.name),
        ⟨s.engine, s.levels, registry, s.entities, s.runs, task :: s.removed, s.overrun⟩)
    | .error error => (s.plain id (.registryError error), s)
  | .restore =>
    match s.removed with
    | [] => (s.plain id .nothing, s)
    | task :: older =>
      let left : Session :=
        ⟨s.engine, s.levels, s.registry, s.entities, s.runs, older, s.overrun⟩
      left.register id task
  | .has name => (s.plain id (.answer (s.registry.contains name)), s)
  | .names => (s.plain id (.names s.registry.names), s)
  | .can event =>
    match s.entities.get? id with
    | none => (s.plain id .nothing, s)
    | some puppet =>
      (s.plain id (.answer (s.engine.can Script.still event ⟨puppet, s.runs, [], false⟩)), s)
  | .trigger event => s.fire id event fun _ => .done
  | .apply event => s.fire id event .outcome

/-- Does several steps. -/
def serveAll (s : Session) : List SessionStep → List SessionReport × Session
  | [] => ([], s)
  | first :: rest =>
    let (report, s) := s.serve first.id first.request
    let (reports, s) := s.serveAll rest
    (report :: reports, s)

/-- The actions that steps bring along. -/
def actions (steps : List SessionStep) : List Action :=
  steps.flatMap fun step =>
    match step.request with
    | .add script => script.actions
    | _ => []

/-- The levels allowed for steps on an engine: more than there are situations to fire an event in.
The events, the states and the refusals of an entity, the scripts and their names all stand in a
step, an action or a transition, so there are at most as many of each as there are of these
together. An entity has a state that is shown or not, may be blank, and refuses with a text or not;
a name stands for nothing in the registry, or for a script and the number of its runs. -/
def levelsFor (engine : Engine) (steps : List SessionStep) : Nat :=
  let actions := actions steps
  let parts := steps.length + Action.sizeAll actions + engine.transitions.size
  let puppets := parts * 2 * 2 * (parts + 1)
  let registries := Nat.pow (parts * (Action.settledAll actions + 1) + 1) parts
  parts * puppets * registries + 1

/-- The reports of steps on an engine; none if they never come to an end. -/
def run (engine : Engine) (steps : List SessionStep) : Option (List SessionReport) :=
  let (reports, s) := (init engine (levelsFor engine steps)).serveAll steps
  if s.overrun then none else some reports

end Session

end StateMarkup
