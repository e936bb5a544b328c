import StateMarkup.Engine.Apply

/-!
# Tasks given as data

A `Script` is a task whose doings are written down as a list of actions: failing, changing the
entity or the registry, asking whether an event may be fired, and firing one in the middle of
another. The entity is a `Puppet`, which has a state unless it is told otherwise and may be told to
refuse every new one. `Script.host` makes a host of these two.

A script that fires events runs the engine inside the engine, and nothing in it says that this ends.
So a host is made for a number of levels: a task that is run below the last of them does nothing but
mark the scene as `overrun`, and whoever sees that mark knows that the run says nothing. What comes
of firing an event follows from the event, the entity, the tasks in the registry and how often each
has run, up to the run where it is `Action.settled`. With more levels than there are such
situations, a run that is marked met one of them again inside itself, and would have gone on
forever.
-/

namespace StateMarkup

/-- One doing of a task. -/
inductive Action where
  /-- fails with a text -/
  | fail (text : String)
  /-- fails in the first runs of the task -/
  | failTimes (times : Nat) (text : String)
  /-- fails if the entity is in the state -/
  | failIn (state text : String)
  /-- stores a state in the entity -/
  | set (state : String)
  /-- gives the entity a state to show, or takes it away -/
  | capable (on : Bool)
  /-- makes the entity refuse new states, or accept them again -/
  | deny (text : Option String)
  /-- registers a new task -/
  | add (name : String) (actions : List Action)
  /-- takes a task out of the registry -/
  | remove (name : String)
  /-- asks whether an event may be fired -/
  | can (event : String)
  /-- fires an event in the first runs of the task; its failure is the task's own if it
  propagates -/
  | apply (event : String) (propagate : Bool) (times : Nat)
deriving Inhabited, Repr

/-- A task written down. -/
structure Script where
  name : String
  actions : List Action
deriving Repr

/-- A script that has become a task; the number tells it from other tasks made of the same
script. -/
structure ScriptTask where
  id : Nat
  script : Script
deriving Repr

/-- An entity that does as it is told. -/
structure Puppet where
  state : String
  /-- whether it shows its state -/
  capable : Bool
  /-- the text with which it refuses a new state -/
  deny : Option String
  /-- whether it has a state at all -/
  blank : Bool
deriving DecidableEq, Repr

/-- What tasks leave behind for a reader. -/
inductive TraceEntry where
  /-- a task began to run and saw the entity in the state -/
  | ran (task state : String)
  /-- the registry refused -/
  | refused (error : RegistryError)
  /-- whether an event might be fired -/
  | answered (event : String) (yes : Bool)
  /-- an event was fired -/
  | fired (outcome : Outcome)
  /-- an event was not fired -/
  | notFired (error : EngineError)
deriving DecidableEq, Repr

/-- The world of scripts. -/
structure Scene where
  puppet : Puppet
  /-- how often each task has run, by its number -/
  runs : Array Nat
  /-- what tasks have left behind, the last first -/
  trace : List TraceEntry
  /-- whether events were fired inside each other beyond the last level -/
  overrun : Bool
deriving Repr

namespace Puppet

/-- The state it shows. -/
def state? (p : Puppet) : Option String := if p.capable && !p.blank then some p.state else none

/-- The state of an entity that has one, whether it shows it or not. -/
def inspect (p : Puppet) : Option String := if p.blank then none else some p.state

/-- Stores a state, if the puppet does not refuse. -/
def setState (p : Puppet) (state : String) : Puppet × Except String Unit :=
  match p.deny with
  | some text => (p, .error text)
  | none => (⟨state, p.capable, p.deny, p.blank⟩, .ok ())

end Puppet

namespace Scene

/-- The scene with another puppet. -/
def withPuppet (s : Scene) (puppet : Puppet) : Scene := ⟨puppet, s.runs, s.trace, s.overrun⟩

/-- The scene with one more entry in its trace. -/
def note (s : Scene) (entry : TraceEntry) : Scene :=
  ⟨s.puppet, s.runs, entry :: s.trace, s.overrun⟩

/-- The scene with one more task made of a script, and that task. -/
def enroll (s : Scene) (script : Script) : ScriptTask × Scene :=
  (⟨s.runs.size, script⟩, ⟨s.puppet, s.runs.push 0, s.trace, s.overrun⟩)

/-- How often a task has run before, and the scene in which it runs once more. -/
def beginRun (s : Scene) (task : ScriptTask) : Nat × Scene :=
  (s.runs.getD task.id 0, ⟨s.puppet, s.runs.modify task.id (· + 1), s.trace, s.overrun⟩)

/-- Stores a state in the puppet. -/
def setState (s : Scene) (state : String) : Scene × Except String Unit :=
  let (puppet, result) := s.puppet.setState state
  (s.withPuppet puppet, result)

end Scene

namespace Script

/-- What one doing of a task leaves. -/
abbrev Doing := TaskRun ScriptTask Scene

/-- How events are fired by tasks. -/
abbrev Firer := String → Registry ScriptTask → Scene → Applied ScriptTask Scene

/-- Nothing is done but the scene changed. -/
def done (registry : Registry ScriptTask) (scene : Scene) : Doing := ⟨registry, scene, [], .ok ()⟩

/-- The task fails here. -/
def failed (registry : Registry ScriptTask) (scene : Scene) (text : String) : Doing :=
  ⟨registry, scene, [], .error text⟩

/-- Does one thing, in the run of the given number. -/
def perform (asks : String → Scene → Bool) (fire : Firer) (number : Nat) (action : Action)
    (registry : Registry ScriptTask) (scene : Scene) : Doing :=
  let puppet := scene.puppet
  match action with
  | .fail text => failed registry scene text
  | .failTimes times text =>
    if number < times then failed registry scene text else done registry scene
  | .failIn state text =>
    if puppet.state = state then failed registry scene text else done registry scene
  | .set state =>
    match puppet.state? with
    | none => failed registry scene "no capability"
    | some _ =>
      let (scene, result) := scene.setState state
      ⟨registry, scene, [], result⟩
  | .capable on =>
    done registry (scene.withPuppet ⟨puppet.state, on, puppet.deny, puppet.blank⟩)
  | .deny text =>
    done registry (scene.withPuppet ⟨puppet.state, puppet.capable, text, puppet.blank⟩)
  | .add name actions =>
    let (task, scene) := scene.enroll ⟨name, actions⟩
    match registry.add name task with
    | .ok registry => done registry scene
    | .error error => done registry (scene.note (.refused error))
  | .remove name =>
    match registry.remove name with
    | .ok (_, registry) => done registry scene
    | .error error => done registry (scene.note (.refused error))
  | .can event => done registry (scene.note (.answered event (asks event scene)))
  | .apply event propagate times =>
    if number < times then
      let applied := fire event registry scene
      match applied.result with
      | .ok outcome =>
        ⟨applied.registry, applied.world.note (.fired outcome), applied.log, .ok ()⟩
      | .error error =>
        if propagate then ⟨applied.registry, applied.world, applied.log, .error error.message⟩
        else ⟨applied.registry, applied.world.note (.notFired error), applied.log, .ok ()⟩
    else done registry scene

/-- Does several things until one fails. -/
def performAll (asks : String → Scene → Bool) (fire : Firer) (number : Nat) :
    List Action → Registry ScriptTask → Scene → Doing
  | [], registry, scene => done registry scene
  | action :: rest, registry, scene =>
    let first := perform asks fire number action registry scene
    match first.result with
    | .error _ => first
    | .ok () =>
      let after := performAll asks fire number rest first.registry first.world
      ⟨after.registry, after.world, first.log ++ after.log, after.result⟩

/-- Runs a task. -/
def runTask (asks : String → Scene → Bool) (fire : Firer) (task : ScriptTask)
    (registry : Registry ScriptTask) (scene : Scene) : Doing :=
  let (number, scene) := (scene.note (.ran task.script.name scene.puppet.state)).beginRun task
  performAll asks fire number task.script.actions registry scene

/-- A host that runs no tasks. -/
def still : Host ScriptTask Scene :=
  ⟨fun scene => scene.puppet.state?, fun state scene => scene.setState state,
    fun _ registry scene =>
      failed registry ⟨scene.puppet, scene.runs, scene.trace, true⟩ "too many levels"⟩

/-- The host of scripts on an engine, with events inside each other down to a number of levels. -/
def host (engine : Engine) : Nat → Host ScriptTask Scene
  | 0 => still
  | levels + 1 =>
    ⟨still.state?, still.setState,
      runTask (fun event scene => engine.can still event scene)
        (fun event registry scene => engine.apply (host engine levels) event registry scene)⟩

end Script

namespace Action

mutual

/-- How many actions an action is: itself and those that it brings along. -/
def size : Action → Nat
  | .add _ actions => sizeAll actions + 1
  | _ => 1

/-- The sum over several actions. -/
def sizeAll : List Action → Nat
  | [] => 0
  | action :: rest => action.size + sizeAll rest

end

mutual

/-- The run from which on an action, and those that it brings along, always do the same. -/
def settled : Action → Nat
  | .failTimes times _ => times
  | .apply _ _ times => times
  | .add _ actions => settledAll actions
  | _ => 0

/-- The last of these runs over several actions. -/
def settledAll : List Action → Nat
  | [] => 0
  | action :: rest => max action.settled (settledAll rest)

end

end Action

end StateMarkup
