import StateMarkup.Engine
import StateMarkup.Engine.Host
import StateMarkup.Machine

/-!
# Firing events

`Engine.apply` fires an event against the entity of a host. One `Engine.pass` takes a transition
through its hooks, runs the tasks scheduled under each of them, and stores the target in the entity
when all have succeeded. If a task is missing or fails and the event has an error state, a second
pass goes there from the state where the first one started; if that fails too, the failure of the
first is the answer.

A pass keeps what the tasks did even if it fails, and lists which tasks it ran, under which key and
in which world they began.
-/

namespace StateMarkup

universe u v

/-- A task that was run: its name, the key it was scheduled under, and the world it saw. -/
structure Execution (σ : Type v) where
  task : String
  hook : String
  seen : σ

/-- What has happened so far in a pass. -/
structure Progress (τ : Type u) (σ : Type v) where
  registry : Registry τ
  world : σ
  log : List Notice
  executions : List (Execution σ)

/-- One pass over a transition, whether it succeeded or not. -/
structure Pass (τ : Type u) (σ : Type v) where
  /-- the event of the transition -/
  event : String
  progress : Progress τ σ
  /-- the new state -/
  result : Except EngineError String

/-- What firing an event led to. -/
structure Outcome where
  /-- the event that was asked for -/
  event : String
  source : String
  target : String
  /-- whether the error state was taken -/
  fellBack : Bool
  /-- the failure that was answered by going to the error state, if it was -/
  cause : Option EngineError
deriving DecidableEq, Repr

/-- What firing an event leaves. -/
structure Applied (τ : Type u) (σ : Type v) where
  registry : Registry τ
  world : σ
  log : List Notice
  /-- the passes that were made, at most two -/
  passes : List (Pass τ σ)
  result : Except EngineError Outcome

namespace Progress

variable {τ : Type u} {σ : Type v}

/-- Nothing has happened. -/
def init (registry : Registry τ) (world : σ) : Progress τ σ := ⟨registry, world, [], []⟩

/-- What has happened after one more task. -/
def ran (p : Progress τ σ) (execution : Execution σ) (run : TaskRun τ σ) : Progress τ σ :=
  ⟨run.registry, run.world, p.log ++ .running execution.task execution.hook :: run.log,
    p.executions ++ [execution]⟩

/-- The same, in another world. -/
def withWorld (p : Progress τ σ) (world : σ) : Progress τ σ :=
  ⟨p.registry, world, p.log, p.executions⟩

end Progress

namespace Engine

variable {τ : Type u} {σ : Type v}

/-- Runs the named tasks of a key in order. Each is looked up when its turn has come; the first that
is missing or fails ends it. -/
def runTasks (host : Host τ σ) (key : String) :
    List String → Progress τ σ → Progress τ σ × Except EngineError Unit
  | [], p => (p, .ok ())
  | name :: rest, p =>
    match p.registry.get name with
    | .error _ => (p, .error (.taskNotFound name key))
    | .ok task =>
      let run := host.run task p.registry p.world
      let p := p.ran ⟨name, key, p.world⟩ run
      match run.result with
      | .error cause => (p, .error (.taskFailed name key cause))
      | .ok () => runTasks host key rest p

/-- Runs the tasks of a hook. -/
def runHook (engine : Engine) (host : Host τ σ) (hook : Hook) (p : Progress τ σ) :
    Progress τ σ × Except EngineError Unit :=
  runTasks host hook.key (engine.hooks.tasks hook.key) p

/-- Stores a new state in the entity. -/
def commit (host : Host τ σ) (target : String) (p : Progress τ σ) :
    Progress τ σ × Except EngineError String :=
  match host.state? p.world with
  | none => (p, .error .missingCapability)
  | some _ =>
    match host.setState target p.world with
    | (world, .ok ()) => (p.withWorld world, .ok target)
    | (world, .error cause) => (p.withWorld world, .error (.stateRefused target cause))

/-- Takes the transition of an event in a state through its hooks and stores its target. -/
def pass (engine : Engine) (host : Host τ σ) (event source : String) (registry : Registry τ)
    (world : σ) : Pass τ σ :=
  let firing := (Machine.mk engine.transitions source).fire event (engine.runHook host)
    (.init registry world)
  match firing.result with
  | .error (.notAdmissible event state) =>
    ⟨event, firing.world, .error (.notAdmissible event state)⟩
  | .error (.cancelled _ error) => ⟨event, firing.world, .error error⟩
  | .ok _ =>
    let (progress, result) := commit host firing.machine.current firing.world
    ⟨event, progress, result⟩

/-- Whether the host may fire the event in the entity's state. -/
def can (engine : Engine) (host : Host τ σ) (event : String) (world : σ) : Bool :=
  match host.state? world with
  | some state => (engine.transitions.admissible? event state).isSome
  | none => false

/-- The transition that answers a failure of the event's hooks. -/
def fallback? (engine : Engine) (event source : String) : Option Transition :=
  (engine.transitions.get? (fallbackEvent event) source).filter (·.isFallback)

/-- Answers the failure of a first pass by the error state, if the event has one. -/
def fallBack (engine : Engine) (host : Host τ σ) (event source : String) (first : Pass τ σ)
    (cause : EngineError) : Applied τ σ :=
  let p := first.progress
  match engine.fallback? event source with
  | none =>
    ⟨p.registry, p.world, p.log ++ [.aborted event source cause], [first], .error cause⟩
  | some _ =>
    let failed := fallbackEvent event
    let second := engine.pass host failed source p.registry p.world
    let q := second.progress
    let log := p.log ++ .fallingBack event source cause :: q.log
    match second.result with
    | .ok target =>
      ⟨q.registry, q.world, log ++ [.moved failed source target], [first, second],
        .ok ⟨event, source, target, true, some cause⟩⟩
    | .error error =>
      ⟨q.registry, q.world, log ++ [.fallbackFailed failed error], [first, second], .error cause⟩

/-- Fires an event against the entity. -/
def apply (engine : Engine) (host : Host τ σ) (event : String) (registry : Registry τ)
    (world : σ) : Applied τ σ :=
  match host.state? world with
  | none => ⟨registry, world, [], [], .error .missingCapability⟩
  | some source =>
    match engine.transitions.admissible? event source with
    | none => ⟨registry, world, [], [], .error (.notAdmissible event source)⟩
    | some _ =>
      let first := engine.pass host event source registry world
      let p := first.progress
      match first.result with
      | .ok target =>
        ⟨p.registry, p.world, p.log ++ [.moved event source target], [first],
          .ok ⟨event, source, target, false, none⟩⟩
      | .error cause =>
        if cause.isHookFailure && engine.options.fallback then
          engine.fallBack host event source first cause
        else ⟨p.registry, p.world, p.log, [first], .error cause⟩

end Engine

end StateMarkup
