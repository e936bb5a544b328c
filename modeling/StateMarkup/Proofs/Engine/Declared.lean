import StateMarkup.Proofs.Declarations
import StateMarkup.Proofs.Engine.Answer
import StateMarkup.Proofs.Engine.Compiled
import StateMarkup.Proofs.Schema.Survey

/-!
# The entity stays in declared states

An entity may be driven by an engine for as long as its host likes, with other tasks each time. What
an engine itself stores in the entity are targets of its transitions, so if a property of states
holds of these and the tasks keep it, then firing an event keeps it (`Engine.apply_stays`). In
strict mode every target is declared, of the regular transitions as of those for failures, and so
the entity never leaves the declared states (`Engine.applyAll_stays_declared`).
-/

namespace StateMarkup

universe u v

variable {τ : Type u} {σ : Type v} {host : Host τ σ} {stateName : σ → String} {p : String → Prop}

/-- Tasks may do anything except take the entity out of the states with the property. They may well
move it from one such state to another. -/
def Host.TasksStayIn (host : Host τ σ) (stateName : σ → String) (p : String → Prop) : Prop :=
  ∀ (task : τ) (registry : Registry τ) (world : σ), p (stateName world) →
    p (stateName (host.run task registry world).world)

/-! ## One pass -/

section

variable {slots : List Slot} {slot : Slot} {before after : Progress τ σ}

/-- A schedule that runs to its end keeps the entity in these states, task by task. -/
theorem Ran.stays (stay : host.TasksStayIn stateName p) (run : Ran host slots before after)
    (start : p (stateName before.world)) : p (stateName after.world) := by
  induction run with
  | nil _ => exact start
  | cons _ _ _ ih => exact ih (stay _ _ _ start)

/-- So does a slot that halts it, since a task that fails has still kept them. -/
theorem Halts.stays (stay : host.TasksStayIn stateName p) {error : EngineError}
    (halt : Halts host slot before after error) (start : p (stateName before.world)) :
    p (stateName after.world) := by
  cases halt with
  | notFound _ => exact start
  | failed _ _ => exact stay _ _ _ start

/-- A commit stores the target, or leaves the state as it is. -/
theorem Commits.stays (laws : host.Stores stateName) {target : String}
    {result : Except EngineError String} (commits : Commits host target before after result)
    (aim : p target) (start : p (stateName before.world)) : p (stateName after.world) := by
  cases commits with
  | incapable _ => exact start
  | stored shown set =>
    rw [Progress.withWorld, laws.stored shown set]
    exact aim
  | refused shown set =>
    rw [Progress.withWorld, laws.refused shown set]
    exact start

/-- A pass keeps the entity in these states if its target is one of them, whatever comes of it. -/
theorem PassCourse.stays (laws : host.Stores stateName) (stay : host.TasksStayIn stateName p)
    {event target : String} {pass : Pass τ σ}
    (course : PassCourse host slots event target before pass) (aim : p target)
    (start : p (stateName before.world)) : p (stateName pass.progress.world) := by
  cases course with
  | committed ran commits => exact commits.stays laws aim (ran.stays stay start)
  | halted _ ran halts => exact halts.stays stay (ran.stays stay start)

end

/-! ## One event and several -/

/-- A call to an engine: what the host does to the registry first, and the event that it fires. -/
structure Call (τ : Type u) where
  prepare : Registry τ → Registry τ
  event : String

namespace Engine

variable {engine : Engine} {registry : Registry τ} {world : σ}

/-- What several calls leave, one after the other. -/
def applyAll (engine : Engine) (host : Host τ σ) :
    List (Call τ) → Registry τ → σ → List (Applied τ σ)
  | [], _, _ => []
  | call :: rest, registry, world =>
    let applied := engine.apply host call.event (call.prepare registry) world
    applied :: engine.applyAll host rest applied.registry applied.world

/-- **What all targets and all tasks keep is kept by firing an event**, whatever comes of it. There
may be two passes, the second of them from where the first has left the entity, and both over
transitions of the table. -/
theorem apply_stays (laws : host.Stores stateName) (stay : host.TasksStayIn stateName p)
    (aims : ∀ {event source : String} {t : Transition},
      engine.transitions.get? event source = some t → p t.target)
    (event : String) (registry : Registry τ) (start : p (stateName world)) :
    p (stateName (engine.apply host event registry world).world) := by
  rcases shown : host.state? world with _ | source
  · rw [apply_of_hidden shown]
    exact start
  rcases admissible : engine.transitions.admissible? event source with _ | t
  · rw [apply_of_inadmissible shown admissible]
    exact start
  have found := (TransitionTable.admissible?_eq_some_iff.mp admissible).1
  have first : p (stateName (engine.pass host event source registry world).progress.world) :=
    (engine.pass_course host found registry world).stays laws stay (aims found) start
  -- a second pass starts from whatever the first one has left
  have second {f : Transition} (fallback : engine.fallback? event source = some f) :
      p (stateName (engine.secondPass host event source
        (engine.pass host event source registry world)).progress.world) :=
    (secondPass_course host fallback _).stays laws stay
      (aims (fallback?_eq_some_iff.mp fallback).1) first
  have answer := apply_answer registry shown admissible
  generalize engine.apply host event registry world = applied at answer ⊢
  cases answer with
  | moved _ => exact first
  | broken _ _ => exact first
  | aborted _ _ _ => exact first
  | fellBack _ _ fallback again _ => exact again ▸ second fallback
  | failedAgain _ _ fallback again _ => exact again ▸ second fallback

/-- So it is with any number of calls, by induction on them: each starts from where the one before
has left the entity. -/
theorem applyAll_stays (laws : host.Stores stateName) (stay : host.TasksStayIn stateName p)
    (aims : ∀ {event source : String} {t : Transition},
      engine.transitions.get? event source = some t → p t.target)
    (calls : List (Call τ)) (start : p (stateName world)) :
    ∀ applied ∈ engine.applyAll host calls registry world, p (stateName applied.world) := by
  induction calls generalizing registry world with
  | nil => exact fun _ happened => absurd happened List.not_mem_nil
  | cons call rest ih =>
    have next := apply_stays laws stay aims call.event (call.prepare registry) start
    exact List.forall_mem_cons.mpr ⟨next, ih next⟩

/-! ## Declared states -/

/-- In strict mode every transition leads to a declared state, the ones for failures too. Each comes
from an event of the schema, and the rules about references have looked at all the states that this
leads to. -/
theorem contains_target {options : EngineOptions} {source : String}
    (compiled : (compile options source).result = .ok engine) (strict : options.strict = true)
    {event state : String} {t : Transition}
    (found : engine.transitions.get? event state = some t) :
    engine.states.contains t.target = true := by
  obtain ⟨document, -, made⟩ := compile_eq_ok_iff.mp compiled
  obtain ⟨states, -, references, rfl⟩ := ofNode_eq_ok_iff.mp made
  have listed : t ∈ (Schema.ofNode document.root).transitions :=
    TransitionTable.mem_of_get?_ofList found
  obtain ⟨⟨state, event⟩, declared, ht⟩ := Schema.mem_transitions_iff.mp listed
  have leads : event.LeadsTo t.target := by
    rcases Event.mem_transitions_iff.mp ht with rfl | ⟨target, answered, rfl⟩
    · exact .inl rfl
    · exact .inr answered
  exact Schema.contains_of_checkReferences (references strict) declared leads

/-- **The entity stays in declared states.** An engine that was compiled strictly is called any
number of times, whatever tasks there are at the time and however the calls end. If the tasks
themselves do not take the entity out of the declared states, it is in one of them after every
call. -/
theorem applyAll_stays_declared {options : EngineOptions} {source : String}
    (compiled : (compile options source).result = .ok engine) (strict : options.strict = true)
    (laws : host.Stores stateName)
    (stay : host.TasksStayIn stateName fun state => engine.states.contains state = true)
    (start : engine.states.contains (stateName world) = true) (calls : List (Call τ)) :
    ∀ applied ∈ engine.applyAll host calls registry world,
      engine.states.contains (stateName applied.world) = true :=
  applyAll_stays laws stay (contains_target compiled strict) calls start

/-- The first call falls back, since its task is missing; the second is refused; then the host adds
the task, and the third call goes through. -/
theorem applyAll_stays_declared_thrice :
    let source := "<Schema><States><a><Events><Go targetState=\"b\" errorState=\"c\">" ++
      "<Task>t</Task></Go></Events></a><b></b><c><Events><Retry targetState=\"b\">" ++
      "<Task>t</Task></Retry></Events></c></States></Schema>"
    let calls : List (Call String) := [⟨id, "Go"⟩, ⟨id, "Go"⟩,
      ⟨fun registry => ⟨registry.tasks.insert "t" "t"⟩, "Retry"⟩]
    ∃ engine, (compile ⟨true, true⟩ source).result = .ok engine ∧
      Simulation.host.Stores (·.state) ∧
      Simulation.host.TasksStayIn (·.state) (fun state => engine.states.contains state = true) ∧
      engine.states.contains "a" = true ∧
      (engine.applyAll Simulation.host calls .empty ⟨"a", []⟩).map (·.world.state) =
        ["c", "c", "b"] ∧
      ∀ applied ∈ engine.applyAll Simulation.host calls .empty ⟨"a", []⟩,
        engine.states.contains applied.world.state = true := by
  intro source calls
  have compiles : ∃ engine, (compile ⟨true, true⟩ source).result = .ok engine ∧
      engine.states.contains "a" = true ∧
      (engine.applyAll Simulation.host calls .empty ⟨"a", []⟩).map (·.world.state) =
        ["c", "c", "b"] := exists_of_compile_any (by decide +kernel)
  obtain ⟨engine, compiled, start, passed⟩ := compiles
  have stay : Simulation.host.TasksStayIn (·.state)
      (fun state => engine.states.contains state = true) := fun _ _ _ declared => declared
  exact ⟨engine, compiled, Simulation.host_stores, stay, start, passed,
    applyAll_stays_declared compiled rfl Simulation.host_stores stay start calls⟩

end Engine

end StateMarkup
