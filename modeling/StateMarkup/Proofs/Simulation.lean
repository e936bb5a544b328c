import StateMarkup.Command
import StateMarkup.Proofs.Engine.Answer
import StateMarkup.Proofs.Engine.Compiled
import StateMarkup.Proofs.Engine.Schedule
import StateMarkup.Proofs.HookTable
import StateMarkup.Proofs.Registry

/-!
# What a simulation tells

A simulation knows a task for every name that stands anywhere in the hook table, and its tasks
always succeed. So nothing that it fires can fail but for want of a transition, and a simulation is
nothing more than a walk through the transition table: `Engine.next` says where an event leads, and
the state in the end is the fold of the events over it. With every transition on the way all its
tasks have run, in the order of its keys (`Engine.tasksOf`).

`Command.simulate_walks` says this of the whole command: what it prints and its exit code are those
of the walk.
-/

namespace StateMarkup

/-! ## The walk -/

namespace Engine

variable (engine : Engine) (state event : String)

/-- Where an event leads: to the target of what is found for it in the state, if the host may fire
that, and nowhere otherwise. -/
def next : String :=
  match engine.transitions.get? event state with
  | some t => if t.kind = .regular then t.target else state
  | none => state

/-- Where several events lead, one after the other. -/
def walk (events : List String) : String := events.foldl engine.next state

/-- The tasks of a transition: those of all its keys, in the order of the phases. -/
def tasksOf (t : Transition) : List String := t.keys.flatMap engine.hooks.tasks

variable {engine state event}

/-- An event that the host may fire leads to the target of its transition. -/
theorem next_of_admissible {t : Transition}
    (admissible : engine.transitions.admissible? event state = some t) :
    engine.next state event = t.target := by
  obtain ⟨found, regular⟩ := TransitionTable.admissible?_eq_some_iff.mp admissible
  rw [next, found]
  exact if_pos regular

/-- An event that it may not fire leads nowhere, also if what is found for it answers a failure. -/
theorem next_of_inadmissible (absent : engine.transitions.admissible? event state = none) :
    engine.next state event = state := by
  rw [TransitionTable.admissible?] at absent
  rw [next]
  cases found : engine.transitions.get? event state with
  | none => rfl
  | some t =>
    rw [found, Option.filter_eq_none_iff] at absent
    have hidden : t.kind ≠ .regular := by simpa [Transition.isFallback_eq_false_iff] using absent
    exact if_neg hidden

/-- The slots of a transition are its tasks: one for each task of each of its keys, in order. -/
theorem map_task_slots (engine : Engine) (t : Transition) :
    (engine.slots t).map Slot.task = engine.tasksOf t := by
  have under (key : String) (tasks : List String) :
      (Slot.under key tasks).map Slot.task = tasks := by
    rw [Slot.under, List.map_map]
    exact List.map_id _
  rw [slots, hookSlots, tasksOf, ← t.map_key_hooks, List.map_flatMap, List.flatMap_map]
  simp only [under]

end Engine

/-! ## The tasks of a simulation -/

namespace Simulation

variable {engine : Engine} {state event : String}

/-- Names that are free and different are all registered, each for itself, and nothing else changes.
The registry is kept general for the induction, as it grows with each name. -/
theorem register_eq_ok {names : List String} (registry : Registry String) (distinct : names.Nodup)
    (free : ∀ name ∈ names, registry.tasks.get? name = none) :
    ∃ full, register registry names = .ok full ∧ ∀ name,
      full.tasks.get? name = if name ∈ names then some name else registry.tasks.get? name := by
  induction names generalizing registry with
  | nil => exact ⟨registry, rfl, by simp⟩
  | cons first rest ih =>
    obtain ⟨first_free, rest_free⟩ := List.forall_mem_cons.mp free
    obtain ⟨fresh, distinct⟩ := List.nodup_cons.mp distinct
    have still_free : ∀ name ∈ rest, (registry.tasks.insert first first).get? name = none := by
      intro name hname
      rw [NameMap.get?_insert, if_neg (ne_of_mem_of_not_mem hname fresh), rest_free name hname]
    obtain ⟨full, registered, found⟩ :=
      ih ⟨registry.tasks.insert first first⟩ distinct still_free
    refine ⟨full, ?_, fun name => ?_⟩
    · rw [register, Registry.add_of_free first_free]
      exact registered
    · rw [found, NameMap.get?_insert]
      by_cases own : name = first
      · simp [own]
      · simp [own]

/-- **No task is registered twice**, and every task of a hook is registered. The names come from the
hook table, which lists each of them once. -/
theorem register_taskNames (engine : Engine) :
    ∃ registry, register .empty engine.hooks.taskNames = .ok registry ∧
      ∀ key, ∀ name ∈ engine.hooks.tasks key, registry.get name = .ok name := by
  obtain ⟨registry, registered, found⟩ :=
    register_eq_ok .empty engine.hooks.nodup_taskNames fun _ _ => rfl
  refine ⟨registry, registered, fun key name hname => Registry.get_of_found ?_⟩
  rw [found, if_pos (HookTable.mem_taskNames hname)]

/-- Registered tasks run one after the other; they are put down and leave all else as it is. So
whatever the slots, all of them are passed. -/
theorem ran {slots : List Slot} {p : Progress String Simulated}
    (registered : ∀ slot ∈ slots, p.registry.get slot.task = .ok slot.task) :
    ∃ q, Ran host slots p q ∧
      q.world = ⟨p.world.state, p.world.tasks ++ slots.map Slot.task⟩ := by
  induction slots generalizing p with
  | nil => exact ⟨p, .nil p, by simp⟩
  | cons slot rest ih =>
    obtain ⟨first, later⟩ := List.forall_mem_cons.mp registered
    obtain ⟨q, ran, world⟩ := ih (p := p.afterRun host slot slot.task) later
    refine ⟨q, .cons first rfl ran, ?_⟩
    rw [world]
    simp [Progress.afterRun, Progress.ran, host]

/-- A pass of a simulation succeeds. All its tasks are registered and none of them fails, and the
entity takes whatever state it is given. -/
theorem pass_succeeds {registry : Registry String} {t : Transition}
    (found : engine.transitions.get? event state = some t)
    (registered : ∀ key, ∀ name ∈ engine.hooks.tasks key, registry.get name = .ok name) :
    let pass := engine.pass host event state registry ⟨state, []⟩
    pass.result = .ok t.target ∧ pass.progress.world = ⟨t.target, engine.tasksOf t⟩ := by
  intro pass
  have known : ∀ slot ∈ engine.slots t, registry.get slot.task = .ok slot.task := by
    intro slot hslot
    have task : slot.task ∈ engine.tasksOf t :=
      engine.map_task_slots t ▸ List.mem_map_of_mem hslot
    obtain ⟨key, -, hname⟩ := List.mem_flatMap.mp task
    exact registered key _ hname
  obtain ⟨q, ran, world⟩ := ran (p := .init registry ⟨state, []⟩) known
  have course : PassCourse host (engine.slots t) event t.target _ pass :=
    engine.pass_course host found registry ⟨state, []⟩
  obtain ⟨-, commits⟩ := course.follows.finished q ran
  -- the entity of a simulation always shows its state and takes a new one
  generalize pass.result = result, pass.progress = progress at commits ⊢
  cases commits with
  | incapable hidden => cases hidden
  | refused _ set => cases set
  | stored _ set =>
    cases set
    refine ⟨rfl, ?_⟩
    rw [Progress.withWorld, world, engine.map_task_slots]
    rfl

/-! ## One event -/

/-- **What is told of an event** that is fired in a state. -/
inductive Tells (engine : Engine) (state event : String) : SimulatedEvent → Prop where
  /-- it may be fired: it goes where it leads and does not fall back, and the tasks of all keys have
  run -/
  | fired {t : Transition} {log : List Notice} :
      engine.transitions.get? event state = some t →
      t.kind = .regular →
      Tells engine state event
        ⟨event, .ok ⟨event, state, t.target, false, none⟩, engine.tasksOf t, log⟩
  /-- it may not be fired, and nothing has run -/
  | refused :
      engine.transitions.admissible? event state = none →
      Tells engine state event ⟨event, .error (.notAdmissible event state), [], []⟩

/-- An event that is told of has failed if it may not be fired, and only then. There is no other way
to fail here. -/
theorem Tells.hasFailed_iff {told : SimulatedEvent} (tells : Tells engine state event told) :
    hasFailed told = true ↔ engine.transitions.admissible? event state = none := by
  cases tells with
  | fired found regular =>
    have admissible := TransitionTable.admissible?_eq_some_iff.mpr ⟨found, regular⟩
    simp [hasFailed, admissible]
  | refused absent => simp [hasFailed, absent]

/-- **Every event is fired or refused**, and the entity is where the event leads. No failure is ever
answered, since a pass does not fail. -/
theorem fire_tells (state event : String) {registry : Registry String}
    (registered : ∀ key, ∀ name ∈ engine.hooks.tasks key, registry.get name = .ok name) :
    Tells engine state event (fire engine registry state event).1 ∧
      (fire engine registry state event).2 = engine.next state event := by
  rw [fire]
  rcases admissible : engine.transitions.admissible? event state with _ | t
  · rw [Engine.apply_of_inadmissible rfl admissible, Engine.next_of_inadmissible admissible]
    exact ⟨.refused admissible, rfl⟩
  · obtain ⟨found, regular⟩ := TransitionTable.admissible?_eq_some_iff.mp admissible
    obtain ⟨succeeded, world⟩ := pass_succeeds found registered
    rw [Engine.next_of_admissible admissible]
    have answer : Engine.Answer engine host event state (engine.pass host event state registry _)
      (engine.apply host event registry ⟨state, []⟩) := Engine.apply_answer registry rfl admissible
    generalize engine.apply host event registry ⟨state, []⟩ = applied at answer
    cases answer with
    | moved ok =>
      cases succeeded.symm.trans ok
      rw [world]
      exact ⟨.fired found regular, rfl⟩
    | broken failed _ => cases succeeded.symm.trans failed
    | aborted failed _ _ => cases succeeded.symm.trans failed
    | fellBack failed _ _ _ _ => cases succeeded.symm.trans failed
    | failedAgain failed _ _ _ _ => cases succeeded.symm.trans failed

/-! ## Several events -/

/-- **A simulation of several events** tells of each of them in the state that those before lead to,
and ends where all of them lead. -/
inductive Follows (engine : Engine) : String → List String → Simulation → Prop where
  | nil (state : String) : Follows engine state [] ⟨[], state⟩
  | cons {state event : String} {rest : List String} {told : SimulatedEvent} {after : Simulation} :
      Tells engine state event told →
      Follows engine (engine.next state event) rest after →
      Follows engine state (event :: rest) ⟨told :: after.events, after.state⟩

/-- Several events are told of one after the other, each where those before it lead. -/
theorem fireAll_follows {registry : Registry String} (events : List String)
    (registered : ∀ key, ∀ name ∈ engine.hooks.tasks key, registry.get name = .ok name) :
    Follows engine state events (fireAll engine registry state events) := by
  induction events generalizing state with
  | nil => exact .nil state
  | cons event rest ih =>
    obtain ⟨tells, next⟩ := fire_tells state event registered
    rw [fireAll]
    generalize fire engine registry state event = fired at tells next
    obtain ⟨told, there⟩ := fired
    cases next
    exact .cons tells ih

/-- Every simulation is run, since its tasks can be registered. -/
theorem run_follows (engine : Engine) (state : String) (events : List String) :
    ∃ s, run engine state events = .ok s ∧ Follows engine state events s := by
  obtain ⟨registry, registered, found⟩ := register_taskNames engine
  rw [run, registered]
  exact ⟨_, rfl, fireAll_follows events found⟩

namespace Follows

variable {events : List String} {s : Simulation}

/-- A simulation ends where its events lead. -/
theorem state_eq (follows : Follows engine state events s) :
    s.state = engine.walk state events := by
  induction follows with
  | nil state => rfl
  | cons _ _ ih => exact ih

/-- A simulation has failed if some event may not be fired where it is fired, and only then. -/
theorem failed_iff (follows : Follows engine state events s) :
    s.failed = true ↔ ∃ before event after, events = before ++ event :: after ∧
      engine.transitions.admissible? event (engine.walk state before) = none := by
  induction follows with
  | nil state => simp [failed]
  | @cons state event rest told after tells later ih =>
    have either : failed ⟨told :: after.events, after.state⟩ = true ↔
        hasFailed told = true ∨ failed after = true := by
      rw [failed, List.any_cons, Bool.or_eq_true]
      rfl
    rw [either, tells.hasFailed_iff, ih]
    constructor
    · rintro (absent | ⟨before, event', behind, rfl, absent⟩)
      · exact ⟨[], event, rest, rfl, absent⟩
      · exact ⟨event :: before, event', behind, rfl, absent⟩
    · rintro ⟨_ | ⟨first, before⟩, event', behind, split, absent⟩
      · obtain ⟨rfl, rfl⟩ := List.cons.inj split
        exact .inl absent
      · obtain ⟨rfl, rfl⟩ := List.cons.inj split
        exact .inr ⟨before, event', behind, rfl, absent⟩

end Follows

end Simulation

/-! ## What is printed -/

namespace Brush

variable (brush : Brush) (engine : Engine)

/-- What is printed of an event that is fired: where it goes, and in a line of their own the tasks,
if there are any. -/
def step (state event : String) (t : Transition) : String :=
  line (brush.paint .strong event ++ " " ++
      brush.paint (.plain .green) (state ++ " -> " ++ t.target)) ++
    if (engine.tasksOf t).isEmpty then ""
    else line ("  " ++ brush.paint .faint "tasks:" ++ " " ++ ", ".intercalate (engine.tasksOf t))

/-- What is printed of several events: nothing of those that may not be fired. -/
def steps : String → List String → String
  | _, [] => ""
  | state, event :: rest =>
    match engine.transitions.admissible? event state with
    | some t => brush.step engine state event t ++ steps (engine.next state event) rest
    | none => steps (engine.next state event) rest

/-- What is printed last. -/
def finalState (state : String) : String :=
  line "" ++ line (brush.paint (.bright .cyan) "Final state:" ++ " " ++ brush.paint .strong state)

end Brush

/-- What stands on the standard output. -/
def Emission.printed : Emission → String
  | .out text => text
  | .err _ => ""
  | .log _ _ => ""

/-- What stands on the standard output is what the emissions print, one behind the other. -/
theorem Report.stdout_eq (r : Report) :
    r.stdout = String.join (r.emissions.map Emission.printed) := by
  rw [Report.stdout]
  congr 2
  funext emission
  cases emission <;> rfl

namespace Manner

variable (m : Manner) {engine : Engine} {state event : String}

/-- Log lines are not printed. -/
theorem printed_logged (notices : List Notice) :
    String.join ((m.logged notices).map Emission.printed) = "" := by
  rw [logged, List.map_map]
  induction notices.filter m.filter.shows with
  | nil => rfl
  | cons notice rest ih => rw [List.map_cons, String.join_cons, ih]; rfl

/-- Of an event that is fired its step is printed, and of another nothing, since errors go to the
other output. -/
theorem printed_simulatedEvent {told : SimulatedEvent}
    (tells : Simulation.Tells engine state event told) :
    String.join ((m.simulatedEvent engine told).map Emission.printed) =
      match engine.transitions.admissible? event state with
      | some t => m.brush.step engine state event t
      | none => "" := by
  rw [simulatedEvent, List.map_append, String.join_append, printed_logged, String.empty_append]
  cases tells with
  | @fired t log found regular =>
    rw [TransitionTable.admissible?_eq_some_iff.mpr ⟨found, regular⟩]
    simp only [Brush.step]
    by_cases idle : (engine.tasksOf t).isEmpty
    · simp [idle, sayLine, Emission.printed]
    · simp [idle, sayLine, Emission.printed]
  | refused absent =>
    rw [absent]
    rfl

/-- Of several events their steps are printed, in order. -/
theorem printed_events {events : List String} {s : Simulation}
    (follows : Simulation.Follows engine state events s) :
    String.join ((s.events.flatMap (m.simulatedEvent engine)).map Emission.printed) =
      m.brush.steps engine state events := by
  induction follows with
  | nil state => rfl
  | @cons state event rest told after tells later ih =>
    rw [List.flatMap_cons, List.map_append, String.join_append, m.printed_simulatedEvent tells, ih,
      Brush.steps]
    cases engine.transitions.admissible? event state with
    | some t => rfl
    | none => exact String.empty_append

end Manner

/-! ## The command -/

namespace Surroundings

variable (around : Surroundings) (flags : SettingsFlags)

/-- The settings of an invocation: those of the settings file, or the default ones, and the
flags. -/
def settings : Settings :=
  ((Settings.loadFirst around.read (Settings.places around.home)).toOption.getD .default).withFlags
    flags

/-- The brush of an invocation. -/
def brush : Brush := ⟨around.color && (around.settings flags).colored⟩

end Surroundings

namespace Command

variable {around : Surroundings} {flags : SettingsFlags} {file state source : String}
  {events : List String} {engine : Engine}

/-- What is said of a settings file is not printed. -/
theorem printed_reportSettings (color : Bool) (loaded : Except SettingsError Settings) :
    String.join ((reportSettings color loaded).map Emission.printed) = "" := by
  cases loaded <;> rfl

/-- What an invocation prints and its exit code are those of what it does. What is said of the
settings and what is logged adds nothing to the standard output. -/
theorem invoke_simulate (found : ReadError.text (around.read file) = .ok source)
    (compiled : (Engine.compile (around.settings flags).engine source).result = .ok engine)
    {s : Simulation} (ran : Simulation.run engine state events = .ok s)
    (follows : Simulation.Follows engine state events s) :
    let report := invoke around ⟨.simulate file state events, flags⟩
    report.stdout = (around.brush flags).steps engine state events ++
        (around.brush flags).finalState s.state ∧
      report.exit = if s.failed then 1 else 0 := by
  intro report
  have file_eq : (Command.simulate file state events).file = file := rfl
  rw [Surroundings.settings] at compiled
  constructor
  · rw [Report.stdout_eq]
    simp only [report, invoke, Manner.run, Manner.withEngine, Manner.simulate, file_eq, found,
      compiled, ran, List.map_append, String.join_append, printed_reportSettings,
      Manner.printed_logged, Manner.printed_events _ follows, String.empty_append]
    simp [Brush.finalState, Manner.sayLine, Emission.printed, Surroundings.brush,
      Surroundings.settings]
  · simp only [report, invoke, Manner.run, Manner.withEngine, Manner.simulate, file_eq, found,
      compiled, ran]

/-- **A simulation is a walk.** Whatever the document, the state and the events, all tasks can be
registered; every event goes along a transition without falling back, or is refused because it may
not be fired. The command prints the transitions on the way with the tasks of all their keys, and
where all of them lead, and it fails if some event may not be fired where the events before it lead,
and only then. -/
theorem simulate_walks (state : String) (events : List String)
    (found : ReadError.text (around.read file) = .ok source)
    (compiled : (Engine.compile (around.settings flags).engine source).result = .ok engine) :
    let report := invoke around ⟨.simulate file state events, flags⟩
    (∃ s, Simulation.run engine state events = .ok s ∧
      Simulation.Follows engine state events s ∧ s.state = engine.walk state events) ∧
    report.stdout = (around.brush flags).steps engine state events ++
      (around.brush flags).finalState (engine.walk state events) ∧
    (report.exit = 0 ∨ report.exit = 1) ∧
    (report.exit = 1 ↔ ∃ before event after, events = before ++ event :: after ∧
      engine.transitions.admissible? event (engine.walk state before) = none) := by
  intro report
  obtain ⟨s, ran, follows⟩ := Simulation.run_follows engine state events
  obtain ⟨stdout, exit⟩ := invoke_simulate found compiled ran follows
  rw [stdout, exit, ← follows.failed_iff, follows.state_eq]
  refine ⟨⟨s, ran, follows, follows.state_eq⟩, rfl, ?_, ?_⟩
  · cases s.failed <;> decide
  · cases s.failed <;> decide

/-- An event with a task that is fired twice: the second time it leads nowhere, and the command
fails. -/
theorem simulate_walks_once :
    let source := "<Schema><States><a><Events><Go targetState=\"b\"><Task>open</Task></Go>" ++
      "</Events></a><b></b></States></Schema>"
    let around : Surroundings :=
      ⟨fun path => if path = "door" then .ok source.toUTF8 else .error .notFound, none, false, none⟩
    let report := invoke around ⟨.simulate "door" "a" ["Go", "Go"], Arguments.noFlags⟩
    report.stdout = "Go a -> b\n  tasks: open\n\nFinal state: b\n" ∧ report.exit = 1 := by
  intro source around report
  have found : ReadError.text (around.read "door") = .ok source := by decide +kernel
  have compiles : ∃ engine,
      (Engine.compile (around.settings Arguments.noFlags).engine source).result = .ok engine ∧
      ((around.brush Arguments.noFlags).steps engine "a" ["Go", "Go"] ++
          (around.brush Arguments.noFlags).finalState (engine.walk "a" ["Go", "Go"]) =
        "Go a -> b\n  tasks: open\n\nFinal state: b\n" ∧
      engine.transitions.admissible? "Go" (engine.walk "a" ["Go"]) = none) :=
    Engine.exists_of_compile_any (by decide +kernel)
  obtain ⟨engine, compiled, text, refused⟩ := compiles
  obtain ⟨-, printed, -, fails⟩ := simulate_walks "a" ["Go", "Go"] found compiled
  exact ⟨printed.trans text, fails.mpr ⟨["Go"], "Go", [], rfl, refused⟩⟩

end Command

end StateMarkup
