import StateMarkup.Proofs.Declarations
import StateMarkup.Proofs.Engine.Compiled
import StateMarkup.Proofs.Engine.Entity
import StateMarkup.Proofs.Schedule
import StateMarkup.Proofs.Schema.Survey

/-!
# The protocol of a pass

`Schema.schedule` is the list of all tasks that belong to an event and a target, in the order of the
protocol, written down from the document without any keys. The slots that a pass gathers by its keys
are this list, if no key serves two purposes (`Schema.KeysApart`), and so a pass follows it
(`Engine.pass_follows_schedule`).
-/

namespace StateMarkup

universe u v

namespace Schema

/-- No event and no state has a name that makes a key which all events or all states share. -/
structure KeysApart (schema : Schema) : Prop where
  events : ∀ declared ∈ schema.events, declared.2.name ≠ "event"
  states : ∀ state ∈ schema.states, state.name ≠ "state"

variable {schema : Schema}

instance : Decidable schema.KeysApart :=
  decidable_of_iff ((∀ declared ∈ schema.events, declared.2.name ≠ "event") ∧
      ∀ state ∈ schema.states, state.name ≠ "state")
    ⟨fun h => ⟨h.1, h.2⟩, fun h => ⟨h.events, h.states⟩⟩

/-- The strict rules about names keep the keys apart: they are the same two conditions, among
others. -/
theorem keysApart_of_checkReferences {declared : NameSet}
    (h : schema.checkReferences declared = .ok ()) : schema.KeysApart := by
  obtain ⟨states, events⟩ := referenceViolations_eq_nil_iff.mp (checkReferences_eq_ok_iff.mp h)
  exact ⟨fun told htold => (events told htold).1, fun state hstate => (states state hstate).2⟩

/-- No transition is fired by an event named `event` then, nor answers one: the name of an answer
ends otherwise. -/
theorem KeysApart.event_ne (apart : schema.KeysApart) {t : Transition}
    (ht : t ∈ schema.transitions) : t.event ≠ "event" := by
  obtain ⟨declared, hdeclared, ht⟩ := mem_transitions_iff.mp ht
  rcases Event.mem_transitions_iff.mp ht with rfl | ⟨_, _, rfl⟩
  · exact apart.events declared hdeclared
  · exact fallbackEvent_ne_event

/-- No state declares an event named `event` then. -/
theorem KeysApart.filter_events (apart : schema.KeysApart) {state : State}
    (hstate : state ∈ schema.states) : state.events.filter (·.name = "event") = [] := by
  refine List.filter_eq_nil_iff.mpr fun event hevent => ?_
  have declared : (state, event) ∈ schema.events :=
    List.mem_flatMap.mpr ⟨state, hstate, List.mem_map_of_mem hevent⟩
  simpa using apart.events _ declared

/-- So no tasks of a single event come under the key of what runs before all events. -/
theorem KeysApart.tasksBefore_event (apart : schema.KeysApart) :
    schema.tasksBefore "event" = [] := by
  refine List.flatMap_eq_nil_iff.mpr fun state hstate => ?_
  rw [apart.filter_events hstate, List.flatMap_nil]

/-- And none come under the key of what runs after all events. -/
theorem KeysApart.tasksAfter_event (apart : schema.KeysApart) : schema.tasksAfter "event" = [] := by
  refine List.flatMap_eq_nil_iff.mpr fun state hstate => ?_
  rw [apart.filter_events hstate, List.flatMap_nil]

/-- Nor do tasks of a single state come under the key of what runs on entering any state. -/
theorem KeysApart.tasksEnter_state (apart : schema.KeysApart) : schema.tasksEnter "state" = [] := by
  rw [tasksEnter, List.filter_eq_nil_iff.mpr, List.flatMap_nil]
  intro state hstate
  simpa using apart.states state hstate

variable (schema)

/-- **The schedule of an event and a target**: what comes before all events, what comes before this
one, what comes on entering the target and on entering all states, what comes after this event and
what comes after all. -/
def schedule (event target : String) : List Slot :=
  Slot.under HookKey.beforeEvent schema.hooks.before ++
  Slot.under (HookKey.before event) (schema.tasksBefore event) ++
  Slot.under (HookKey.enter target) (schema.tasksEnter target) ++
  Slot.under HookKey.enterState schema.hooks.onEnter ++
  Slot.under (HookKey.after event) (schema.tasksAfter event) ++
  Slot.under HookKey.afterEvent schema.hooks.after

end Schema

namespace Engine

variable {schema : Schema} {options : EngineOptions} {states : NameSet} {t : Transition}

theorem hookSlots_append (engine : Engine) (hooks more : List Hook) :
    engine.hookSlots (hooks ++ more) = engine.hookSlots hooks ++ engine.hookSlots more :=
  List.flatMap_append

theorem hookSlots_singleton (engine : Engine) (hook : Hook) :
    engine.hookSlots [hook] = Slot.under hook.key (engine.hooks.tasks hook.key) := by
  rw [hookSlots, List.flatMap_singleton]

/-- Strict compiling keeps the keys apart. -/
theorem keysApart_of_strict {source : String} {engine : Engine}
    (compiled : (compile options source).result = .ok engine) (strict : options.strict = true) :
    engine.schema.KeysApart := by
  obtain ⟨document, -, made⟩ := compile_eq_ok_iff.mp compiled
  obtain ⟨states, -, references, rfl⟩ := ofNode_eq_ok_iff.mp made
  exact Schema.keysApart_of_checkReferences (references strict)

/-- The slots of a transition are the schedule of its event and its target. What the table has under
a key is looked up for each of the six hooks; only the keys that all events or all states share
could have more than the schedule says, and keys that are apart have not. -/
theorem slots_eq_schedule (apart : schema.KeysApart) (event : t.event ≠ "event") :
    (ofSchema options schema states).slots t = schema.schedule t.event t.target := by
  -- under the keys of all events and all states stands what is shared, and nothing else
  have beforeAll := schema.tasks_before "event"
  have afterAll := schema.tasks_after "event"
  have enterAll := schema.tasks_enter "state"
  rw [if_pos rfl, apart.tasksBefore_event, List.append_nil, ← HookKey.beforeEvent_eq] at beforeAll
  rw [if_pos rfl, apart.tasksAfter_event, List.append_nil, ← HookKey.afterEvent_eq] at afterAll
  rw [if_pos rfl, apart.tasksEnter_state, List.append_nil, ← HookKey.enterState_eq] at enterAll
  have before : schema.hookTable.tasks (HookKey.before t.event) = schema.tasksBefore t.event := by
    rw [schema.tasks_before, if_neg event, List.nil_append]
  have after : schema.hookTable.tasks (HookKey.after t.event) = schema.tasksAfter t.event := by
    rw [schema.tasks_after, if_neg event, List.nil_append]
  rw [slots, Transition.hooks_eq, if_neg event, if_neg event, Schema.schedule]
  simp only [hookSlots_append, hookSlots_singleton, Transition.hook, Phase.key, ofSchema, beforeAll,
    before, after, afterAll]
  by_cases target : t.target = "state"
  · -- nothing is declared under the key of such a target but what is shared by all states
    rw [if_pos target, target, apart.tasksEnter_state, ← HookKey.enterState_eq, enterAll]
    simp [hookSlots]
  · rw [if_neg target, hookSlots_singleton, schema.tasks_enter, if_neg target, List.nil_append]
    simp only [enterAll]

end Engine

/-! ## Following a schedule -/

section Follows

variable {τ : Type u} {σ : Type v}

/-- True of a pass that has handed its target to the entity, which has stored or refused it. -/
def Pass.reachesStore (pass : Pass τ σ) : Bool :=
  match pass.result with
  | .ok _ => true
  | .error (.stateRefused _ _) => true
  | .error _ => false

/-- **A pass follows a schedule.** -/
structure Pass.Follows (host : Host τ σ) (schedule : List Slot) (target : String)
    (start : Progress τ σ) (pass : Pass τ σ) : Prop where
  /-- what has run is the beginning of the schedule, in its order -/
  executed : pass.progress.executions.map Execution.slot <+:
    start.executions.map Execution.slot ++ schedule
  /-- if every task of the schedule succeeds, all have run, and the target is committed -/
  finished : ∀ m, Ran host schedule start m →
    pass.progress.executions.map Execution.slot = start.executions.map Execution.slot ++ schedule ∧
    Commits host target m pass.progress pass.result
  /-- if not, the pass ends at the first that is missing or fails, and nothing later has run -/
  stopped : (¬ ∃ m, Ran host schedule start m) →
    ∃ (done later : List Slot) (slot : Slot) (m : Progress τ σ) (error : EngineError),
      schedule = done ++ slot :: later ∧ Ran host done start m ∧
      Halts host slot m pass.progress error ∧ pass.result = .error error
  /-- the entity is given the target exactly if every task succeeds and there is a state to store -/
  stores_iff : pass.reachesStore = true ↔
    ∃ m, Ran host schedule start m ∧ (host.state? m.world).isSome = true

/-- A pass that was halted has not come to its commit. -/
theorem Halts.reachesStore_eq_false {host : Host τ σ} {slot : Slot} {p q : Progress τ σ}
    {error : EngineError} (h : Halts host slot p q error) {pass : Pass τ σ}
    (failed : pass.result = .error error) : pass.reachesStore = false := by
  rw [Pass.reachesStore, failed]
  cases h with
  | notFound _ => rfl
  | failed _ _ => rfl

/-- A commit gives its target to the entity exactly if that shows a state. -/
theorem Commits.reachesStore_iff {host : Host τ σ} {target : String} {p : Progress τ σ}
    {pass : Pass τ σ} (h : Commits host target p pass.progress pass.result) :
    pass.reachesStore = true ↔ (host.state? p.world).isSome = true := by
  obtain ⟨event, q, result⟩ := pass
  cases h with
  | incapable hidden => simp [Pass.reachesStore, hidden]
  | stored shown _ => simp [Pass.reachesStore, shown]
  | refused shown _ => simp [Pass.reachesStore, shown]

/-- The course of a pass is determined: its schedule is run to its end, or it cannot be. In either
case one of the fields `finished` and `stopped` has a premise that is false, and the course itself
gives the other. -/
theorem PassCourse.follows {host : Host τ σ} {slots : List Slot} {event target : String}
    {p : Progress τ σ} {pass : Pass τ σ} (course : PassCourse host slots event target p pass) :
    pass.Follows host slots target p := by
  have executed := course.executions_prefix
  cases course with
  | @committed m _ _ ran commits =>
    refine ⟨executed, fun m' ran' => ?_, fun never => absurd ⟨m, ran⟩ never, ?_⟩
    · obtain rfl := ran.unique ran'
      refine ⟨?_, commits⟩
      rw [commits.executions_eq, ran.executions_eq]
    · rw [Commits.reachesStore_iff commits]
      constructor
      · intro shown
        exact ⟨m, ran, shown⟩
      · rintro ⟨m', ran', shown⟩
        rwa [ran.unique ran']
  | @halted done later slot m _ error split ran halts =>
    -- a run of the whole schedule would come to the slot in the same way, and get past it
    have never : ¬ ∃ m', Ran host slots p m' := by
      rintro ⟨m', all⟩
      rw [split] at all
      obtain ⟨n, first, second⟩ := all.of_append
      obtain rfl := ran.unique first
      exact halts.not_ran second
    refine ⟨executed, fun m' all => absurd ⟨m', all⟩ never, fun _ => ?_, ?_⟩
    · exact ⟨done, later, slot, m, error, split, ran, halts, rfl⟩
    · constructor
      · intro reaches
        cases (halts.reachesStore_eq_false rfl).symm.trans reaches
      · rintro ⟨m', all, _⟩
        exact absurd ⟨m', all⟩ never

end Follows

namespace Engine

variable {τ : Type u} {σ : Type v} {options : EngineOptions} {source event state : String}
  {engine : Engine} {t : Transition}

/-- **The protocol of a pass.** A pass over any transition of a compiled document, regular or not,
follows the schedule of its event and its target, whatever the tasks do to the entity and the
registry. -/
theorem pass_follows_schedule (compiled : (compile options source).result = .ok engine)
    (apart : options.strict = true ∨ engine.schema.KeysApart)
    (found : engine.transitions.get? event state = some t) (host : Host τ σ)
    (registry : Registry τ) (world : σ) :
    (engine.pass host event state registry world).Follows host
      (engine.schema.schedule event t.target) t.target (.init registry world) := by
  have made := eq_ofSchema_of_compile compiled
  have apart : engine.schema.KeysApart := apart.elim (keysApart_of_strict compiled) id
  have course := engine.pass_course host found registry world
  rw [made] at found
  have listed := TransitionTable.mem_of_get?_ofList found
  have slots : (ofSchema options engine.schema engine.states).slots t =
      engine.schema.schedule t.event t.target := slots_eq_schedule apart (apart.event_ne listed)
  rw [← made, (TransitionTable.key_of_get? found).1] at slots
  rw [slots] at course
  exact course.follows

/-- A document with one event that has two tasks. -/
def twoTasks : String :=
  "<Schema><States><new><Events><Go targetState=\"done\"><Task>a</Task><Task>b</Task></Go>" ++
  "</Events></new></States></Schema>"

/-- The second task of the schedule is missing. -/
theorem pass_follows_schedule_to_missing_task :
    let registry : Registry String := ⟨NameMap.empty.insert "a" "a"⟩
    ∃ (engine : Engine) (t : Transition), (compile .default twoTasks).result = .ok engine ∧
      engine.schema.KeysApart ∧ engine.transitions.get? "Go" "new" = some t ∧
      (engine.pass Simulation.host "Go" "new" registry ⟨"new", []⟩).Follows Simulation.host
        (engine.schema.schedule "Go" t.target) t.target (.init registry ⟨"new", []⟩) := by
  intro registry
  obtain ⟨engine, compiled, apart, found⟩ :
      ∃ engine, (compile .default twoTasks).result = .ok engine ∧ engine.schema.KeysApart ∧
        engine.transitions.get? "Go" "new" = some ⟨"Go", "new", "done", none, .regular⟩ :=
    exists_of_compile_any (by decide +kernel)
  exact ⟨engine, _, compiled, apart, found,
    pass_follows_schedule compiled (.inr apart) found Simulation.host registry ⟨"new", []⟩⟩

/-- A pass whose last task takes the entity's state away has run its whole schedule, and yet has
nowhere to store its target. -/
theorem whole_schedule_without_store :
    ∃ engine, (compile .default twoTasks).result = .ok engine ∧
      let registry : Registry ScriptTask := ⟨(NameMap.empty.insert "a" ⟨0, ⟨"a", []⟩⟩).insert "b"
        ⟨1, ⟨"b", [.capable false]⟩⟩⟩
      let pass := engine.pass (Script.host engine 1) "Go" "new" registry
        ⟨⟨"new", true, none, false⟩, #[0, 0], [], false⟩
      engine.schema.KeysApart ∧
      engine.transitions.get? "Go" "new" = some ⟨"Go", "new", "done", none, .regular⟩ ∧
      pass.progress.executions.map Execution.slot = engine.schema.schedule "Go" "done" ∧
      pass.result = .error .missingCapability ∧ pass.reachesStore = false :=
  exists_of_compile_any (by decide +kernel)

end Engine

end StateMarkup
