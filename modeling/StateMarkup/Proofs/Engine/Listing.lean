import StateMarkup.Proofs.Declarations
import StateMarkup.Proofs.Engine.Compiled
import StateMarkup.Simulation

/-!
# Which events are listed

For a state there is a list of events, read off the listing of all transitions, and there is the
question whether the entity can be fired with an event, which looks up the one transition that
counts. Whatever can be fired is listed. The other way round an event may be listed and hidden from
the look-up by the answer to failures of a later event, and `listed_iff_can_iff` says that nothing
else parts the two.
-/

namespace StateMarkup

universe u v

namespace TransitionTable

/-- What is listed for a state is read off its regular transitions. -/
theorem mem_eventsFrom_iff {table : TransitionTable} {event source : String} :
    event ∈ table.eventsFrom source ↔
      ∃ t ∈ table.toList, t.source = source ∧ t.kind = .regular ∧ t.event = event := by
  simp only [eventsFrom, List.mem_map, List.mem_filter, Bool.and_eq_true, beq_iff_eq,
    Bool.not_eq_true', Transition.isFallback_eq_false_iff, and_assoc]

end TransitionTable

/-- The answer to failures of the event has the name. -/
def Event.AnswersAs (declared : Event) (name : String) : Prop :=
  declared.errorState.isSome = true ∧ fallbackEvent declared.name = name

/-- **An event that is not hidden**: no event behind its last declaration has an answer of its
name. -/
def NotHidden (events : List Event) (event : String) : Prop :=
  ∀ c post, LastOf (·.name = event) events c post → ¬ ∃ a ∈ post, a.AnswersAs event

namespace Schema

variable {schema : Schema} {event state : String}

/-- The events of a state, by its name: several nodes may declare one state. -/
theorem mem_eventsIn_iff {declared : Event} :
    declared ∈ schema.eventsIn state ↔
      ∃ owner, (owner, declared) ∈ schema.events ∧ owner.name = state := by
  simp [eventsIn]

/-- The listed events of a state are those that are declared in it. The listing has all that was
ever inserted, so nothing is hidden there. -/
theorem mem_eventsFrom_iff :
    event ∈ schema.transitionTable.eventsFrom state ↔
      ∃ declared ∈ schema.eventsIn state, declared.name = event := by
  rw [TransitionTable.mem_eventsFrom_iff, transitionTable, TransitionTable.toList_ofList]
  constructor
  · rintro ⟨t, ht, rfl, regular, rfl⟩
    obtain ⟨⟨owner, declared⟩, hdeclared, ht⟩ := mem_transitions_iff.mp ht
    rcases Event.mem_transitions_iff.mp ht with rfl | ⟨_, _, rfl⟩
    · exact ⟨declared, mem_eventsIn_iff.mpr ⟨owner, hdeclared, rfl⟩, rfl⟩
    · cases regular
  · rintro ⟨declared, hdeclared, rfl⟩
    obtain ⟨owner, hevents, rfl⟩ := mem_eventsIn_iff.mp hdeclared
    have own := @Event.mem_transitions_iff declared owner.name _ |>.mpr (.inl rfl)
    exact ⟨_, mem_transitions_iff.mpr ⟨(owner, declared), hevents, own⟩, rfl, rfl, rfl⟩

/-- An event can be fired in a state if it is declared there, and its last declaration is not hidden
by the answer to failures of a later event. -/
theorem isSome_admissible?_iff :
    (schema.transitionTable.admissible? event state).isSome = true ↔
      ∃ c post, LastOf (·.name = event) (schema.eventsIn state) c post ∧
        ¬ ∃ a ∈ post, a.AnswersAs event := by
  simp only [Option.isSome_iff_exists, TransitionTable.admissible?_eq_some_iff,
    get?_transitionTable_eq_some_iff]
  constructor
  · rintro ⟨t, ⟨c, post, last, ht, named⟩, regular⟩
    rcases Event.mem_transitions_iff.mp ht with rfl | ⟨_, _, rfl⟩
    · refine ⟨c, post, last.of_not_after named fun a ha own => last.not_after a ha (.inl own), ?_⟩
      rintro ⟨a, ha, answers⟩
      exact last.not_after a ha (.inr answers)
    · cases regular
  · rintro ⟨c, post, last, visible⟩
    have after : ∀ a ∈ post, ¬ a.Writes event := by
      rintro a ha (own | answers)
      · exact last.not_after a ha own
      · exact visible ⟨a, ha, answers⟩
    exact ⟨_, ⟨c, post, last.of_not_after (.inl last.holds) after,
      Event.mem_transitions_iff.mpr (.inl rfl), last.holds⟩, rfl⟩

/-- What can be fired is listed. -/
theorem mem_eventsFrom_of_admissible?
    (admissible : (schema.transitionTable.admissible? event state).isSome = true) :
    event ∈ schema.transitionTable.eventsFrom state := by
  obtain ⟨c, post, last, -⟩ := isSome_admissible?_iff.mp admissible
  exact mem_eventsFrom_iff.mpr ⟨c, last.mem, last.holds⟩

/-- The listing and the look-up agree on an event exactly if it is not hidden. -/
theorem mem_eventsFrom_iff_admissible?_iff :
    (event ∈ schema.transitionTable.eventsFrom state ↔
        (schema.transitionTable.admissible? event state).isSome = true) ↔
      NotHidden (schema.eventsIn state) event := by
  rw [mem_eventsFrom_iff, isSome_admissible?_iff]
  constructor
  · intro agree c post last
    obtain ⟨c', post', last', visible⟩ := agree.mp ⟨c, last.mem, last.holds⟩
    obtain ⟨-, rfl⟩ := last.unique last'
    exact visible
  · intro notHidden
    constructor
    · rintro ⟨declared, hdeclared, named⟩
      obtain ⟨c, post, last⟩ := LastOf.exists_of_mem (p := (·.name = event)) hdeclared named
      exact ⟨c, post, last, notHidden c post last⟩
    · rintro ⟨c, post, last, -⟩
      exact ⟨c, last.mem, last.holds⟩

end Schema

namespace Engine

variable {τ : Type u} {σ : Type v} {host : Host τ σ} {world : σ} {options : EngineOptions}
  {source state : String} {engine : Engine}

/-- **Events are listed if they can be fired**, and only then, exactly as long as they are not
hidden: whatever an entity can be fired with in its state is listed there, and what is listed
besides are the events whose last declaration stands before an event with an answer of their
name. -/
theorem listed_iff_can_iff (compiled : (compile options source).result = .ok engine)
    (shown : host.state? world = some state) (event : String) :
    (engine.can host event world = true → event ∈ engine.transitions.eventsFrom state) ∧
    ((event ∈ engine.transitions.eventsFrom state ↔ engine.can host event world = true) ↔
      NotHidden (engine.schema.eventsIn state) event) := by
  have table : engine.transitions = engine.schema.transitionTable := by
    rw [eq_ofSchema_of_compile compiled]
    rfl
  simp only [can, shown, table]
  exact ⟨Schema.mem_eventsFrom_of_admissible?, Schema.mem_eventsFrom_iff_admissible?_iff⟩

/-- An event with an error state, and behind it one that has the name of its answer: both are
listed, and both can be fired. -/
theorem listed_iff_can_iff_of_two :
    let source := "<Schema><States><a><Events><Go targetState=\"b\" errorState=\"b\"></Go>" ++
      "<Go_failed targetState=\"b\"></Go_failed></Events></a><b></b></States></Schema>"
    ∃ engine, (compile ⟨false, true⟩ source).result = .ok engine ∧
      engine.can Simulation.host "Go_failed" ⟨"a", []⟩ = true ∧
      Simulation.host.state? ⟨"a", []⟩ = some "a" ∧
      "Go_failed" ∈ engine.transitions.eventsFrom "a" ∧
      NotHidden (engine.schema.eventsIn "a") "Go_failed" := by
  intro source
  have compiles : ∃ engine, (compile ⟨false, true⟩ source).result = .ok engine ∧
      engine.can Simulation.host "Go_failed" ⟨"a", []⟩ = true := exists_of_compile_any
        (by decide +kernel)
  obtain ⟨engine, compiled, can⟩ := compiles
  have shown : Simulation.host.state? ⟨"a", []⟩ = some "a" := rfl
  obtain ⟨listed, agree⟩ := listed_iff_can_iff compiled shown "Go_failed"
  exact ⟨engine, compiled, can, shown, listed can, agree.mp (iff_of_true (listed can) can)⟩

/-- The same two events the other way round: the answer hides the event of its name, which is listed
still and cannot be fired. -/
theorem listed_without_can :
    let source := "<Schema><States><a><Events><Go_failed targetState=\"b\"></Go_failed>" ++
      "<Go targetState=\"b\" errorState=\"b\"></Go></Events></a><b></b></States></Schema>"
    ∃ engine, (compile ⟨true, true⟩ source).result = .ok engine ∧
      "Go_failed" ∈ engine.transitions.eventsFrom "a" ∧
      engine.can Simulation.host "Go_failed" ⟨"a", []⟩ = false :=
  exists_of_compile_any (by decide +kernel)

end Engine

end StateMarkup
