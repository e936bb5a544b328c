import StateMarkup.Proofs.Declarations
import StateMarkup.Proofs.Engine.Answer

/-!
# Whose failures are answered

The regular transition of an event and the one that answers its failures are looked up apart, so
they need not come from one declaration: a later event may hide the one and not the other.
`FallbackKept` is what a document has to look like for both to go together, and
`Schema.hasFallback_agrees_iff` says that nothing less is enough.
-/

namespace StateMarkup

universe u v

/-- A declaration of the event that has an error state. -/
def Event.Answers (declared : Event) (event : String) : Prop :=
  declared.name = event ∧ declared.errorState.isSome = true

/-- **Fallbacks go with their events.** After the last declaration of the event that has an error
state there is another declaration of the event exactly if there is an event with the name of the
answer: either both transitions of the declaration are hidden or none is. -/
def FallbackKept (events : List Event) (event : String) : Prop :=
  ∀ c post, LastOf (·.Answers event) events c post →
    ((∃ a ∈ post, a.name = fallbackEvent event) ↔ ∃ a ∈ post, a.name = event)

/-- Two sorts of declarations write under the name of an answer: events that are called so, and
those that have the answer. -/
theorem Event.writes_fallbackEvent_iff {declared : Event} {event : String} :
    declared.Writes (fallbackEvent event) ↔
      declared.name = fallbackEvent event ∨ declared.Answers event := by
  rw [Writes, fallbackEvent_inj, Answers, and_comm (a := declared.name = event)]

section Last

variable {events rest post : List Event} {event : String} {d c : Event}

/-- A last declaration that has an error state is the last that has one. -/
theorem lastOf_answers (last : LastOf (·.name = event) events d rest) (answers : d.Answers event) :
    LastOf (·.Answers event) events d rest :=
  last.of_not_after answers fun a ha later => last.not_after a ha later.1

/-- If the last declaration with an error state is followed by another, that one has none. -/
theorem errorState_eq_none_of_again (last : LastOf (·.name = event) events d rest)
    (answer : LastOf (·.Answers event) events c post) (again : ∃ a ∈ post, a.name = event) :
    d.errorState = none := by
  rw [Option.eq_none_iff_forall_ne_some]
  intro own declared
  obtain ⟨-, rfl⟩ := answer.unique
    (lastOf_answers last ⟨last.holds, Option.isSome_iff_exists.mpr ⟨own, declared⟩⟩)
  obtain ⟨a, ha, named⟩ := again
  exact last.not_after a ha named

/-- If it is not, it is the last declaration. -/
theorem eq_of_not_again (last : LastOf (·.name = event) events d rest)
    (answer : LastOf (·.Answers event) events c post) (once : ¬ ∃ a ∈ post, a.name = event) :
    d = c := by
  have after : ∀ a ∈ post, ¬ a.name = event := fun a ha named => once ⟨a, ha, named⟩
  exact (last.unique (answer.of_not_after answer.holds.1 after)).1

end Last

namespace Schema

variable {schema : Schema} {event state target : String} {t : Transition}

/-- There is an answer to failures of the event in the state, and it leads to the target. -/
def HasFallback (schema : Schema) (event state target : String) : Prop :=
  ∃ f, schema.transitionTable.get? (fallbackEvent event) state = some f ∧ f.kind = .fallback ∧
    f.target = target

instance : Decidable (schema.HasFallback event state target) :=
  decidable_of_iff (((schema.transitionTable.get? (fallbackEvent event) state).any fun f =>
      f.kind == .fallback && f.target == target) = true)
    (by simp [HasFallback, Option.any_eq_true])

/-- What may be fired is the transition of the last declaration of the event. Had an answer of its
name been written later, the look-up would find that, and it is not a regular transition. -/
theorem exists_lastOf_of_admissible
    (admissible : schema.transitionTable.admissible? event state = some t) :
    ∃ d post, LastOf (·.name = event) (schema.eventsIn state) d post ∧
      t.errorState = d.errorState := by
  obtain ⟨found, regular⟩ := TransitionTable.admissible?_eq_some_iff.mp admissible
  obtain ⟨d, post, last, ht, named⟩ := get?_transitionTable_eq_some_iff.mp found
  rcases Event.mem_transitions_iff.mp ht with rfl | ⟨_, _, rfl⟩
  · exact ⟨d, post, last.of_not_after named fun a ha own => last.not_after a ha (.inl own), rfl⟩
  · cases regular

/-- An answer comes from the last declaration with an error state, if no later event takes its
name. -/
theorem hasFallback_iff :
    schema.HasFallback event state target ↔
      ∃ c post, LastOf (·.Answers event) (schema.eventsIn state) c post ∧
        c.errorState = some target ∧ ¬ ∃ a ∈ post, a.name = fallbackEvent event := by
  simp only [HasFallback, get?_transitionTable_eq_some_iff]
  constructor
  · rintro ⟨f, ⟨c, post, last, hf, named⟩, kind, rfl⟩
    rcases Event.mem_transitions_iff.mp hf with rfl | ⟨x, answered, rfl⟩
    · cases kind
    · have answers : c.Answers event :=
        ⟨fallbackEvent_inj.mp named, Option.isSome_iff_exists.mpr ⟨x, answered⟩⟩
      -- what stands behind it writes nothing under the name, in neither of the two ways
      have after : ∀ a ∈ post, ¬ a.Answers event := fun a ha later =>
        last.not_after a ha (Event.writes_fallbackEvent_iff.mpr (.inr later))
      refine ⟨c, post, last.of_not_after answers after, answered, ?_⟩
      rintro ⟨a, ha, hides⟩
      exact last.not_after a ha (.inl hides)
  · rintro ⟨c, post, last, answered, visible⟩
    obtain ⟨named, _⟩ := last.holds
    have after : ∀ a ∈ post, ¬ a.Writes (fallbackEvent event) := by
      intro a ha writes
      rcases Event.writes_fallbackEvent_iff.mp writes with hides | answers
      · exact visible ⟨a, ha, hides⟩
      · exact last.not_after a ha answers
    refine ⟨⟨fallbackEvent c.name, state, target, none, .fallback⟩, ⟨c, post, ?_, ?_, ?_⟩, rfl, rfl⟩
    · exact last.of_not_after (Event.writes_fallbackEvent_iff.mpr (.inr last.holds)) after
    · exact Event.mem_transitions_iff.mpr (.inr ⟨target, answered, rfl⟩)
    · rw [named]

/-- A declaration that counts and has an error state has no other answer. -/
theorem target_eq_of_hasFallback
    (admissible : schema.transitionTable.admissible? event state = some t) {own : String}
    (declared : t.errorState = some own) (h : schema.HasFallback event state target) :
    target = own := by
  obtain ⟨d, _, last, same⟩ := exists_lastOf_of_admissible admissible
  obtain ⟨c, _, answer, answered, _⟩ := hasFallback_iff.mp h
  rw [same] at declared
  have answers : d.Answers event := ⟨last.holds, Option.isSome_iff_exists.mpr ⟨own, declared⟩⟩
  obtain ⟨rfl, -⟩ := answer.unique (lastOf_answers last answers)
  exact Option.some.inj (answered.symm.trans declared)

/-- Where no declaration of an event has an error state, nothing can drift apart. -/
theorem fallbackKept_of_none {events : List Event} (none : ¬ ∃ a ∈ events, a.Answers event) :
    FallbackKept events event :=
  fun c _ answer => absurd ⟨c, answer.mem, answer.holds⟩ none

/-- **Which failures are answered.** The transition of an event and the answer to its failures agree
exactly if both come from one declaration.

Both are said by the last declaration of some kind: the transition by the last one of the event, the
answer by the last one with an error state, if no event takes its name behind that. The cases are
whether each of these two is followed by what would hide it. -/
theorem hasFallback_agrees_iff
    (admissible : schema.transitionTable.admissible? event state = some t) :
    (∀ target, schema.HasFallback event state target ↔ t.errorState = some target) ↔
      FallbackKept (schema.eventsIn state) event := by
  obtain ⟨d, rest, last, same⟩ := exists_lastOf_of_admissible admissible
  rw [same]
  by_cases answered : ∃ a ∈ schema.eventsIn state, a.Answers event
  · obtain ⟨a, ha, answers⟩ := answered
    obtain ⟨c, post, answer⟩ : ∃ c post, LastOf (·.Answers event) (schema.eventsIn state) c post :=
      LastOf.exists_of_mem ha answers
    obtain ⟨own, hown⟩ := Option.isSome_iff_exists.mp answer.holds.2
    have kept : FallbackKept (schema.eventsIn state) event ↔
        ((∃ a ∈ post, a.name = fallbackEvent event) ↔ ∃ a ∈ post, a.name = event) := by
      refine ⟨fun h => h c post answer, fun h c' post' answer' => ?_⟩
      obtain ⟨-, rfl⟩ := answer.unique answer'
      exact h
    have fallback : ∀ target, schema.HasFallback event state target ↔
        own = target ∧ ¬ ∃ a ∈ post, a.name = fallbackEvent event := by
      intro target
      rw [hasFallback_iff]
      constructor
      · rintro ⟨c', post', answer', target', visible⟩
        obtain ⟨rfl, rfl⟩ := answer.unique answer'
        exact ⟨Option.some.inj (hown.symm.trans target'), visible⟩
      · rintro ⟨rfl, visible⟩
        exact ⟨c, post, answer, hown, visible⟩
    rw [kept]
    simp only [fallback]
    by_cases again : ∃ a ∈ post, a.name = event
    · -- the declaration that counts comes later, so the answer has to be hidden
      rw [errorState_eq_none_of_again last answer again]
      simp [again]
    · -- it is the declaration that has the error state, so the answer has to be visible
      rw [eq_of_not_again last answer again, hown]
      simp [again]
  · have none : d.errorState = none := by
      rw [Option.eq_none_iff_forall_ne_some]
      intro own declared
      exact answered ⟨d, last.mem, last.holds, Option.isSome_iff_exists.mpr ⟨own, declared⟩⟩
    refine iff_of_true (fun target => ?_) (fallbackKept_of_none answered)
    rw [none]
    refine iff_of_false (fun h => ?_) nofun
    obtain ⟨c, _, answer, _⟩ := hasFallback_iff.mp h
    exact answered ⟨c, answer.mem, answer.holds⟩

end Schema

namespace Engine

variable {τ : Type u} {σ : Type v} {host : Host τ σ} {event state : String} {registry : Registry τ}
  {world : σ}

/-- The passes that an event with failing hooks comes to: one, and a second if there is an
answer. -/
theorem passes_of_isHookFailure {engine : Engine} {t : Transition} {cause : EngineError}
    (admissible : engine.transitions.admissible? event state = some t)
    (on : engine.options.fallback = true) (shown : host.state? world = some state)
    (failed : (engine.pass host event state registry world).result = .error cause)
    (hook : cause.isHookFailure = true) :
    (engine.apply host event registry world).passes =
      if (engine.fallback? event state).isSome then
        [engine.pass host event state registry world,
          engine.secondPass host event state (engine.pass host event state registry world)]
      else [engine.pass host event state registry world] := by
  have answer := apply_answer registry shown admissible
  generalize engine.apply host event registry world = applied at answer
  cases answer with
  | moved ok => cases failed.symm.trans ok
  | broken failed' unanswered =>
    cases failed.symm.trans failed'
    rw [hook, on] at unanswered
    cases unanswered
  | aborted _ _ fallback => rw [fallback]; rfl
  | fellBack _ _ fallback again _ => rw [fallback, again]; rfl
  | failedAgain _ _ fallback again _ => rw [fallback, again]; rfl

variable (engine : Engine) (host event state registry world)

/-- The failure of an event's hooks is answered as its declaration says: by a second pass into the
error state, or by none if there is no error state. -/
def AnswersAsDeclared (errorState : Option String) : Prop :=
  let first := engine.pass host event state registry world
  let second := engine.secondPass host event state first
  match errorState with
  | some target =>
    (engine.apply host event registry world).passes = [first, second] ∧
      ∃ slots, PassCourse host slots (fallbackEvent event) target
        (.init first.progress.registry first.progress.world) second
  | none => (engine.apply host event registry world).passes = [first]

variable {host event state registry world} {schema : Schema} {options : EngineOptions}
  {states : NameSet} {t : Transition}

/-- What answers in an engine is what the table of its schema has as an answer. -/
theorem hasFallback_iff_fallback? {target : String} :
    schema.HasFallback event state target ↔
      ∃ f, (ofSchema options schema states).fallback? event state = some f ∧ f.target = target := by
  simp only [Schema.HasFallback, fallback?_eq_some_iff, and_assoc, ofSchema]

/-- **Failures are answered as declared** exactly if the fallback of the event is kept: so it is in
the transition table, and so it is whenever hooks fail in an engine that answers failures. -/
theorem answersAsDeclared_iff
    (admissible : schema.transitionTable.admissible? event state = some t) :
    ((∀ target, schema.HasFallback event state target ↔ t.errorState = some target) ↔
      FallbackKept (schema.eventsIn state) event) ∧
    ∀ (options : EngineOptions) (states : NameSet) (host : Host τ σ) (registry : Registry τ)
      (world : σ) (cause : EngineError), options.fallback = true →
      host.state? world = some state →
      ((ofSchema options schema states).pass host event state registry world).result =
        .error cause →
      cause.isHookFailure = true →
      ((ofSchema options schema states).AnswersAsDeclared host event state registry world
          t.errorState ↔
        FallbackKept (schema.eventsIn state) event) := by
  refine ⟨schema.hasFallback_agrees_iff admissible, ?_⟩
  intro options states host registry world cause on shown failed hook
  have passes := passes_of_isHookFailure admissible on shown failed hook
  -- both sides now say whether there is an answer exactly if there is an error state
  rw [← schema.hasFallback_agrees_iff admissible]
  simp only [AnswersAsDeclared, passes]
  rcases declared : t.errorState with _ | own
  · rcases fallback : (ofSchema options schema states).fallback? event state with _ | f
    · refine iff_of_true rfl fun target => iff_of_false ?_ nofun
      rintro h
      obtain ⟨f, found, -⟩ := hasFallback_iff_fallback?.mp h
      cases fallback.symm.trans found
    · refine iff_of_false nofun fun h => ?_
      cases (h f.target).mp (hasFallback_iff_fallback?.mpr ⟨f, fallback, rfl⟩)
  · rcases fallback : (ofSchema options schema states).fallback? event state with _ | f
    · refine iff_of_false (fun h => nomatch h.1) fun h => ?_
      obtain ⟨f, found, -⟩ := hasFallback_iff_fallback?.mp ((h own).mpr rfl)
      cases fallback.symm.trans found
    · have own_target : schema.HasFallback event state f.target :=
        hasFallback_iff_fallback?.mpr ⟨f, fallback, rfl⟩
      obtain rfl := Schema.target_eq_of_hasFallback admissible declared own_target
      refine iff_of_true ⟨rfl, _, secondPass_course host fallback _⟩ fun target => ?_
      constructor
      · intro h
        rw [Schema.target_eq_of_hasFallback admissible declared h]
      · rintro ⟨⟩
        exact own_target

/-- An event that is declared once, in a simulation where its task is missing. -/
theorem answersAsDeclared_once :
    let schema : Schema := ⟨.none, [⟨"new", .none, [⟨"Go", "done", some "failed", ["t"]⟩]⟩]⟩
    let engine := ofSchema .default schema .empty
    let kept := FallbackKept (schema.eventsIn "new") "Go"
    schema.transitionTable.admissible? "Go" "new" =
      some ⟨"Go", "new", "done", some "failed", .regular⟩ ∧
    Simulation.host.state? ⟨"new", []⟩ = some "new" ∧
    (engine.pass Simulation.host "Go" "new" ⟨.empty⟩ ⟨"new", []⟩).result =
      .error (.taskNotFound "t" "before_Go") ∧
    ((∀ target, schema.HasFallback "Go" "new" target ↔ some "failed" = some target) ↔ kept) ∧
    (engine.AnswersAsDeclared Simulation.host "Go" "new" ⟨.empty⟩ ⟨"new", []⟩ (some "failed") ↔
      kept) := by
  intro schema engine kept
  have admissible : schema.transitionTable.admissible? "Go" "new" =
      some ⟨"Go", "new", "done", some "failed", .regular⟩ := by decide +kernel
  have failed : (engine.pass Simulation.host "Go" "new" ⟨.empty⟩ ⟨"new", []⟩).result =
      .error (.taskNotFound "t" "before_Go") := by decide +kernel
  obtain ⟨table, runs⟩ := answersAsDeclared_iff admissible
  exact ⟨admissible, rfl, failed, table,
    runs .default .empty Simulation.host ⟨.empty⟩ ⟨"new", []⟩ _ rfl rfl failed rfl⟩

/-- Fallbacks part from their events in two ways: an event named like the answer hides it, and an
event that is declared again without an error state does not. -/
theorem fallbacks_drift :
    let hidden : Schema := ⟨.none, [⟨"new", .none,
      [⟨"Go", "done", some "failed", ["t"]⟩, ⟨"Go_failed", "done", none, []⟩]⟩]⟩
    let again : Schema := ⟨.none, [⟨"new", .none,
      [⟨"Go", "done", some "failed", []⟩, ⟨"Go", "done", none, ["t"]⟩]⟩]⟩
    (hidden.transitionTable.admissible? "Go" "new" =
        some ⟨"Go", "new", "done", some "failed", .regular⟩ ∧
      ¬ hidden.HasFallback "Go" "new" "failed" ∧
      ((ofSchema .default hidden .empty).apply Simulation.host "Go" ⟨.empty⟩ ⟨"new", []⟩).result =
        .error (.taskNotFound "t" "before_Go")) ∧
    again.transitionTable.admissible? "Go" "new" = some ⟨"Go", "new", "done", none, .regular⟩ ∧
      again.HasFallback "Go" "new" "failed" ∧
      ((ofSchema .default again .empty).apply Simulation.host "Go" ⟨.empty⟩ ⟨"new", []⟩).result =
        .ok ⟨"Go", "new", "failed", true, some (.taskNotFound "t" "before_Go")⟩ :=
  ⟨by decide +kernel, by decide +kernel⟩

end Engine

end StateMarkup
