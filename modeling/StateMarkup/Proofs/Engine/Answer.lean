import StateMarkup.Proofs.Engine.Entity
import StateMarkup.Proofs.TransitionTable

/-!
# What firing an event comes to

`Engine.Answer` lists all that an event that may be fired can come to, each with what led there, and
`Engine.apply_answer` says that nothing else happens; what is proved of `Engine.apply` is proved by
cases of it. The main statement here is `Engine.apply_reports`: the outcome of an event tells the
truth about the entity and about the transition that was made.
-/

namespace StateMarkup

universe u v

variable {τ : Type u} {σ : Type v}

/-- The failures of hooks are two: a task that is missing and a task that fails. -/
theorem EngineError.isHookFailure_iff {error : EngineError} :
    error.isHookFailure = true ↔
      (∃ task hook, error = .taskNotFound task hook) ∨
        ∃ task hook cause, error = .taskFailed task hook cause := by
  cases error <;> simp [isHookFailure]

namespace Engine

/-- What answers a failure of hooks is what is found for the name of the answer, if it is there for
failures. -/
theorem fallback?_eq_some_iff {engine : Engine} {event source : String} {t : Transition} :
    engine.fallback? event source = some t ↔
      engine.transitions.get? (fallbackEvent event) source = some t ∧ t.kind = .fallback := by
  rw [fallback?, Option.filter_eq_some_iff, Transition.isFallback_iff]

variable (engine : Engine) (host : Host τ σ) (event : String)

/-- The pass that answers the failure of a first one: it starts in what that one has left, and from
the state where that one has started. -/
def secondPass (source : String) (first : Pass τ σ) : Pass τ σ :=
  engine.pass host (fallbackEvent event) source first.progress.registry first.progress.world

/-- **All that an event that may be fired can come to**, after its first pass. -/
inductive Answer (source : String) (first : Pass τ σ) : Applied τ σ → Prop where
  /-- the first pass succeeds -/
  | moved {target : String} :
      first.result = .ok target →
      Answer source first ⟨first.progress.registry, first.progress.world,
        first.progress.log ++ [.moved event source target], [first],
        .ok ⟨event, source, target, false, none⟩⟩
  /-- it is not the hooks that fail, or failures are not to be answered -/
  | broken {cause : EngineError} :
      first.result = .error cause →
      (cause.isHookFailure && engine.options.fallback) = false →
      Answer source first ⟨first.progress.registry, first.progress.world, first.progress.log,
        [first], .error cause⟩
  /-- hooks fail and the event has no error state -/
  | aborted {cause : EngineError} :
      first.result = .error cause →
      (cause.isHookFailure && engine.options.fallback) = true →
      engine.fallback? event source = none →
      Answer source first ⟨first.progress.registry, first.progress.world,
        first.progress.log ++ [.aborted event source cause], [first], .error cause⟩
  /-- hooks fail and a second pass goes to the error state -/
  | fellBack {cause : EngineError} {f : Transition} {second : Pass τ σ} {target : String} :
      first.result = .error cause →
      (cause.isHookFailure && engine.options.fallback) = true →
      engine.fallback? event source = some f →
      engine.secondPass host event source first = second →
      second.result = .ok target →
      Answer source first ⟨second.progress.registry, second.progress.world,
        first.progress.log ++ .fallingBack event source cause :: second.progress.log ++
          [.moved (fallbackEvent event) source target], [first, second],
        .ok ⟨event, source, target, true, some cause⟩⟩
  /-- hooks fail and the second pass fails too -/
  | failedAgain {cause error : EngineError} {f : Transition} {second : Pass τ σ} :
      first.result = .error cause →
      (cause.isHookFailure && engine.options.fallback) = true →
      engine.fallback? event source = some f →
      engine.secondPass host event source first = second →
      second.result = .error error →
      Answer source first ⟨second.progress.registry, second.progress.world,
        first.progress.log ++ .fallingBack event source cause :: second.progress.log ++
          [.fallbackFailed (fallbackEvent event) error], [first, second], .error cause⟩

variable {engine host event} {registry : Registry τ} {world : σ} {source : String}

/-- An entity that shows no state is left alone. -/
theorem apply_of_hidden (hidden : host.state? world = none) :
    engine.apply host event registry world =
      ⟨registry, world, [], [], .error .missingCapability⟩ := by
  rw [apply, hidden]

/-- An event that may not be fired is not fired. -/
theorem apply_of_inadmissible (shown : host.state? world = some source)
    (absent : engine.transitions.admissible? event source = none) :
    engine.apply host event registry world =
      ⟨registry, world, [], [], .error (.notAdmissible event source)⟩ := by
  simp only [apply, shown, absent]

/-- The second pass is one over the transition that is there for failures. -/
theorem secondPass_course {f : Transition} (host : Host τ σ)
    (fallback : engine.fallback? event source = some f) (first : Pass τ σ) :
    PassCourse host (engine.slots f) (fallbackEvent event) f.target
      (.init first.progress.registry first.progress.world)
      (engine.secondPass host event source first) :=
  engine.pass_course host (fallback?_eq_some_iff.mp fallback).1 _ _

/-- **What becomes of an event that may be fired.** The cases are those of the function: whether the
first pass fails, whether by its hooks, whether there is an answer and whether that fails. All that
is proved of firing events goes by cases on `Engine.Answer` and not on the function. -/
theorem apply_answer {t : Transition} (registry : Registry τ)
    (shown : host.state? world = some source)
    (admissible : engine.transitions.admissible? event source = some t) :
    Answer engine host event source (engine.pass host event source registry world)
      (engine.apply host event registry world) := by
  simp only [apply, shown, admissible]
  rcases result : (engine.pass host event source registry world).result with cause | target
  · simp only
    split
    · rename_i answered
      rw [fallBack]
      rcases fallback : engine.fallback? event source with _ | f
      · exact .aborted result answered fallback
      · rcases again : (engine.secondPass host event source
          (engine.pass host event source registry world)).result with error | target
        · rw [secondPass] at again
          simp only [again]
          exact .failedAgain result answered fallback rfl again
        · rw [secondPass] at again
          simp only [again]
          exact .fellBack result answered fallback rfl again
    · rename_i unanswered
      exact .broken result (Bool.eq_false_iff.mpr unanswered)
  · exact .moved result

namespace Answer

variable {first : Pass τ σ} {applied : Applied τ σ}

/-- An event that fails tells the failure of its first pass, also if the answer has failed behind
it. -/
theorem first_failed (answer : Answer engine host event source first applied) {error : EngineError}
    (failed : applied.result = .error error) : first.result = .error error := by
  cases answer with
  | moved _ => cases failed
  | broken result _ =>
    cases failed
    exact result
  | aborted result _ _ =>
    cases failed
    exact result
  | fellBack _ _ _ _ _ => cases failed
  | failedAgain result _ _ _ _ =>
    cases failed
    exact result

/-- There is the first pass, and no other but the one that answers its failure. -/
theorem passes_eq (answer : Answer engine host event source first applied) :
    applied.passes = [first] ∨
      (∃ f, engine.fallback? event source = some f) ∧
        applied.passes = [first, engine.secondPass host event source first] := by
  cases answer with
  | moved _ => exact .inl rfl
  | broken _ _ => exact .inl rfl
  | aborted _ _ _ => exact .inl rfl
  | fellBack _ _ fallback again _ => exact .inr ⟨⟨_, fallback⟩, by rw [again]⟩
  | failedAgain _ _ fallback again _ => exact .inr ⟨⟨_, fallback⟩, by rw [again]⟩

/-- What holds of the first pass, and of a second one over a transition that is there for failures,
holds of all passes. -/
theorem forall_passes (answer : Answer engine host event source first applied)
    {p : Pass τ σ → Prop} (holds : p first)
    (second : ∀ f, engine.fallback? event source = some f →
      p (engine.secondPass host event source first)) : ∀ pass ∈ applied.passes, p pass := by
  rcases answer.passes_eq with one | ⟨⟨f, fallback⟩, two⟩
  · rw [one]
    exact List.forall_mem_singleton.mpr holds
  · rw [two]
    exact List.forall_mem_cons.mpr ⟨holds, List.forall_mem_singleton.mpr (second f fallback)⟩

end Answer

/-! ## Reports -/

variable (engine host event registry world)

/-- **A truthful report** of an event that is fired while the entity is in the state `source`. -/
structure Reports (stateName : σ → String) (source : String) (applied : Applied τ σ) : Prop where
  /-- there are at most two passes, and the second only answers a failure of hooks in the first -/
  passes :
    applied.passes = [] ∨
    applied.passes = [engine.pass host event source registry world] ∨
    applied.passes = [engine.pass host event source registry world,
        engine.secondPass host event source (engine.pass host event source registry world)] ∧
      engine.options.fallback = true ∧
      ∃ failure, (engine.pass host event source registry world).result = .error failure ∧
        failure.isHookFailure = true
  /-- an outcome names the event that was asked for and the state it was fired in, and the entity is
  in the state that it says -/
  names : ∀ outcome, applied.result = .ok outcome →
    outcome.event = event ∧ outcome.source = source ∧ stateName applied.world = outcome.target
  /-- an event that did not fall back has no failure to tell and went to its own target -/
  moved : ∀ outcome, applied.result = .ok outcome → outcome.fellBack = false →
    outcome.cause = none ∧ ∃ t, engine.transitions.get? event source = some t ∧
      t.kind = .regular ∧ outcome.target = t.target
  /-- an event that fell back tells the failure of a task in the first pass, and went to the target
  of the transition that is there for failures -/
  fellBack : ∀ outcome, applied.result = .ok outcome → outcome.fellBack = true →
    engine.options.fallback = true ∧
    (∃ failure, (engine.pass host event source registry world).result = .error failure ∧
      ((∃ task hook, failure = .taskNotFound task hook) ∨
        ∃ task hook cause, failure = .taskFailed task hook cause) ∧
      outcome.cause = some failure ∧
      outcome.cause.map EngineError.message = some failure.message) ∧
    ∃ f, engine.transitions.get? (fallbackEvent event) source = some f ∧ f.kind = .fallback ∧
      outcome.target = f.target
  /-- an event that may be fired and was not fired tells the failure of the first pass -/
  failure : ∀ error, applied.result = .error error →
    (engine.transitions.admissible? event source).isSome = true →
    (engine.pass host event source registry world).result = .error error

variable {engine host event registry world}

/-- An error has no outcome to tell the truth about. What remains to be shown is which passes there
were. -/
theorem Reports.of_error {stateName : σ → String} {source : String} {applied : Applied τ σ}
    {error : EngineError} (result : applied.result = .error error)
    (passes : applied.passes = [] ∨
      applied.passes = [engine.pass host event source registry world] ∨
      applied.passes = [engine.pass host event source registry world,
          engine.secondPass host event source (engine.pass host event source registry world)] ∧
        engine.options.fallback = true ∧
        ∃ failure, (engine.pass host event source registry world).result = .error failure ∧
          failure.isHookFailure = true)
    (failure : (engine.transitions.admissible? event source).isSome = true →
      (engine.pass host event source registry world).result = .error error) :
    Reports engine host event registry world stateName source applied where
  passes := passes
  names _ ok := by rw [result] at ok; cases ok
  moved _ ok := by rw [result] at ok; cases ok
  fellBack _ ok := by rw [result] at ok; cases ok
  failure other h := by
    rw [result] at h
    cases h
    exact failure

/-- **Outcomes tell the truth.** Whatever tasks do to the entity and the registry, an outcome says
where the event was fired, where the entity is now and by which transition, and an error is that of
the first pass. -/
theorem apply_reports {stateName : σ → String} (laws : host.Stores stateName)
    (shown : host.state? world = some source) :
    Reports engine host event registry world stateName source
      (engine.apply host event registry world) := by
  rcases admissible : engine.transitions.admissible? event source with _ | t
  · rw [apply_of_inadmissible shown admissible]
    refine .of_error rfl (.inl rfl) fun h => ?_
    rw [admissible] at h
    cases h
  obtain ⟨found, regular⟩ := TransitionTable.admissible?_eq_some_iff.mp admissible
  have course := engine.pass_course host found registry world
  have answer := apply_answer registry shown admissible
  generalize engine.apply host event registry world = applied at answer ⊢
  cases answer with
  | moved ok =>
    obtain ⟨rfl, -⟩ := course.stored ok
    refine ⟨.inr (.inl rfl), ?_, ?_, ?_, ?_⟩
    · rintro _ ⟨⟩
      exact ⟨rfl, rfl, course.stateName_eq laws ok⟩
    · rintro _ ⟨⟩ -
      exact ⟨rfl, t, found, regular, rfl⟩
    · rintro _ ⟨⟩ ⟨⟩
    · rintro _ ⟨⟩
  | broken failed _ => exact .of_error rfl (.inr (.inl rfl)) fun _ => failed
  | aborted failed _ _ => exact .of_error rfl (.inr (.inl rfl)) fun _ => failed
  | @fellBack cause f second target failed answered fallback again ok =>
    -- it is the commit of the second pass that decides where the entity is
    obtain ⟨hook, on⟩ := Bool.and_eq_true_iff.mp answered
    obtain ⟨found, kind⟩ := fallback?_eq_some_iff.mp fallback
    have course := again ▸ secondPass_course host fallback
      (engine.pass host event source registry world)
    obtain ⟨rfl, -⟩ := course.stored ok
    refine ⟨.inr (.inr ⟨by rw [again], on, cause, failed, hook⟩), ?_, ?_, ?_, ?_⟩
    · rintro _ ⟨⟩
      exact ⟨rfl, rfl, course.stateName_eq laws ok⟩
    · rintro _ ⟨⟩ ⟨⟩
    · rintro _ ⟨⟩ -
      exact ⟨on, ⟨cause, failed, EngineError.isHookFailure_iff.mp hook, rfl, rfl⟩, f, found, kind,
        rfl⟩
    · rintro _ ⟨⟩
  | failedAgain failed answered _ again _ =>
    obtain ⟨hook, on⟩ := Bool.and_eq_true_iff.mp answered
    exact .of_error rfl (.inr (.inr ⟨by rw [again], on, _, failed, hook⟩)) fun _ => failed

/-- A task that stores a state of its own and then fails: the entity is in the error state all the
same. -/
theorem apply_reports_after_meddling :
    let engine := Engine.ofSchema .default
      ⟨.none, [⟨"new", .none, [⟨"Go", "done", some "failed", ["t"]⟩]⟩]⟩ .empty
    let host := Script.host engine 1
    let registry : Registry ScriptTask :=
      ⟨NameMap.empty.insert "t" ⟨0, ⟨"t", [.set "elsewhere", .fail "no"]⟩⟩⟩
    let scene : Scene := ⟨⟨"new", true, none, false⟩, #[0], [], false⟩
    host.Stores (·.puppet.state) ∧ host.state? scene = some "new" ∧
      Reports engine host "Go" registry scene (·.puppet.state) "new"
        (engine.apply host "Go" registry scene) ∧
      (engine.apply host "Go" registry scene).world.puppet.state = "failed" :=
  ⟨Script.host_stores _ 1, rfl, apply_reports (Script.host_stores _ 1) rfl, by decide +kernel⟩

end Engine

end StateMarkup
