import StateMarkup.Proofs.Engine.Answer
import StateMarkup.Proofs.Engine.Compiled
import StateMarkup.Simulation
import StateMarkup.Text.Search

/-!
# What the log tells of an event

An event that was fired ends its log with a notice of where it has led. A failure of hooks is warned
of if the engine answers failures, whatever the answer is: there may be none, one that succeeds, or
one that fails too. An engine that is told not to answer failures does not warn of them either; all
warnings in the log are then those that tasks have given themselves (`Progress.Told`), and so
`Engine.apply_logs` states the first half with the switch as its condition.
-/

namespace StateMarkup

universe u v

variable {τ : Type u} {σ : Type v} {host : Host τ σ}

/-! ## What is told in a pass -/

/-- A notice that a task has given while it ran. -/
def Host.Gives (host : Host τ σ) (notice : Notice) : Prop :=
  ∃ (task : τ) (registry : Registry τ) (world : σ), notice ∈ (host.run task registry world).log

/-- All that has been told so far is which tasks run and what these have told themselves. Neither is
a warning by the engine, so where this holds a warning comes from a task. -/
def Progress.Told (host : Host τ σ) (p : Progress τ σ) : Prop :=
  ∀ notice ∈ p.log, (∃ task hook, notice = .running task hook) ∨ host.Gives notice

namespace Progress.Told

variable {p q : Progress τ σ}

theorem init {registry : Registry τ} {world : σ} : (Progress.init registry world).Told host :=
  fun _ told => absurd told List.not_mem_nil

/-- One more task is told of, with what it tells. -/
theorem afterRun (told : p.Told host) (slot : Slot) (task : τ) :
    (p.afterRun host slot task).Told host := by
  intro notice h
  rcases List.mem_append.mp h with h | h
  · exact told notice h
  · rcases List.mem_cons.mp h with rfl | h
    · exact .inl ⟨slot.task, slot.hook, rfl⟩
    · exact .inr ⟨task, p.registry, p.world, h⟩

/-- So is each task of a schedule that runs to its end. -/
theorem ran {slots : List Slot} (run : Ran host slots p q) (told : p.Told host) : q.Told host := by
  induction run with
  | nil _ => exact told
  | cons _ _ _ ih => exact ih (told.afterRun _ _)

/-- What halts a schedule adds at most one task that is told of. -/
theorem halts {slot : Slot} {error : EngineError} (halt : Halts host slot p q error)
    (told : p.Told host) : q.Told host := by
  cases halt with
  | notFound _ => exact told
  | failed _ _ => exact told.afterRun _ _

/-- A commit tells nothing. -/
theorem commits {target : String} {result : Except EngineError String}
    (commit : Commits host target p q result) (told : p.Told host) : q.Told host := by
  cases commit with
  | incapable _ => exact told
  | stored _ _ => exact told
  | refused _ _ => exact told

end Progress.Told

/-- So a whole pass tells of nothing but its tasks. All warnings of the engine about it come later,
from the answer to its failure. -/
theorem PassCourse.told {slots : List Slot} {event target : String} {p : Progress τ σ}
    {pass : Pass τ σ} (course : PassCourse host slots event target p pass) (told : p.Told host) :
    pass.progress.Told host := by
  cases course with
  | committed ran commits => exact (told.ran ran).commits commits
  | halted _ ran halts => exact (told.ran ran).halts halts

/-- A pass is one over its event, however it ends. -/
theorem PassCourse.event_eq {slots : List Slot} {event target : String} {p : Progress τ σ}
    {pass : Pass τ σ} (course : PassCourse host slots event target p pass) :
    pass.event = event := by
  cases course with
  | committed _ _ => rfl
  | halted _ _ _ => rfl

/-! ## Warnings -/

/-- A notice warns of a failure: at the level of warnings, with the text of the failure in it. -/
def Notice.WarnsOf (notice : Notice) (failure : EngineError) : Prop :=
  notice.level = .warn ∧ Text.holds notice.message failure.message = true

/-- A pass ends in a failure of hooks: a task is missing, or fails. -/
def Pass.FailsBy (pass : Pass τ σ) (failure : EngineError) : Prop :=
  pass.result = .error failure ∧
    ((∃ task hook, failure = .taskNotFound task hook) ∨
      ∃ task hook cause, failure = .taskFailed task hook cause)

/-- The tasks of a pass have warned of its failure themselves. -/
def Host.WarnsIn (host : Host τ σ) (pass : Pass τ σ) (failure : EngineError) : Prop :=
  ∃ notice ∈ pass.progress.log, host.Gives notice ∧ notice.WarnsOf failure

/-- **No failure of hooks goes unlogged**, in none of the passes. -/
def Applied.WarnsOfFailures (applied : Applied τ σ) : Prop :=
  ∀ pass ∈ applied.passes, ∀ failure, pass.FailsBy failure →
    ∃ notice ∈ applied.log, notice.WarnsOf failure

/-- **An event that was fired says so last**: the last notice names the event of the last pass,
which is the one that was fired or else the one that answers its failure, and where it came from and
led. -/
def Applied.TellsMove (event : String) (applied : Applied τ σ) : Prop :=
  ∀ outcome, applied.result = .ok outcome →
    ∃ pass notice, applied.passes.getLast? = some pass ∧
      pass.event = (if outcome.fellBack then fallbackEvent event else event) ∧
      applied.log.getLast? = some notice ∧ notice.level = .info ∧
      notice.message = pass.event ++ ": " ++ outcome.source ++ " -> " ++ outcome.target

/-- A text holds its end. -/
theorem Text.holds_append (start part : String) : Text.holds (start ++ part) part = true := by
  rw [Text.holds, Text.isInfixOf_iff]
  exact ⟨start.toList, [], by rw [String.toList_append, List.append_nil]⟩

/-- A notice that there is no answer to a failure warns of it, since the text of the failure is at
its end. -/
theorem Notice.warnsOf_aborted (event state : String) (failure : EngineError) :
    (Notice.aborted event state failure).WarnsOf failure :=
  ⟨rfl, Text.holds_append _ _⟩

/-- So does the notice that comes before the answer. -/
theorem Notice.warnsOf_fallingBack (event state : String) (failure : EngineError) :
    (Notice.fallingBack event state failure).WarnsOf failure :=
  ⟨rfl, Text.holds_append _ _⟩

/-- And so does the one that comes if the answer fails too, for the failure of the answer. -/
theorem Notice.warnsOf_fallbackFailed (event : String) (failure : EngineError) :
    (Notice.fallbackFailed event failure).WarnsOf failure :=
  ⟨rfl, Text.holds_append _ _⟩

/-- What has warned in a pass is a task: the other notices of a pass are not at the level of
warnings. -/
theorem Progress.Told.warnsIn {pass : Pass τ σ} {failure : EngineError}
    (told : pass.progress.Told host) {notice : Notice} (mem : notice ∈ pass.progress.log)
    (warns : notice.WarnsOf failure) : host.WarnsIn pass failure := by
  rcases told notice mem with ⟨task, hook, rfl⟩ | given
  · cases warns.1
  · exact ⟨notice, mem, given, warns⟩

namespace Pass.FailsBy

variable {pass : Pass τ σ} {failure : EngineError}

/-- A failure of hooks is one for the engine, too. -/
theorem isHookFailure (fails : pass.FailsBy failure) : failure.isHookFailure = true :=
  EngineError.isHookFailure_iff.mpr fails.2

theorem eq (fails : pass.FailsBy failure) {cause : EngineError}
    (failed : pass.result = .error cause) : failure = cause :=
  Except.error.inj (fails.1.symm.trans failed)

theorem ne_ok (fails : pass.FailsBy failure) (target : String) : pass.result ≠ .ok target := by
  intro ok
  cases fails.1.symm.trans ok

end Pass.FailsBy

/-! ## Events -/

namespace Engine

variable {engine : Engine} {event source : String} {first : Pass τ σ} {applied : Applied τ σ}

namespace Answer

/-- An engine that answers failures warns of each, before it answers it or as it gives up. If the
answer fails too, both failures are warned of, each by a notice of its own. -/
theorem warnsOfFailures (answer : Answer engine host event source first applied)
    (on : engine.options.fallback = true) : applied.WarnsOfFailures := by
  intro pass mem failure fails
  cases answer with
  | moved ok =>
    cases List.mem_singleton.mp mem
    exact absurd ok (fails.ne_ok _)
  | broken failed unanswered =>
    cases List.mem_singleton.mp mem
    cases fails.eq failed
    -- a failure of hooks would have been answered
    rw [fails.isHookFailure, on] at unanswered
    cases unanswered
  | aborted failed _ _ =>
    cases List.mem_singleton.mp mem
    cases fails.eq failed
    exact ⟨_, List.mem_append_right _ (List.mem_singleton_self _), Notice.warnsOf_aborted _ _ _⟩
  | fellBack failed _ _ _ ok =>
    rcases List.mem_cons.mp mem with rfl | mem
    · cases fails.eq failed
      exact ⟨_, List.mem_append_left _ (List.mem_append_right _ List.mem_cons_self),
        Notice.warnsOf_fallingBack _ _ _⟩
    · cases List.mem_singleton.mp mem
      exact absurd ok (fails.ne_ok _)
  | failedAgain failed _ _ _ failedToo =>
    rcases List.mem_cons.mp mem with rfl | mem
    · cases fails.eq failed
      exact ⟨_, List.mem_append_left _ (List.mem_append_right _ List.mem_cons_self),
        Notice.warnsOf_fallingBack _ _ _⟩
    · cases List.mem_singleton.mp mem
      cases fails.eq failedToo
      exact ⟨_, List.mem_append_right _ (List.mem_singleton_self _),
        Notice.warnsOf_fallbackFailed _ _⟩

/-- An engine that does not answer failures adds no notice to those of the pass that fails. -/
theorem eq_of_unanswered (answer : Answer engine host event source first applied)
    (off : engine.options.fallback = false) :
    applied.passes = [first] ∧
      ∀ error, first.result = .error error → applied.log = first.progress.log := by
  have unanswered (cause : EngineError) :
      (cause.isHookFailure && engine.options.fallback) ≠ true := by
    rw [off, Bool.and_false]
    exact Bool.false_ne_true
  cases answer with
  | moved ok =>
    refine ⟨rfl, ?_⟩
    intro error failed
    cases ok.symm.trans failed
  | broken _ _ => exact ⟨rfl, fun _ _ => rfl⟩
  | aborted _ answered _ => exact absurd answered (unanswered _)
  | fellBack _ answered _ _ _ => exact absurd answered (unanswered _)
  | failedAgain _ answered _ _ _ => exact absurd answered (unanswered _)

/-- Where the event or its answer has succeeded, the notice of the move is added last. -/
theorem tellsMove (answer : Answer engine host event source first applied)
    (named : first.event = event) : applied.TellsMove event := by
  intro outcome ok
  cases answer with
  | moved _ =>
    cases ok
    exact ⟨first, _, rfl, named, List.getLast?_concat, rfl, by rw [named]; rfl⟩
  | broken _ _ => cases ok
  | aborted _ _ _ => cases ok
  | @fellBack _ _ second _ _ _ fallback again _ =>
    cases ok
    have named : second.event = fallbackEvent event :=
      again ▸ (secondPass_course host fallback first).event_eq
    exact ⟨second, _, rfl, named, List.getLast?_concat, rfl, by rw [named]; rfl⟩
  | failedAgain _ _ _ _ _ => cases ok

end Answer

variable (engine : Engine) (host : Host τ σ) (event : String) (registry : Registry τ) (world : σ)

/-- **What is logged of an event.** No failure of hooks goes unlogged if the engine answers
failures; if it does not, then only those that tasks have warned of themselves. And an event that
was fired says so last. -/
theorem apply_logs :
    ((engine.apply host event registry world).WarnsOfFailures ↔
      engine.options.fallback = true ∨
        ∀ pass ∈ (engine.apply host event registry world).passes, ∀ failure,
          pass.FailsBy failure → host.WarnsIn pass failure) ∧
    (engine.apply host event registry world).TellsMove event := by
  rcases shown : host.state? world with _ | source
  · rw [apply_of_hidden shown]
    exact ⟨⟨fun _ => .inr nofun, fun _ => nofun⟩, nofun⟩
  rcases admissible : engine.transitions.admissible? event source with _ | t
  · rw [apply_of_inadmissible shown admissible]
    exact ⟨⟨fun _ => .inr nofun, fun _ => nofun⟩, nofun⟩
  have course := engine.pass_course host
    (TransitionTable.admissible?_eq_some_iff.mp admissible).1 registry world
  have answer := apply_answer registry shown admissible
  refine ⟨?_, answer.tellsMove course.event_eq⟩
  rcases off : engine.options.fallback with _ | _
  · -- the log of a failed event is that of its only pass
    obtain ⟨alone, log_eq⟩ := answer.eq_of_unanswered off
    rw [Applied.WarnsOfFailures, alone, or_iff_right Bool.false_ne_true,
      List.forall_mem_singleton, List.forall_mem_singleton]
    refine forall₂_congr fun failure fails => ?_
    rw [log_eq failure fails.1]
    constructor
    · rintro ⟨notice, mem, warns⟩
      exact (course.told .init).warnsIn mem warns
    · rintro ⟨notice, mem, -, warns⟩
      exact ⟨notice, mem, warns⟩
  · exact iff_of_true (answer.warnsOfFailures off) (.inl rfl)

/-- A document with one event that has a task. -/
def oneTask : String :=
  "<Schema><States><new><Events><Go targetState=\"done\"><Task>t</Task></Go></Events></new>" ++
  "<done></done></States></Schema>"

/-- An engine that does not answer failures says nothing of a task that is missing. -/
theorem failure_unlogged :
    ∃ engine, (compile ⟨false, false⟩ oneTask).result = .ok engine ∧
      let applied := engine.apply Simulation.host "Go" ⟨.empty⟩ ⟨"new", []⟩
      (∃ pass ∈ applied.passes, pass.FailsBy (.taskNotFound "t" "before_Go")) ∧
        applied.log = [] ∧ ¬ applied.WarnsOfFailures := by
  obtain ⟨engine, compiled, results, log⟩ :
      ∃ engine, (compile ⟨false, false⟩ oneTask).result = .ok engine ∧
        (engine.apply Simulation.host "Go" ⟨.empty⟩ ⟨"new", []⟩).passes.map (·.result) =
          [.error (.taskNotFound "t" "before_Go")] ∧
        (engine.apply Simulation.host "Go" ⟨.empty⟩ ⟨"new", []⟩).log = [] :=
    exists_of_compile_any (by decide +kernel)
  obtain ⟨pass, mem, failed⟩ := List.mem_map.mp (results ▸ List.mem_singleton_self _)
  have fails : pass.FailsBy (.taskNotFound "t" "before_Go") := ⟨failed, .inl ⟨_, _, rfl⟩⟩
  refine ⟨engine, compiled, ⟨pass, mem, fails⟩, log, ?_⟩
  intro warned
  obtain ⟨notice, told, -⟩ := warned pass mem _ fails
  rw [log] at told
  cases told

end Engine

end StateMarkup
