import StateMarkup.Proofs.Engine.Answer

/-!
# The entity keeps its state until the commit

While a transition passes its hooks, the machine may have moved on already, but the entity has not.
The invariant is `Progress.Untouched`: the entity is in the state where the event was fired, and
every task has begun in that state. Each run of a task keeps it if the task does, and so do a
schedule and a commit that fails. The main statement is `Engine.apply_keeps_state`: all tasks of
both passes see the state where the event was fired, and an event that is not fired leaves it.
-/

namespace StateMarkup

universe u v

variable {τ : Type u} {σ : Type v} {host : Host τ σ} {stateName : σ → String} {state : String}

/-- Tasks may do anything except change the state that the entity carries. -/
def Host.TasksKeep (host : Host τ σ) (stateName : σ → String) : Prop :=
  ∀ (task : τ) (registry : Registry τ) (world : σ),
    stateName (host.run task registry world).world = stateName world

/-- The entity is in the state, and every task has begun in it. The second part is what is wanted in
the end; the first carries the induction. -/
structure Progress.Untouched (stateName : σ → String) (state : String) (p : Progress τ σ) :
    Prop where
  now : stateName p.world = state
  seen : ∀ e ∈ p.executions, stateName e.seen = state

namespace Progress.Untouched

variable {p q : Progress τ σ}

theorem init {registry : Registry τ} {world : σ} (h : stateName world = state) :
    (Progress.init registry world).Untouched stateName state :=
  ⟨h, fun _ he => absurd he List.not_mem_nil⟩

/-- One more task has begun in the state, and has kept it. -/
theorem afterRun (keeps : host.TasksKeep stateName) (h : p.Untouched stateName state)
    (slot : Slot) (task : τ) : (p.afterRun host slot task).Untouched stateName state where
  now := (keeps task p.registry p.world).trans h.now
  seen e he := by
    rcases List.mem_append.mp he with he | he
    · exact h.seen e he
    · rw [List.mem_singleton.mp he]
      exact h.now

/-- A whole schedule has run, task by task. -/
theorem ran (keeps : host.TasksKeep stateName) {slots : List Slot} (run : Ran host slots p q)
    (h : p.Untouched stateName state) : q.Untouched stateName state := by
  induction run with
  | nil _ => exact h
  | cons _ _ _ ih => exact ih (h.afterRun keeps _ _)

/-- A slot has halted the schedule. Its task has not been found, or has begun in the state like the
others. -/
theorem halts (keeps : host.TasksKeep stateName) {slot : Slot} {error : EngineError}
    (halt : Halts host slot p q error) (h : p.Untouched stateName state) :
    q.Untouched stateName state := by
  cases halt with
  | notFound _ => exact h
  | failed _ _ => exact h.afterRun keeps _ _

/-- A commit that fails has not changed the state. -/
theorem notCommitted (laws : host.Stores stateName) {target : String} {error : EngineError}
    (commits : Commits host target p q (.error error)) (h : p.Untouched stateName state) :
    q.Untouched stateName state := by
  cases commits with
  | incapable _ => exact h
  | refused shown set => exact ⟨(laws.refused shown set).trans h.now, h.seen⟩

end Progress.Untouched

namespace PassCourse

variable {slots : List Slot} {event target : String} {p : Progress τ σ} {pass : Pass τ σ}

/-- All tasks of a pass see the state where it has started. A commit comes when they have all run,
so what it does to the state is seen by none. -/
theorem seen (keeps : host.TasksKeep stateName) (h : p.Untouched stateName state)
    (course : PassCourse host slots event target p pass) :
    ∀ e ∈ pass.progress.executions, stateName e.seen = state := by
  cases course with
  | committed ran commits =>
    rw [commits.executions_eq]
    exact (h.ran keeps ran).seen
  | halted _ ran halts => exact ((h.ran keeps ran).halts keeps halts).seen

/-- A pass that fails leaves the state where it has started. -/
theorem untouched (laws : host.Stores stateName) (keeps : host.TasksKeep stateName)
    (h : p.Untouched stateName state) (course : PassCourse host slots event target p pass)
    {error : EngineError} (failed : pass.result = .error error) :
    pass.progress.Untouched stateName state := by
  cases course with
  | committed ran commits =>
    obtain rfl : _ = Except.error error := failed
    exact (h.ran keeps ran).notCommitted laws commits
  | halted _ ran halts => exact (h.ran keeps ran).halts keeps halts

end PassCourse

namespace Engine

variable {engine : Engine} {event source : String} {registry : Registry τ} {world : σ}

/-- **The entity keeps its state.** If tasks do not change the state of the entity themselves, they
all see it in the state where the event was fired, in both passes; and if the event is not fired,
for whatever reason, the entity is in that state still. -/
theorem apply_keeps_state (laws : host.Stores stateName) (keeps : host.TasksKeep stateName)
    (shown : host.state? world = some source) :
    (∀ pass ∈ (engine.apply host event registry world).passes,
      ∀ e ∈ pass.progress.executions, stateName e.seen = source) ∧
    ∀ error, (engine.apply host event registry world).result = .error error →
      stateName (engine.apply host event registry world).world = source := by
  have start : stateName world = source := laws.shown shown
  rcases admissible : engine.transitions.admissible? event source with _ | t
  · rw [apply_of_inadmissible shown admissible]
    exact ⟨nofun, fun _ _ => start⟩
  have found := (TransitionTable.admissible?_eq_some_iff.mp admissible).1
  have course := engine.pass_course host found registry world
  have seen := course.seen keeps (.init start)
  have answer := apply_answer registry shown admissible
  generalize engine.apply host event registry world = applied at answer ⊢
  cases answer with
  | moved _ =>
    refine ⟨List.forall_mem_singleton.mpr seen, ?_⟩
    rintro _ ⟨⟩
  | broken failed _ =>
    exact ⟨List.forall_mem_singleton.mpr seen,
      fun _ _ => (course.untouched laws keeps (.init start) failed).now⟩
  | aborted failed _ _ =>
    exact ⟨List.forall_mem_singleton.mpr seen,
      fun _ _ => (course.untouched laws keeps (.init start) failed).now⟩
  | fellBack failed _ fallback again _ =>
    -- the second pass starts in what the first has left, so the state is still untouched
    have restart := (course.untouched laws keeps (.init start) failed).now
    have course := again ▸ secondPass_course host fallback
      (engine.pass host event source registry world)
    refine ⟨List.forall_mem_cons.mpr ⟨seen, ?_⟩, ?_⟩
    · exact List.forall_mem_singleton.mpr (course.seen keeps (.init restart))
    · rintro _ ⟨⟩
  | failedAgain failed _ fallback again failedToo =>
    have restart := (course.untouched laws keeps (.init start) failed).now
    have course := again ▸ secondPass_course host fallback
      (engine.pass host event source registry world)
    refine ⟨List.forall_mem_cons.mpr ⟨seen, ?_⟩, ?_⟩
    · exact List.forall_mem_singleton.mpr (course.seen keeps (.init restart))
    · exact fun _ _ => (course.untouched laws keeps (.init restart) failedToo).now

/-- Both passes of an event fail in a simulation, the first after a task has run. -/
theorem apply_keeps_state_twice :
    let engine := Engine.ofSchema .default
      ⟨.none, [⟨"new", .none, [⟨"Go", "done", some "failed", ["a", "b"]⟩]⟩,
        ⟨"failed", ⟨[], [], ["c"]⟩, []⟩]⟩ .empty
    let registry : Registry String := ⟨NameMap.empty.insert "a" "a"⟩
    let applied := engine.apply Simulation.host "Go" registry ⟨"new", []⟩
    Simulation.host.Stores (·.state) ∧ Simulation.host.TasksKeep (·.state) ∧
      Simulation.host.state? ⟨"new", []⟩ = some "new" ∧
      ((∀ pass ∈ applied.passes, ∀ e ∈ pass.progress.executions, e.seen.state = "new") ∧
        ∀ error, applied.result = .error error → applied.world.state = "new") ∧
      applied.passes.length = 2 ∧ applied.result.toOption = none :=
  ⟨Simulation.host_stores, fun _ _ _ => rfl, rfl,
    apply_keeps_state Simulation.host_stores (fun _ _ _ => rfl) rfl, by decide +kernel,
    by decide +kernel⟩

end Engine

end StateMarkup
