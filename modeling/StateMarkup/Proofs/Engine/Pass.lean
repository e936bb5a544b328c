import StateMarkup.Engine.Apply

/-!
# The course of a pass

What `Engine.pass` does to the world, said once. All tasks that a pass may run stand in one list,
the `Slot`s of its transition. `Ran` takes what had happened before some of them to what has
happened after all of them have succeeded, `Halts` says how a slot ends a pass, and `Commits` how
the new state is stored.

* `Engine.pass_course`: a pass runs its slots up to the first one that halts it, or runs them all
  and commits;
* `Ran.executions_eq`: what has run are the slots, in order and each once.
-/

namespace StateMarkup

universe u v

variable {τ : Type u} {σ : Type v}

/-! ## Schedules -/

/-- A task of a schedule, and the key that it is scheduled under. -/
structure Slot where
  task : String
  hook : String
deriving DecidableEq, Repr

/-- The tasks of one key. -/
def Slot.under (hook : String) (tasks : List String) : List Slot :=
  tasks.map fun task => ⟨task, hook⟩

@[simp] theorem Slot.under_nil (hook : String) : Slot.under hook [] = [] := rfl

@[simp] theorem Slot.under_cons (hook task : String) (tasks : List String) :
    Slot.under hook (task :: tasks) = ⟨task, hook⟩ :: Slot.under hook tasks := rfl

/-- The slot whose task was run. -/
def Execution.slot (e : Execution σ) : Slot := ⟨e.task, e.hook⟩

/-- What has happened after the task of a slot has run, whether it succeeded or not. -/
def Progress.afterRun (host : Host τ σ) (p : Progress τ σ) (slot : Slot) (task : τ) :
    Progress τ σ :=
  p.ran ⟨slot.task, slot.hook, p.world⟩ (host.run task p.registry p.world)

/-! ## What a run of slots leaves -/

/-- All tasks of a schedule run one after the other: each is found in the registry as it stands
when its turn has come, and succeeds. -/
inductive Ran (host : Host τ σ) : List Slot → Progress τ σ → Progress τ σ → Prop where
  | nil (p : Progress τ σ) : Ran host [] p p
  | cons {slot : Slot} {rest : List Slot} {p q : Progress τ σ} {task : τ} :
      p.registry.get slot.task = .ok task →
      (host.run task p.registry p.world).result = .ok () →
      Ran host rest (p.afterRun host slot task) q →
      Ran host (slot :: rest) p q

/-- A slot ends a pass: its task is not there and does not run, or it runs and fails. The error
names the task and the key. -/
inductive Halts (host : Host τ σ) (slot : Slot) (p : Progress τ σ) :
    Progress τ σ → EngineError → Prop where
  | notFound {reason : RegistryError} :
      p.registry.get slot.task = .error reason →
      Halts host slot p p (.taskNotFound slot.task slot.hook)
  | failed {task : τ} {cause : String} :
      p.registry.get slot.task = .ok task →
      (host.run task p.registry p.world).result = .error cause →
      Halts host slot p (p.afterRun host slot task) (.taskFailed slot.task slot.hook cause)

/-- The target of a transition is stored in the entity, unless the entity shows no state any more
or refuses the new one. -/
inductive Commits (host : Host τ σ) (target : String) (p : Progress τ σ) :
    Progress τ σ → Except EngineError String → Prop where
  | incapable : host.state? p.world = none → Commits host target p p (.error .missingCapability)
  | stored {old : String} {world : σ} :
      host.state? p.world = some old →
      host.setState target p.world = (world, .ok ()) →
      Commits host target p (p.withWorld world) (.ok target)
  | refused {old cause : String} {world : σ} :
      host.state? p.world = some old →
      host.setState target p.world = (world, .error cause) →
      Commits host target p (p.withWorld world) (.error (.stateRefused target cause))

/-- A schedule is run: to its end, or up to a slot that halts. -/
inductive Course (host : Host τ σ) (slots : List Slot) (p q : Progress τ σ) :
    Except EngineError Unit → Prop where
  | finished : Ran host slots p q → Course host slots p q (.ok ())
  | halted {done later : List Slot} {slot : Slot} {m : Progress τ σ} {error : EngineError} :
      slots = done ++ slot :: later →
      Ran host done p m →
      Halts host slot m q error →
      Course host slots p q (.error error)

/-- A pass that has a schedule and a target: the schedule is run up to a slot that halts, or to its
end, and then the target is committed. -/
inductive PassCourse (host : Host τ σ) (slots : List Slot) (event target : String)
    (p : Progress τ σ) : Pass τ σ → Prop where
  | committed {m q : Progress τ σ} {result : Except EngineError String} :
      Ran host slots p m →
      Commits host target m q result →
      PassCourse host slots event target p ⟨event, q, result⟩
  | halted {done later : List Slot} {slot : Slot} {m q : Progress τ σ} {error : EngineError} :
      slots = done ++ slot :: later →
      Ran host done p m →
      Halts host slot m q error →
      PassCourse host slots event target p ⟨event, q, .error error⟩

namespace Ran

variable {host : Host τ σ} {slots more : List Slot} {p m q : Progress τ σ}

/-- Schedules may be run one after the other. -/
theorem append (first : Ran host slots p m) (second : Ran host more m q) :
    Ran host (slots ++ more) p q := by
  induction first with
  | nil _ => exact second
  | cons found succeeded _ ih => exact .cons found succeeded (ih second)

/-- What has run are the slots, in order and each once. -/
theorem executions_eq (h : Ran host slots p q) :
    q.executions.map Execution.slot = p.executions.map Execution.slot ++ slots := by
  induction h with
  | nil _ => rw [List.append_nil]
  | cons _ _ _ ih =>
    rw [ih]
    simp [Progress.afterRun, Progress.ran, Execution.slot]

/-- There is one way to run a schedule to its end. Tasks are looked up when their turn has come, but
what they find is determined by those before them. -/
theorem unique {q' : Progress τ σ} (h : Ran host slots p q) (h' : Ran host slots p q') :
    q = q' := by
  induction h with
  | nil _ =>
    cases h' with
    | nil _ => rfl
  | cons found _ _ ih =>
    cases h' with
    | cons found' _ rest' =>
      obtain rfl := Except.ok.inj (found.symm.trans found')
      exact ih rest'

/-- What is run to its end is run to its end in parts. -/
theorem of_append (h : Ran host (slots ++ more) p q) :
    ∃ m, Ran host slots p m ∧ Ran host more m q := by
  -- by recursion on the first schedule: what it has run so far changes the start of the rest
  induction slots generalizing p with
  | nil => exact ⟨p, .nil p, h⟩
  | cons slot rest ih =>
    cases h with
    | cons found succeeded later =>
      obtain ⟨m, first, second⟩ := ih later
      exact ⟨m, .cons found succeeded first, second⟩

end Ran

namespace Halts

variable {host : Host τ σ} {slot : Slot} {p q : Progress τ σ} {error : EngineError}

/-- What halts a pass is a failure of hooks. -/
theorem isHookFailure (h : Halts host slot p q error) : error.isHookFailure = true := by
  cases h with
  | notFound _ => rfl
  | failed _ _ => rfl

/-- A slot that halts does not succeed. So a schedule that is halted cannot be run to its end in
some other way. -/
theorem not_ran {later : List Slot} {m : Progress τ σ} (h : Halts host slot p q error) :
    ¬ Ran host (slot :: later) p m := by
  intro ran
  cases ran with
  | cons found succeeded _ =>
    cases h with
    | notFound absent => cases absent.symm.trans found
    | failed found' failed =>
      obtain rfl := Except.ok.inj (found.symm.trans found')
      cases failed.symm.trans succeeded

/-- At most the slot that halts has run. -/
theorem executions_prefix (h : Halts host slot p q error) :
    q.executions.map Execution.slot <+: p.executions.map Execution.slot ++ [slot] := by
  cases h with
  | notFound _ => exact List.prefix_append _ _
  | failed _ _ =>
    simp [Progress.afterRun, Progress.ran, Execution.slot]

end Halts

namespace Commits

variable {host : Host τ σ} {target : String} {p q : Progress τ σ}

/-- A commit that fails is no failure of hooks. -/
theorem isHookFailure {error : EngineError} (h : Commits host target p q (.error error)) :
    error.isHookFailure = false := by
  cases h with
  | incapable _ => rfl
  | refused _ _ => rfl

/-- A commit runs no task. -/
theorem executions_eq {result : Except EngineError String} (h : Commits host target p q result) :
    q.executions = p.executions := by
  cases h with
  | incapable _ => rfl
  | stored _ _ => rfl
  | refused _ _ => rfl

end Commits

namespace Course

variable {host : Host τ σ} {slots more : List Slot} {p m q : Progress τ σ}

/-- The first slot may halt already. -/
theorem halted_head {slot : Slot} {rest : List Slot} {error : EngineError}
    (halts : Halts host slot p q error) : Course host (slot :: rest) p q (.error error) :=
  .halted (List.nil_append _).symm (.nil p) halts

/-- What comes after a schedule that is run to its end. -/
theorem append {result : Except EngineError Unit} (first : Course host slots p m (.ok ()))
    (second : Course host more m q result) : Course host (slots ++ more) p q result := by
  obtain ran : Ran host slots p m := by
    cases first with
    | finished ran => exact ran
  cases second with
  | finished ranMore => exact .finished (ran.append ranMore)
  | halted split ranMore halts =>
    exact .halted (by rw [split, List.append_assoc]) (ran.append ranMore) halts

/-- What comes after a schedule that is halted does not matter. -/
theorem halted_append {error : EngineError} (h : Course host slots p q (.error error)) :
    Course host (slots ++ more) p q (.error error) := by
  cases h with
  | halted split ran halts =>
    exact .halted (by rw [split, List.append_assoc, List.cons_append]) ran halts

end Course

/-! ## The functions follow the relations -/

namespace Engine

variable (engine : Engine) (host : Host τ σ)

/-- The slots of several hooks. -/
def hookSlots (hooks : List Hook) : List Slot :=
  hooks.flatMap fun hook => Slot.under hook.key (engine.hooks.tasks hook.key)

/-- The slots of a transition. -/
def slots (t : Transition) : List Slot := engine.hookSlots t.hooks

/-- To run the tasks of a key is to run their slots, until one halts. The progress of a task that
fails is kept, and nothing behind it is run. -/
theorem runTasks_course (key : String) (names : List String) (p : Progress τ σ) :
    Course host (Slot.under key names) p (runTasks host key names p).1
      (runTasks host key names p).2 := by
  induction names generalizing p with
  | nil => exact .finished (.nil p)
  | cons name rest ih =>
    rw [Slot.under_cons, runTasks]
    cases found : p.registry.get name with
    | error reason => exact .halted_head (.notFound found)
    | ok task =>
      cases run : (host.run task p.registry p.world).result with
      | error cause =>
        simp only [run]
        exact .halted_head (.failed found run)
      | ok _ =>
        simp only [run]
        exact (Course.finished (.cons found run (.nil _))).append (ih _)

/-- Passing hooks is running their slots; the phase of a failure is not looked at. The induction is
on the hooks: each of them comes behind those before it, or is not reached. -/
theorem passHooks_course (hooks : List Hook) (p : Progress τ σ) :
    Course host (engine.hookSlots hooks) p (passHooks (engine.runHook host) hooks p).1
      ((passHooks (engine.runHook host) hooks p).2.mapError Prod.snd) := by
  induction hooks generalizing p with
  | nil => exact .finished (.nil p)
  | cons hook rest ih =>
    have first : Course host (Slot.under hook.key (engine.hooks.tasks hook.key)) p
        (engine.runHook host hook p).1 (engine.runHook host hook p).2 :=
      runTasks_course host hook.key _ p
    rw [hookSlots, List.flatMap_cons, passHooks]
    rcases h : engine.runHook host hook p with ⟨m, _ | _⟩
    · rw [h] at first
      exact first.halted_append
    · rw [h] at first
      exact first.append (ih m)

/-- A commit asks the entity for its state first, and then stores the target or is refused. -/
theorem commit_commits (target : String) (p : Progress τ σ) :
    Commits host target p (commit host target p).1 (commit host target p).2 := by
  rw [commit]
  cases shown : host.state? p.world with
  | none => exact .incapable shown
  | some old =>
    rcases set : host.setState target p.world with ⟨world, cause | _⟩
    · exact .refused shown set
    · exact .stored shown set

/-- **The course of a pass.** A pass over a transition of the table runs the slots of the transition
until one halts it, or else commits the target. Whatever is said of passes further on is proved from
this, without a look at `Engine.pass`. -/
theorem pass_course {event source : String} {t : Transition}
    (found : engine.transitions.get? event source = some t) (registry : Registry τ) (world : σ) :
    PassCourse host (engine.slots t) event t.target (.init registry world)
      (engine.pass host event source registry world) := by
  -- the machine has moved on when its hooks are passed, but a pass looks at its result only
  have course := engine.passHooks_course host t.hooks (.init registry world)
  rw [pass, Machine.fire]
  simp only [found]
  rcases h : passHooks (engine.runHook host) t.hooks (.init registry world) with ⟨m, ⟨_, _⟩ | _⟩
  · rw [h] at course
    cases course with
    | halted split ran halts => exact .halted split ran halts
  · rw [h] at course
    cases course with
    | finished ran => exact .committed ran (commit_commits host t.target m)

end Engine

namespace PassCourse

variable {host : Host τ σ} {slots : List Slot} {event target : String} {p : Progress τ σ}
  {pass : Pass τ σ}

/-- What has run is the beginning of the schedule. -/
theorem executions_prefix (h : PassCourse host slots event target p pass) :
    pass.progress.executions.map Execution.slot <+: p.executions.map Execution.slot ++ slots := by
  cases h with
  | committed ran commits =>
    exact ⟨[], by rw [List.append_nil, commits.executions_eq, ran.executions_eq]⟩
  | halted split ran halts =>
    refine halts.executions_prefix.trans ?_
    rw [ran.executions_eq, split, List.append_assoc]
    exact List.prefix_append_right_inj _ |>.mpr
      (List.prefix_append_right_inj _ |>.mpr (by simp))

/-- A pass that succeeds has stored its target, and has done nothing after that. -/
theorem stored {state : String} (h : PassCourse host slots event target p pass)
    (ok : pass.result = .ok state) :
    state = target ∧ ∃ (world : σ) (old : String), host.state? world = some old ∧
      host.setState target world = (pass.progress.world, .ok ()) := by
  cases h with
  | committed ran commits =>
    cases commits with
    | incapable _ => cases ok
    | refused _ _ => cases ok
    | stored shown set =>
      cases ok
      exact ⟨rfl, _, _, shown, set⟩
  | halted _ _ _ => cases ok

end PassCourse

end StateMarkup
