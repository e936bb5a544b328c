import StateMarkup.Proofs.Engine.Answer

/-!
# Events that are refused

The table is asked about an event at three times: before anything is done, by the machine of the
pass, and for an answer when hooks have failed. Tasks have run in between, and may have changed all
but the table. So the first question decides, and it is the one of `Engine.can`: if the event may
not be fired, it is refused and leaves no trace (`Engine.Refuses`), and if it may be fired, no pass
is ever told that there is no such event (`Applied.NotRefused`).
-/

namespace StateMarkup

universe u v

variable {τ : Type u} {σ : Type v}

/-! ## Passes -/

/-- What halts a pass is not that there is no such event. The error of a task is wrapped as a
failure of the task, so it does not matter which events the task itself has fired. -/
theorem Halts.ne_notAdmissible {host : Host τ σ} {slot : Slot} {p q : Progress τ σ}
    {error : EngineError} (halts : Halts host slot p q error) (name state : String) :
    error ≠ .notAdmissible name state := by
  cases halts with
  | notFound _ => exact nofun
  | failed _ _ => exact nofun

/-- Nor is it why a commit fails. -/
theorem Commits.ne_notAdmissible {host : Host τ σ} {target : String} {p q : Progress τ σ}
    {result : Except EngineError String} (commits : Commits host target p q result)
    (name state : String) : result ≠ .error (.notAdmissible name state) := by
  cases commits with
  | incapable _ => exact nofun
  | stored _ _ => exact nofun
  | refused _ _ => exact nofun

/-- A pass over a transition is not told that there is none. -/
theorem PassCourse.ne_notAdmissible {host : Host τ σ} {slots : List Slot} {event target : String}
    {p : Progress τ σ} {pass : Pass τ σ} (course : PassCourse host slots event target p pass)
    (name state : String) : pass.result ≠ .error (.notAdmissible name state) := by
  cases course with
  | committed _ commits => exact commits.ne_notAdmissible name state
  | halted _ _ halts =>
    intro refused
    exact halts.ne_notAdmissible name state (Except.error.inj refused)

/-- **An event that is not refused**: there was a pass, and none was told that there is no such
event, nor is it the answer to the host. -/
structure Applied.NotRefused (applied : Applied τ σ) : Prop where
  tried : applied.passes ≠ []
  passes : ∀ pass ∈ applied.passes, ∀ name state,
    pass.result ≠ .error (.notAdmissible name state)
  result : ∀ name state, applied.result ≠ .error (.notAdmissible name state)

/-! ## Refusals -/

namespace Engine

/-- **A refusal** of an event, by what has come of it. -/
structure Refuses (engine : Engine) (host : Host τ σ) (event : String) (registry : Registry τ)
    (world : σ) (applied : Applied τ σ) : Prop where
  /-- the entity shows no state, or the error names the event and the state that it shows -/
  reason : host.state? world = none ∧ applied.result = .error .missingCapability ∨
    ∃ state, host.state? world = some state ∧
      applied.result = .error (.notAdmissible event state)
  untouched : applied.registry = registry ∧ applied.world = world
  silent : applied.log = []
  untried : applied.passes = []
  /-- no state was stored and no task was run: whatever these may do, the same comes of the event -/
  idle : ∀ (setState : String → σ → σ × Except String Unit)
    (run : τ → Registry τ → σ → TaskRun τ σ),
    engine.apply ⟨host.state?, setState, run⟩ event registry world = applied

variable (engine : Engine) (host : Host τ σ) (event : String) (registry : Registry τ) (world : σ)

/-- An event may not be fired if the entity shows no state, or if there is no transition for the one
that it shows. -/
theorem can_eq_false_iff : engine.can host event world = false ↔
    host.state? world = none ∨ ∃ state, host.state? world = some state ∧
      engine.transitions.admissible? event state = none := by
  rw [can]
  cases host.state? world with
  | none => simp
  | some state => simp

/-- It may be fired if there is a transition for the state that the entity shows. -/
theorem can_eq_true_iff : engine.can host event world = true ↔
    ∃ state t, host.state? world = some state ∧
      engine.transitions.admissible? event state = some t := by
  rw [can]
  cases host.state? world with
  | none => simp
  | some state => simp [Option.isSome_iff_exists]

/-- **Firing an event and asking about it agree.** What may not be fired is refused, and the refusal
has no effect at all; what may be fired is never refused, whatever the tasks do, fire events
themselves or fail. -/
theorem apply_refuses_unless_can :
    (engine.can host event world = false → engine.Refuses host event registry world
      (engine.apply host event registry world)) ∧
    (engine.can host event world = true →
      (engine.apply host event registry world).NotRefused) := by
  constructor
  · intro cannot
    rcases (engine.can_eq_false_iff host event world).mp cannot with hidden | ⟨state, shown, absent⟩
    · rw [apply_of_hidden hidden]
      exact ⟨.inl ⟨hidden, rfl⟩, ⟨rfl, rfl⟩, rfl, rfl, fun _ _ => apply_of_hidden hidden⟩
    · rw [apply_of_inadmissible shown absent]
      exact ⟨.inr ⟨state, shown, rfl⟩, ⟨rfl, rfl⟩, rfl, rfl,
        fun _ _ => apply_of_inadmissible shown absent⟩
  · intro can
    obtain ⟨state, t, shown, admissible⟩ := (engine.can_eq_true_iff host event world).mp can
    have found := (TransitionTable.admissible?_eq_some_iff.mp admissible).1
    -- a pass looks up the same transition in the same table, so it is never told that there is none
    have first := (engine.pass_course host found registry world).ne_notAdmissible
    have answer := apply_answer registry shown admissible
    refine ⟨?_, ?_, ?_⟩
    · rcases answer.passes_eq with one | ⟨-, two⟩
      · exact one ▸ List.cons_ne_nil _ _
      · exact two ▸ List.cons_ne_nil _ _
    · refine answer.forall_passes first ?_
      intro f fallback
      exact (secondPass_course host fallback _).ne_notAdmissible
    · intro name state refused
      exact first name state (answer.first_failed refused)

/-- The task of an event fires another one that is refused, and fails with that: the outer event is
not refused, but tells the failure of the task. -/
theorem apply_refuses_unless_can_inside :
    let engine := ofSchema .default ⟨.none, [⟨"new", .none, [⟨"Go", "done", none, ["t"]⟩]⟩]⟩ .empty
    let host := Script.host engine 2
    let registry : Registry ScriptTask :=
      ⟨NameMap.empty.insert "t" ⟨0, ⟨"t", [.apply "Stop" true 1]⟩⟩⟩
    let scene : Scene := ⟨⟨"new", true, none, false⟩, #[0], [], false⟩
    engine.can host "Stop" scene = false ∧ engine.can host "Go" scene = true ∧
      engine.Refuses host "Stop" registry scene (engine.apply host "Stop" registry scene) ∧
      (engine.apply host "Go" registry scene).NotRefused ∧
      (engine.apply host "Go" registry scene).result =
        .error (.taskFailed "t" "before_Go" "cannot fire 'Stop' from state 'new'") := by
  intro engine host registry scene
  have cannot : engine.can host "Stop" scene = false := by decide +kernel
  have can : engine.can host "Go" scene = true := by decide +kernel
  exact ⟨cannot, can, (engine.apply_refuses_unless_can host "Stop" registry scene).1 cannot,
    (engine.apply_refuses_unless_can host "Go" registry scene).2 can, by decide +kernel⟩

end Engine

end StateMarkup
