import StateMarkup.Machine
import StateMarkup.Proofs.TransitionTable

/-!
# How a machine moves

A machine is called again and again, each time with an event and a callback of its own, and the
callbacks may share a world in which they remember what they like. What one call does is said by
`Machine.Lawful`: it is refused, or it moves the machine along a transition of its table, or it is
cancelled by the first failure of the callback and leaves the machine where it was. A cancelled
machine is put back to the source that stands in the transition, not to a state kept aside; that
this is the same is a matter of the table, where what is found for a state has that state as its
source (`TransitionTable.key_of_get?`).

So whatever the calls, the current state is the end of a path through the table
(`Machine.fire_after_any_calls`).
-/

namespace StateMarkup

universe u v

variable {σ : Type u} {ε : Type v}

/-! ## Calls of a callback -/

/-- A callback is called at several hooks in order and succeeds at each of them, in the world that
the call before has left. -/
inductive Passes (callback : Hook → σ → σ × Except ε Unit) : List Hook → σ → σ → Prop where
  | nil (world : σ) : Passes callback [] world world
  | cons {hook : Hook} {rest : List Hook} {world next last : σ} :
      callback hook world = (next, .ok ()) →
      Passes callback rest next last →
      Passes callback (hook :: rest) world last

/-- A callback is called at several hooks in order until it fails at one of them, in the phase and
with the error; it is not called at those behind. -/
inductive FailsFirst (callback : Hook → σ → σ × Except ε Unit) (hooks : List Hook) (world last : σ)
    (error : ε) : Phase → Prop where
  | intro {before later : List Hook} {hook : Hook} {there : σ} :
      hooks = before ++ hook :: later →
      Passes callback before world there →
      callback hook there = (last, .error error) →
      FailsFirst callback hooks world last error hook.phase

section

variable {callback : Hook → σ → σ × Except ε Unit} {hooks : List Hook} {world last : σ}

/-- The machine's loop over its hooks succeeds exactly if the callback does at each of them. With
the next lemma this replaces the loop by the two relations, and nothing below looks at the loop
again. -/
theorem passHooks_eq_ok_iff :
    passHooks callback hooks world = (last, .ok ()) ↔ Passes callback hooks world last := by
  induction hooks generalizing world with
  | nil =>
    constructor
    · rintro ⟨⟩
      exact .nil _
    · rintro ⟨⟩
      rfl
  | cons hook rest ih =>
    rw [passHooks]
    rcases called : callback hook world with ⟨next, error | _⟩
    · constructor
      · rintro ⟨⟩
      · rintro (_ | ⟨succeeded, -⟩)
        cases called.symm.trans succeeded
    · constructor
      · intro passed
        exact .cons called (ih.mp passed)
      · rintro (_ | ⟨succeeded, passes⟩)
        cases called.symm.trans succeeded
        exact ih.mpr passes

/-- The loop fails with a phase and an error exactly if the callback first fails there, with this
error. -/
theorem passHooks_eq_error_iff {phase : Phase} {error : ε} :
    passHooks callback hooks world = (last, .error (phase, error)) ↔
      FailsFirst callback hooks world last error phase := by
  induction hooks generalizing world with
  | nil =>
    constructor
    · rintro ⟨⟩
    · rintro ⟨split, -, -⟩
      simp at split
  | cons hook rest ih =>
    rw [passHooks]
    rcases called : callback hook world with ⟨next, error' | _⟩
    · constructor
      · rintro ⟨⟩
        exact .intro (List.nil_append _).symm (.nil world) called
      · rintro ⟨split, passes, failed⟩
        -- what fails at once passes no hook before
        cases passes with
        | nil _ =>
          obtain ⟨rfl, rfl⟩ := List.cons.inj split
          cases called.symm.trans failed
          rfl
        | cons succeeded _ =>
          obtain ⟨rfl, -⟩ := List.cons.inj split
          cases called.symm.trans succeeded
    · refine ih.trans ⟨?_, ?_⟩
      · rintro ⟨rfl, passes, failed⟩
        exact .intro (List.cons_append ..).symm (.cons called passes) failed
      · rintro ⟨split, passes, failed⟩
        cases passes with
        | nil _ =>
          obtain ⟨rfl, rfl⟩ := List.cons.inj split
          cases called.symm.trans failed
        | cons succeeded passes =>
          obtain ⟨rfl, rfl⟩ := List.cons.inj split
          cases called.symm.trans succeeded
          exact .intro rfl passes failed

/-- What succeeds at all hooks fails at none. Both are answers of one loop, so there is nothing to
prove about the callback. -/
theorem Passes.not_failsFirst {end' : σ} {error : ε} {phase : Phase}
    (passes : Passes callback hooks world last) :
    ¬ FailsFirst callback hooks world end' error phase := by
  intro fails
  cases (passHooks_eq_ok_iff.mpr passes).symm.trans (passHooks_eq_error_iff.mpr fails)

/-- The first failure is one: its phase and its error are told by the calls. -/
theorem FailsFirst.unique {end' : σ} {error error' : ε} {phase phase' : Phase}
    (fails : FailsFirst callback hooks world last error phase)
    (fails' : FailsFirst callback hooks world end' error' phase') :
    phase = phase' ∧ error = error' := by
  cases (passHooks_eq_error_iff.mpr fails).symm.trans (passHooks_eq_error_iff.mpr fails')
  exact ⟨rfl, rfl⟩

/-- A callback succeeds at all hooks or fails at a first one. There is no third way for a call to
end. -/
theorem passes_or_failsFirst (callback : Hook → σ → σ × Except ε Unit) (hooks : List Hook)
    (world : σ) :
    (∃ last, Passes callback hooks world last) ∨
      ∃ last error phase, FailsFirst callback hooks world last error phase := by
  rcases passed : passHooks callback hooks world with ⟨last, ⟨phase, error⟩ | _⟩
  · exact .inr ⟨last, error, phase, passHooks_eq_error_iff.mp passed⟩
  · exact .inl ⟨last, passHooks_eq_ok_iff.mp passed⟩

end

/-! ## One call -/

namespace Machine

/-- **What one call does to a machine.** -/
structure Lawful (m : Machine) (event : String) (callback : Hook → σ → σ × Except ε Unit)
    (world : σ) (firing : Firing σ ε) : Prop where
  /-- it is refused exactly if the current state does not have the event -/
  refused : (∃ name state, firing.result = .error (.notAdmissible name state)) ↔
    m.can event = false
  /-- a refusal names the event and the state, and the callback has not been called -/
  untouched : m.can event = false →
    firing = ⟨m, world, .error (.notAdmissible event m.current)⟩
  /-- a transition is made exactly if it is the one of the event and the callback succeeds at all of
  its hooks -/
  made : ∀ t, firing.result = .ok t ↔
    m.table.get? event m.current = some t ∧ ∃ last, Passes callback t.hooks world last
  /-- then its target is current, and there were these calls and no others -/
  moved : ∀ t, firing.result = .ok t →
    firing.machine = ⟨m.table, t.target⟩ ∧ Passes callback t.hooks world firing.world
  /-- it is cancelled exactly if the callback fails at a hook of the transition of the event, with
  the phase and the error of the first failure -/
  cancelled : ∀ phase error, firing.result = .error (.cancelled phase error) ↔
    ∃ t, m.table.get? event m.current = some t ∧
      ∃ last, FailsFirst callback t.hooks world last error phase
  /-- then the machine is what it was, and there were no calls behind the failure -/
  kept : ∀ phase error, firing.result = .error (.cancelled phase error) →
    firing.machine = m ∧ ∃ t, m.table.get? event m.current = some t ∧
      FailsFirst callback t.hooks world firing.world error phase

/-- An event is refused exactly if nothing is found for it in the current state. -/
theorem can_eq_false_iff {m : Machine} {event : String} :
    m.can event = false ↔ m.table.get? event m.current = none := by
  rw [can, Option.isSome_eq_false_iff, Option.isNone_iff_eq_none]

/-- An event for which something is found is not refused. -/
theorem can_ne_false_of_found {m : Machine} {event : String} {t : Transition}
    (found : m.table.get? event m.current = some t) : m.can event ≠ false := by
  intro inadmissible
  cases (can_eq_false_iff.mp inadmissible).symm.trans found

section

variable {m : Machine} {event : String} {callback : Hook → σ → σ × Except ε Unit} {world last : σ}

/-- A call for which nothing is found is refused, and leaves the machine and the world alone. -/
theorem fire_of_not_found (absent : m.table.get? event m.current = none) :
    m.fire event callback world = ⟨m, world, .error (.notAdmissible event m.current)⟩ := by
  rw [fire, absent]

/-- A call whose callback succeeds everywhere moves the machine to the target. -/
theorem fire_of_passes {t : Transition} (found : m.table.get? event m.current = some t)
    (passes : Passes callback t.hooks world last) :
    m.fire event callback world = ⟨⟨m.table, t.target⟩, last, .ok t⟩ := by
  rw [fire, found]
  simp only [passHooks_eq_ok_iff.mpr passes]

/-- A cancelled machine is put back to where it was. It is put back to the source of its transition,
which is the current state because the table finds nothing else there. -/
theorem fire_of_failsFirst {t : Transition} {error : ε} {phase : Phase}
    (found : m.table.get? event m.current = some t)
    (fails : FailsFirst callback t.hooks world last error phase) :
    m.fire event callback world = ⟨m, last, .error (.cancelled phase error)⟩ := by
  have back : t.source = m.current := (TransitionTable.key_of_get? found).2
  rw [fire, found]
  simp only [passHooks_eq_error_iff.mpr fails, back]

/-- A refusal is lawful. This and the next two lemmas are the three ways that a call can end, each
with all parts of `Machine.Lawful`. -/
theorem lawful_refusal (absent : m.table.get? event m.current = none) :
    m.Lawful event callback world ⟨m, world, .error (.notAdmissible event m.current)⟩ := by
  refine ⟨⟨fun _ => can_eq_false_iff.mpr absent, fun _ => ⟨event, m.current, rfl⟩⟩, fun _ => rfl,
    ?_, nofun, ?_, nofun⟩
  · intro t
    refine ⟨nofun, ?_⟩
    rintro ⟨found, -⟩
    cases absent.symm.trans found
  · intro phase error
    refine ⟨nofun, ?_⟩
    rintro ⟨t, found, -⟩
    cases absent.symm.trans found

/-- A move is lawful: the transition is what was found, so its event, source and target are those of
the call. -/
theorem lawful_move {t : Transition} (found : m.table.get? event m.current = some t)
    (passes : Passes callback t.hooks world last) :
    m.Lawful event callback world ⟨⟨m.table, t.target⟩, last, .ok t⟩ := by
  have admissible : m.can event ≠ false := can_ne_false_of_found found
  refine ⟨⟨nofun, fun h => absurd h admissible⟩, fun h => absurd h admissible, ?_, ?_, ?_, nofun⟩
  · intro t'
    constructor
    · rintro ⟨⟩
      exact ⟨found, last, passes⟩
    · rintro ⟨found', -⟩
      rw [Option.some.inj (found.symm.trans found')]
  · rintro _ ⟨⟩
    exact ⟨rfl, passes⟩
  · intro phase error
    refine ⟨nofun, ?_⟩
    rintro ⟨t', found', last', fails⟩
    obtain rfl := Option.some.inj (found.symm.trans found')
    exact absurd fails passes.not_failsFirst

/-- A cancelled call is lawful. Its phase and error are those of the first failure, which is
unique. -/
theorem lawful_cancel {t : Transition} {error : ε} {phase : Phase}
    (found : m.table.get? event m.current = some t)
    (fails : FailsFirst callback t.hooks world last error phase) :
    m.Lawful event callback world ⟨m, last, .error (.cancelled phase error)⟩ := by
  have admissible : m.can event ≠ false := can_ne_false_of_found found
  refine ⟨⟨nofun, fun h => absurd h admissible⟩, fun h => absurd h admissible, ?_, nofun, ?_, ?_⟩
  · intro t'
    refine ⟨nofun, ?_⟩
    rintro ⟨found', last', passes⟩
    obtain rfl := Option.some.inj (found.symm.trans found')
    exact absurd fails passes.not_failsFirst
  · intro phase' error'
    constructor
    · rintro ⟨⟩
      exact ⟨t, found, last, fails⟩
    · rintro ⟨t', found', last', fails'⟩
      obtain rfl := Option.some.inj (found.symm.trans found')
      obtain ⟨rfl, rfl⟩ := fails.unique fails'
      rfl
  · rintro _ _ ⟨⟩
    exact ⟨rfl, t, found, fails⟩

end

/-- **Every call is lawful.** What is found decides whether it is refused, and the callback decides
the rest. -/
theorem fire_lawful (m : Machine) (event : String) (callback : Hook → σ → σ × Except ε Unit)
    (world : σ) : m.Lawful event callback world (m.fire event callback world) := by
  rcases found : m.table.get? event m.current with _ | t
  · rw [fire_of_not_found found]
    exact lawful_refusal found
  rcases passes_or_failsFirst callback t.hooks world with
    ⟨last, passes⟩ | ⟨last, error, phase, fails⟩
  · rw [fire_of_passes found passes]
    exact lawful_move found passes
  · rw [fire_of_failsFirst found fails]
    exact lawful_cancel found fails

end Machine

/-! ## Many calls -/

/-- **A path through a table** from a state: each transition is what is found for its event in the
state where the one before it has led. -/
inductive TransitionTable.Path (table : TransitionTable) (start : String) :
    List Transition → String → Prop where
  | here : Path table start [] start
  | onward {made : List Transition} {state : String} {t : Transition} :
      Path table start made state →
      table.get? t.event state = some t →
      Path table start (made ++ [t]) t.target

/-- All transitions of a path are listed in the table, since each of them was found there. -/
theorem TransitionTable.Path.mem_toList {table : TransitionTable} {start state : String}
    {made : List Transition} (path : table.Path start made state) :
    ∀ t ∈ made, t ∈ table.toList := by
  induction path with
  | here => exact fun _ ht => absurd ht List.not_mem_nil
  | onward _ found ih =>
    intro t ht
    rcases List.mem_append.mp ht with ht | ht
    · exact ih t ht
    · rw [List.mem_singleton.mp ht]
      exact mem_of_get? found

/-- A call to a machine: the event, and the callback with what it fails with. -/
structure Attempt (σ : Type u) where
  event : String
  error : Type v
  callback : Hook → σ → σ × Except error Unit

/-- What several calls have come to. -/
structure Journey (σ : Type u) where
  machine : Machine
  world : σ
  /-- the transitions that were made, in order -/
  made : List Transition

/-- What they have come to with one call more. -/
def Journey.go (journey : Journey σ) (attempt : Attempt.{u, v} σ) : Journey σ :=
  let firing := journey.machine.fire attempt.event attempt.callback journey.world
  ⟨firing.machine, firing.world, journey.made ++ firing.result.toOption.toList⟩

namespace Machine

/-- Calls one after the other. -/
def fireAll (m : Machine) (world : σ) (attempts : List (Attempt.{u, v} σ)) : Journey σ :=
  attempts.foldl Journey.go ⟨m, world, []⟩

/-- One call more leaves the table as it is, and makes the path longer by the transition that it
makes, if it makes one. Refused and cancelled calls make none and leave the state, so the path still
ends there. -/
theorem go_path {journey : Journey σ} {start : String} (attempt : Attempt.{u, v} σ)
    (path : journey.machine.table.Path start journey.made journey.machine.current) :
    (journey.go attempt).machine.table = journey.machine.table ∧
      journey.machine.table.Path start (journey.go attempt).made
        (journey.go attempt).machine.current := by
  rw [Journey.go]
  rcases found : journey.machine.table.get? attempt.event journey.machine.current with _ | t
  · rw [fire_of_not_found found]
    exact ⟨rfl, (List.append_nil _).symm ▸ path⟩
  rcases passes_or_failsFirst attempt.callback t.hooks journey.world with
    ⟨last, passes⟩ | ⟨last, error, phase, fails⟩
  · rw [fire_of_passes found passes]
    have named : t.event = attempt.event := (TransitionTable.key_of_get? found).1
    exact ⟨rfl, path.onward (named ▸ found)⟩
  · rw [fire_of_failsFirst found fails]
    exact ⟨rfl, (List.append_nil _).symm ▸ path⟩

/-- After any calls the machine stands at the end of the path that they have made. This is the step
above, call by call. -/
theorem fireAll_path (m : Machine) (world : σ) (attempts : List (Attempt.{u, v} σ)) :
    (m.fireAll world attempts).machine.table = m.table ∧
      m.table.Path m.current (m.fireAll world attempts).made
        (m.fireAll world attempts).machine.current := by
  induction attempts using List.reverseRecOn with
  | nil => exact ⟨rfl, .here⟩
  | append_singleton before attempt ih =>
    obtain ⟨same, path⟩ := ih
    have all : m.fireAll world (before ++ [attempt]) = (m.fireAll world before).go attempt := by
      rw [fireAll, List.foldl_append]
      rfl
    obtain ⟨still, longer⟩ := go_path attempt (same.symm ▸ path)
    rw [all]
    exact ⟨still.trans same, same ▸ longer⟩

/-- **Machines move along paths.** Whatever calls have been made to a machine that started in a
state, it stands at the end of a path of the table, made of the transitions that its calls have
made; and whatever call comes next is lawful. -/
theorem fire_after_any_calls (table : TransitionTable) (initial : String) (world : σ)
    (before : List (Attempt.{u, v} σ)) (next : Attempt.{u, v} σ) :
    let journey := (Machine.mk table initial).fireAll world before
    journey.machine.table = table ∧ table.Path initial journey.made journey.machine.current ∧
      (∀ t ∈ journey.made, t ∈ table.toList) ∧
      journey.machine.Lawful next.event next.callback journey.world
        (journey.machine.fire next.event next.callback journey.world) := by
  obtain ⟨same, path⟩ := fireAll_path ⟨table, initial⟩ world before
  exact ⟨same, path, path.mem_toList, fire_lawful ..⟩

end Machine

end StateMarkup
