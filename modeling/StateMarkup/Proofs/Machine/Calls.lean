import StateMarkup.Proofs.HookKey
import StateMarkup.Proofs.Machine

/-!
# Which keys a callback is asked for

A machine leaves out a phase only if its key is that of the phase right before it, and still no key
comes twice: two phases can share a key only if they stand next to each other, whatever the event
and the target are called. So the hooks of a transition have the keys of all six phases, each of
them once and where it comes first (`Transition.eachKeyOnce_hooks`).

What a callback is asked for is what a `recording` of it has written down. A callback that never
fails is asked for all hooks of the transition, and one that fails at some call for the hooks up to
this one (`Machine.fire_asks_each_key_once`).
-/

namespace StateMarkup

universe u v

/-! ## The hooks of a transition -/

/-- What remains keeps its order. Phases are skipped and never moved. -/
theorem skipRepeats_sublist (previous : Option String) (hooks : List Hook) :
    (skipRepeats previous hooks).Sublist hooks := by
  fun_induction skipRepeats previous hooks with
  | case1 => exact .slnil
  | case2 hook rest ih => exact ih.cons hook
  | case3 previous hook rest _ ih => exact ih.cons_cons hook

namespace Transition

variable (t : Transition)

/-- The keys of the six phases. -/
def phaseKeys : List String := Phase.order.map fun phase => phase.key t.event t.target

/-- **Each key of a transition has one of the hooks**, that of the first phase with the key. -/
structure EachKeyOnce (hooks : List Hook) : Prop where
  /-- no key comes twice -/
  nodup : (hooks.map Hook.key).Nodup
  /-- the keys are those of the six phases -/
  exactly : ∀ key, key ∈ hooks.map Hook.key ↔ key ∈ t.phaseKeys
  /-- they come in the order of the phases -/
  inOrder : hooks.Sublist (Phase.order.map t.hook)
  /-- no phase before that of a hook has its key -/
  first : ∀ hook ∈ hooks,
    Phase.order.find? (·.key t.event t.target = hook.key) = some hook.phase
  /-- once the target is current it remains so -/
  committed : (hooks.map Hook.phase).Pairwise fun a b => a.isCommitted = true → b.isCommitted = true

/-- Keys that two phases share belong to one hook, so those that remain are all different. The four
cases are whether the event and the target have the keys that all share; in each of them the keys
are written out. -/
theorem nodup_key_hooks : (t.hooks.map Hook.key).Nodup := by
  rw [hooks_eq]
  by_cases event : t.event = "event"
  · by_cases target : t.target = "state" <;>
      simp [hook, Phase.key, HookKey.beforeEvent_eq, HookKey.enterState_eq, event, target]
  · by_cases target : t.target = "state" <;>
      simp [hook, Phase.key, HookKey.beforeEvent_eq, HookKey.afterEvent_eq, HookKey.enterState_eq,
        event, Ne.symm event, target]

/-- Of two phases with one key the first is passed. So a key that stands for two phases is asked for
where the earlier of them has its place. -/
theorem first_phase_of_mem_hooks : ∀ hook ∈ t.hooks,
    Phase.order.find? (·.key t.event t.target = hook.key) = some hook.phase := by
  rw [hooks_eq]
  by_cases event : t.event = "event"
  · by_cases target : t.target = "state" <;>
      simp [hook, Phase.order, Phase.key, HookKey.beforeEvent_eq, HookKey.afterEvent_eq,
        HookKey.enterState_eq, event, target]
  · by_cases target : t.target = "state" <;>
      simp [hook, Phase.order, Phase.key, HookKey.beforeEvent_eq, HookKey.afterEvent_eq,
        HookKey.enterState_eq, event, Ne.symm event, target]

/-- **The hooks of a transition have each of its keys once**, each where it comes first. That hooks
behind a committed one are committed too is a matter of the six phases, and leaving some of them out
does not change it. -/
theorem eachKeyOnce_hooks : t.EachKeyOnce t.hooks where
  nodup := t.nodup_key_hooks
  exactly key := by rw [map_key_hooks, keys, List.mem_eraseDups, phaseKeys]
  inOrder := skipRepeats_sublist none _
  first := t.first_phase_of_mem_hooks
  committed := by
    have order : Phase.order.Pairwise fun a b => a.isCommitted = true → b.isCommitted = true := by
      decide
    have phases : (Phase.order.map t.hook).map Hook.phase = Phase.order := rfl
    have kept := (skipRepeats_sublist none (Phase.order.map t.hook)).map Hook.phase
    rw [phases] at kept
    exact order.sublist kept

end Transition

/-! ## What a callback is asked -/

section

variable {σ : Type u} {ε : Type v}

/-- A callback that also writes down the hooks that it is asked for. -/
def recording (callback : Hook → σ → σ × Except ε Unit) (hook : Hook) :
    σ × List Hook → (σ × List Hook) × Except ε Unit
  | (world, asked) => (((callback hook world).1, asked ++ [hook]), (callback hook world).2)

variable {callback : Hook → σ → σ × Except ε Unit} {hooks asked : List Hook} {world last : σ}

/-- Writing down a call does not change what it comes to. -/
theorem recording_of_eq {hook : Hook} {result : Except ε Unit}
    (called : callback hook world = (last, result)) :
    recording callback hook (world, asked) = ((last, asked ++ [hook]), result) := by
  rw [recording, called]

/-- Writing down does not change how a callback answers, and in the end all hooks have been written
down, in order. -/
theorem Passes.recording (passes : Passes callback hooks world last) :
    Passes (recording callback) hooks (world, asked) (last, asked ++ hooks) := by
  induction passes generalizing asked with
  | nil world => exact (List.append_nil asked).symm ▸ .nil _
  | @cons hook rest world next last called _ ih =>
    have onward := @ih (asked ++ [hook])
    rw [List.append_assoc, List.singleton_append] at onward
    exact .cons (recording_of_eq called) onward

/-- A callback that fails has been asked for the hooks up to this one, and for none behind it. -/
theorem FailsFirst.recording {before later : List Hook} {hook : Hook} {there : σ} {error : ε}
    (passes : Passes callback before world there)
    (failed : callback hook there = (last, .error error)) :
    FailsFirst (recording callback) (before ++ hook :: later) (world, [])
      (last, before ++ [hook]) error hook.phase :=
  .intro rfl passes.recording (recording_of_eq failed)

end

/-- **What a callback is asked for.** There are hooks that have each key of the transition once. A
callback that answers to all of them has been asked for these, in order; and one that fails at some
call has been asked for just as many of them as it has been called. -/
theorem Machine.fire_asks_each_key_once {m : Machine} {event : String} {t : Transition}
    (found : m.table.get? event m.current = some t) :
    t.event = event ∧ ∃ hooks, t.EachKeyOnce hooks ∧
      ∀ {σ : Type u} {ε : Type v} (callback : Hook → σ → σ × Except ε Unit) (world : σ),
        let firing := m.fire event (recording callback) (world, [])
        (∃ last, Passes callback hooks world last ∧
          firing = ⟨⟨m.table, t.target⟩, (last, hooks), .ok t⟩) ∨
        ∃ call, ∃ h : call < hooks.length, ∃ there last error,
          Passes callback (hooks.take call) world there ∧
          callback hooks[call] there = (last, .error error) ∧
          firing =
            ⟨m, (last, hooks.take (call + 1)), .error (.cancelled hooks[call].phase error)⟩ := by
  refine ⟨(TransitionTable.key_of_get? found).1, t.hooks, t.eachKeyOnce_hooks, ?_⟩
  intro σ ε callback world firing
  rcases passes_or_failsFirst callback t.hooks world with
    ⟨last, passes⟩ | ⟨last, error, phase, fails⟩
  · exact .inl ⟨last, passes, fire_of_passes found passes.recording⟩
  · obtain @⟨before, later, hook, there, split, passes, failed⟩ := fails
    -- the call that fails is the one behind those that do not
    have h : before.length < t.hooks.length := by simp [split]
    have here : t.hooks[before.length] = hook := by simp [split]
    have earlier : t.hooks.take before.length = before := by simp [split]
    have upto : t.hooks.take (before.length + 1) = before ++ [hook] := by
      rw [List.take_succ_eq_append_getElem h, earlier, here]
    have fails : FailsFirst (recording callback) (before ++ hook :: later) (world, [])
        (last, before ++ [hook]) error hook.phase := .recording passes failed
    rw [← split] at fails
    refine .inr ⟨before.length, h, there, last, error, earlier.symm ▸ passes,
      here.symm ▸ failed, ?_⟩
    rw [here, upto]
    exact fire_of_failsFirst found fails

/-- An event and a target whose keys are those of all events and of all states, and a callback that
fails at its second call. -/
theorem Machine.fire_asks_each_key_once_of_three :
    let t : Transition := ⟨"event", "new", "state", none, .regular⟩
    let m : Machine := ⟨.ofList [t], "new"⟩
    let callback (hook : Hook) (calls : Nat) : Nat × Except String Unit :=
      (calls + 1, if hook.phase = .enter then .error "no" else .ok ())
    m.table.get? "event" m.current = some t ∧
      (∃ hooks, t.EachKeyOnce hooks ∧
        hooks.map Hook.key = ["before_event", "enter_state", "after_event"]) ∧
      (m.fire "event" (recording callback) (0, [])).world.2.map Hook.key =
        ["before_event", "enter_state"] := by
  intro t m callback
  have found : m.table.get? "event" m.current = some t := by decide
  obtain ⟨-, hooks, once, asks⟩ := Machine.fire_asks_each_key_once found
  refine ⟨found, ⟨hooks, once, ?_⟩, by decide⟩
  -- a callback that never fails shows which hooks these are
  have all : (m.fire "event" (recording fun _ calls => (calls + 1, Except.ok (ε := Empty) ()))
      (0, [])).world.2.map Hook.key = ["before_event", "enter_state", "after_event"] := by decide
  rcases asks (fun _ calls => (calls + 1, Except.ok (ε := Empty) ())) 0 with
    ⟨last, -, fired⟩ | ⟨_, _, _, _, error, -⟩
  · rwa [fired] at all
  · exact error.elim

end StateMarkup
