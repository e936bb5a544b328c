import StateMarkup.HookKey
import StateMarkup.Transition

/-!
# Firing a transition

A `Machine` has a current state over a transition table. `Machine.fire` takes the transition of an
event through its hooks, one for each of six phases, and asks a callback at each of them. The
callback may change a world of its own, and a failure of it cancels the transition: then no later
hook is passed and the machine stays where it was. Otherwise the target becomes current.

Two phases next to each other may have one key, if an event is named `event` or a state `state`;
then the second of them is left out (`Transition.hooks`).
-/

namespace StateMarkup

universe u v

/-- The steps of a transition. -/
inductive Phase where
  | beforeEvent
  | before
  | enter
  | enterState
  | after
  | afterEvent
deriving DecidableEq, Repr

namespace Phase

/-- The phases in the order in which they are passed. -/
def order : List Phase := [.beforeEvent, .before, .enter, .enterState, .after, .afterEvent]

/-- The hook key of a phase, for an event that moves into a state. -/
def key (phase : Phase) (event target : String) : String :=
  match phase with
  | .beforeEvent => HookKey.beforeEvent
  | .before => HookKey.before event
  | .enter => HookKey.enter target
  | .enterState => HookKey.enterState
  | .after => HookKey.after event
  | .afterEvent => HookKey.afterEvent

/-- True of the phases that are passed with the target as the current state. -/
def isCommitted : Phase → Bool
  | .beforeEvent => false
  | .before => false
  | _ => true

/-- How messages name a phase. -/
def describe : Phase → String
  | .beforeEvent => "before_event"
  | .before => "before"
  | .enter => "enter"
  | .enterState => "enter_state"
  | .after => "after"
  | .afterEvent => "after_event"

end Phase

/-- What a callback is told. -/
structure Hook where
  phase : Phase
  key : String
  event : String
  source : String
  target : String
deriving DecidableEq, Repr

/-- The hooks that remain when each one with the key of the one before it is left out. -/
def skipRepeats (previous : Option String) : List Hook → List Hook
  | [] => []
  | hook :: rest =>
    if previous = some hook.key then skipRepeats previous rest
    else hook :: skipRepeats (some hook.key) rest

namespace Transition

/-- The hook of a transition in a phase. -/
def hook (t : Transition) (phase : Phase) : Hook :=
  ⟨phase, phase.key t.event t.target, t.event, t.source, t.target⟩

/-- The hooks of a transition, in order. -/
def hooks (t : Transition) : List Hook := skipRepeats none (Phase.order.map t.hook)

end Transition

/-- Why a transition was not made. -/
inductive FireError (ε : Type v) where
  /-- the current state has no such event -/
  | notAdmissible (event state : String)
  /-- the callback failed -/
  | cancelled (phase : Phase) (error : ε)
deriving DecidableEq, Repr

/-- The wording of a failure to fire. -/
def FireError.message {ε : Type v} (describe : ε → String) : FireError ε → String
  | .notAdmissible event state => "cannot fire '" ++ event ++ "' from state '" ++ state ++ "'"
  | .cancelled phase error =>
    "transition cancelled during " ++ phase.describe ++ ": " ++ describe error

/-- Passes hooks until the callback fails, and says in which phase it did. -/
def passHooks {σ : Type u} {ε : Type v} (callback : Hook → σ → σ × Except ε Unit) :
    List Hook → σ → σ × Except (Phase × ε) Unit
  | [], world => (world, .ok ())
  | hook :: rest, world =>
    match callback hook world with
    | (world, .ok ()) => passHooks callback rest world
    | (world, .error error) => (world, .error (hook.phase, error))

/-- A current state over a transition table. -/
structure Machine where
  table : TransitionTable
  current : String
deriving DecidableEq

/-- What firing leaves: the machine, the callback's world and the transition that was made, if one
was. -/
structure Firing (σ : Type u) (ε : Type v) where
  machine : Machine
  world : σ
  result : Except (FireError ε) Transition

namespace Machine

/-- Whether the current state has the event. -/
def can (m : Machine) (event : String) : Bool := (m.table.get? event m.current).isSome

/-- Fires an event. -/
def fire {σ : Type u} {ε : Type v} (m : Machine) (event : String)
    (callback : Hook → σ → σ × Except ε Unit) (world : σ) : Firing σ ε :=
  match m.table.get? event m.current with
  | none => ⟨m, world, .error (.notAdmissible event m.current)⟩
  | some t =>
    match passHooks callback t.hooks world with
    | (world, .ok ()) => ⟨⟨m.table, t.target⟩, world, .ok t⟩
    | (world, .error (phase, error)) =>
      ⟨⟨m.table, t.source⟩, world, .error (.cancelled phase error)⟩

end Machine

end StateMarkup
