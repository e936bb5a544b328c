import StateMarkup.Engine.Notice
import StateMarkup.Registry

/-!
# Hosts

An engine drives an entity that it knows nothing about. What it needs of the entity and of tasks is
a `Host`: how to see the state of the entity in a world, how to store one, and what running a task
does. A task may change the world and the registry in any way, fire events itself and fail; what it
leaves behind it leaves whether it fails or not.
-/

namespace StateMarkup

universe u v

/-- What running a task leaves. -/
structure TaskRun (τ : Type u) (σ : Type v) where
  registry : Registry τ
  world : σ
  /-- what was reported while the task ran -/
  log : List Notice
  /-- the text of the task's failure, if it failed -/
  result : Except String Unit

/-- What an engine needs to know of tasks `τ` and of a world `σ` with an entity in it. -/
structure Host (τ : Type u) (σ : Type v) where
  /-- the state of the entity; none if it has no state at present -/
  state? : σ → Option String
  /-- stores a state, or fails with a text -/
  setState : String → σ → σ × Except String Unit
  /-- runs a task -/
  run : τ → Registry τ → σ → TaskRun τ σ

end StateMarkup
