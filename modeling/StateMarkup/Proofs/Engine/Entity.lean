import StateMarkup.Proofs.Engine.Pass
import StateMarkup.Script
import StateMarkup.Simulation

/-!
# Entities that store states

What a host has to promise about its entity before anything can be said of the entity's state:
`Host.Stores`. The hosts of scripts and of simulations keep the promise.
-/

namespace StateMarkup

universe u v

variable {τ : Type u} {σ : Type v}

/-- **An entity with a state.** In every world the entity carries the state `stateName`, whether it
shows it at present or not. What it shows is what it carries. A new state is stored, or it is
refused and the old one stays. -/
structure Host.Stores (host : Host τ σ) (stateName : σ → String) : Prop where
  shown : ∀ {world : σ} {state : String}, host.state? world = some state → stateName world = state
  stored : ∀ {world after : σ} {old state : String}, host.state? world = some old →
    host.setState state world = (after, .ok ()) → stateName after = state
  refused : ∀ {world after : σ} {old state cause : String}, host.state? world = some old →
    host.setState state world = (after, .error cause) → stateName after = stateName world

/-- A pass that succeeds leaves the entity in its target, whatever its tasks have done. -/
theorem PassCourse.stateName_eq {host : Host τ σ} {stateName : σ → String}
    (laws : host.Stores stateName) {slots : List Slot} {event target state : String}
    {p : Progress τ σ} {pass : Pass τ σ} (course : PassCourse host slots event target p pass)
    (ok : pass.result = .ok state) : stateName pass.progress.world = target := by
  obtain ⟨-, _, _, shown, set⟩ := course.stored ok
  exact laws.stored shown set

/-- What a puppet shows is its state, and it stores a state or keeps the one it has. -/
theorem Script.still_stores : Script.still.Stores (·.puppet.state) where
  shown := by
    intro scene state h
    simp only [still, Puppet.state?] at h
    split at h
    · exact Option.some.inj h
    · cases h
  stored := by
    intro scene after _ state _ h
    simp only [still, Scene.setState, Puppet.setState] at h
    split at h <;> cases h
    rfl
  refused := by
    intro scene after _ state cause _ h
    simp only [still, Scene.setState, Puppet.setState] at h
    split at h <;> cases h
    rfl

/-- So does the host that lets tasks fire events themselves: what these do to the entity happens
inside a task, and nothing is promised about that here. -/
theorem Script.host_stores (engine : Engine) (levels : Nat) :
    (Script.host engine levels).Stores (·.puppet.state) := by
  cases levels with
  | zero => exact still_stores
  | succ _ => exact ⟨still_stores.shown, still_stores.stored, still_stores.refused⟩

/-- The entity of a simulation is its state, and it never refuses one. -/
theorem Simulation.host_stores : Simulation.host.Stores (·.state) where
  shown h := Option.some.inj h
  stored := by
    intro _ _ _ _ _ h
    cases h
    rfl
  refused := by
    intro _ _ _ _ _ _ h
    cases h

end StateMarkup
