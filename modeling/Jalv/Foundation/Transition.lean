import Mathlib.Logic.Relation

/-! Transition systems, their invariants, and simulations between them. -/

set_option autoImplicit false

namespace Foundation

variable {σ τ : Type}

structure TransitionSystem (σ : Type) where
  initial : σ → Prop
  step : σ → σ → Prop

namespace TransitionSystem

def Reachable (system : TransitionSystem σ) (state : σ) : Prop :=
  ∃ start, system.initial start ∧ Relation.ReflTransGen system.step start state

theorem Reachable.step {system : TransitionSystem σ} {state next : σ} (reachable : system.Reachable state)
    (stepped : system.step state next) : system.Reachable next := by
  obtain ⟨start, begins, run⟩ := reachable
  exact ⟨start, begins, run.tail stepped⟩

theorem Reachable.steps {system : TransitionSystem σ} {state next : σ} (reachable : system.Reachable state)
    (stepped : Relation.ReflTransGen system.step state next) : system.Reachable next := by
  obtain ⟨start, begins, run⟩ := reachable
  exact ⟨start, begins, run.trans stepped⟩

/-- What holds at the start and is preserved by each step holds in every reachable state. -/
theorem invariant {system : TransitionSystem σ} {holds : σ → Prop}
    (begins : ∀ state, system.initial state → holds state)
    (preserved : ∀ state next, holds state → system.step state next → holds next)
    {state : σ} (reachable : system.Reachable state) : holds state := by
  obtain ⟨start, first, run⟩ := reachable
  induction run with
  | refl => exact begins start first
  | tail _ stepped ih => exact preserved _ _ ih stepped

/-- Every state of the first system is related to one that the second reaches, if each step
of the first is matched by some steps of the second, or by none. -/
theorem Reachable.simulated {first : TransitionSystem σ} {second : TransitionSystem τ} {related : σ → τ → Prop}
    (begins : ∀ state, first.initial state → ∃ image, second.initial image ∧ related state image)
    (matched : ∀ state next image, related state image → first.step state next →
      ∃ after, Relation.ReflTransGen second.step image after ∧ related next after)
    {state : σ} (reachable : first.Reachable state) : ∃ image, second.Reachable image ∧ related state image := by
  obtain ⟨start, initial, run⟩ := reachable
  induction run with
  | refl =>
    obtain ⟨image, starts, relates⟩ := begins start initial
    exact ⟨image, ⟨image, starts, .refl⟩, relates⟩
  | tail _ stepped ih =>
    obtain ⟨image, ⟨origin, starts, before⟩, relates⟩ := ih
    obtain ⟨after, steps, relates⟩ := matched _ _ image relates stepped
    exact ⟨after, ⟨origin, starts, before.trans steps⟩, relates⟩

end TransitionSystem

end Foundation
