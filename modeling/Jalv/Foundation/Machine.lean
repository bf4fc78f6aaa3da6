import Mathlib.Data.List.Basic

/-! Machines that answer each input with one output, and what they answer to a list of inputs. -/

set_option autoImplicit false

namespace Foundation

structure Machine (σ ι ο : Type) where
  start : σ
  step : σ → ι → σ × ο

namespace Machine

variable {σ ι ο : Type} (machine : Machine σ ι ο)

def stateFrom : σ → List ι → σ := List.foldl fun state input => (machine.step state input).1

def outputsFrom : σ → List ι → List ο
  | _, [] => []
  | state, input :: rest => (machine.step state input).2 :: outputsFrom (machine.step state input).1 rest

def state (inputs : List ι) : σ := machine.stateFrom machine.start inputs

def outputs (inputs : List ι) : List ο := machine.outputsFrom machine.start inputs

theorem state_concat (inputs : List ι) (input : ι) :
    machine.state (inputs ++ [input]) = (machine.step (machine.state inputs) input).1 := by
  rw [state, stateFrom, List.foldl_append]
  rfl

theorem outputsFrom_append (first second : List ι) (state : σ) :
    machine.outputsFrom state (first ++ second) =
      machine.outputsFrom state first ++ machine.outputsFrom (machine.stateFrom state first) second := by
  induction first generalizing state with
  | nil => rfl
  | cons input rest ih => exact congrArg (_ :: ·) (ih _)

theorem outputs_concat (inputs : List ι) (input : ι) :
    machine.outputs (inputs ++ [input]) = machine.outputs inputs ++ [(machine.step (machine.state inputs) input).2] :=
  machine.outputsFrom_append inputs [input] machine.start

theorem length_outputs (inputs : List ι) : (machine.outputs inputs).length = inputs.length := by
  rw [outputs]
  generalize machine.start = state
  induction inputs generalizing state with
  | nil => rfl
  | cons input rest ih => exact congrArg (· + 1) (ih _)

end Machine

end Foundation
