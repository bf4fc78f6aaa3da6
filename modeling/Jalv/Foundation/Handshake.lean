import Jalv.Foundation.Transition

/-! A handshake between a controller and a worker.

The worker obeys commands from a queue at the start of each of its cycles, one by one, and
works in the rest of the cycle unless it was paused before. It posts a semaphore for each
command to pause. The controller sends such a command and waits for the semaphore
before it changes what the worker works on, and lets the worker resume afterwards.
-/

set_option autoImplicit false

namespace Foundation

namespace Handshake

inductive Command where | pause | resume
  deriving DecidableEq, Repr

inductive Controller where
  | idle
  | pausing
  | waiting
  | ready (mustResume : Bool)
  | changing (mustResume : Bool)
  | changed (mustResume : Bool)
  deriving DecidableEq, Repr

inductive Worker where
  | idle
  | entered (works : Bool)
  | obeyed
  | working
  deriving DecidableEq, Repr

structure State where
  queue : List Command
  paused : Bool
  posts : Nat
  controller : Controller
  worker : Worker
  deriving DecidableEq

def State.obey (state : State) : Command → State
  | .pause => { state with paused := true, posts := state.posts + 1 }
  | .resume => { state with paused := false }

def Worker.Busy : Worker → Prop
  | .idle | .entered false => False
  | .entered true | .obeyed | .working => True

/-- The steps of both. If the waits are late, a wait only ends when the worker is not busy,
and if the calls are apart, a call only begins when the worker is not paused. -/
inductive Step (late apart : Prop) : State → State → Prop where
  | call {state : State} (idle : state.controller = .idle) (met : apart → state.paused = false) :
      Step late apart state { state with controller := if state.paused then .ready false else .pausing }
  | pause {state : State} (pausing : state.controller = .pausing) :
      Step late apart state { state with controller := .waiting, queue := state.queue ++ [.pause] }
  | wait {state : State} {posts : Nat} (waiting : state.controller = .waiting) (posted : state.posts = posts + 1)
      (met : late → ¬ state.worker.Busy) :
      Step late apart state { state with controller := .ready true, posts }
  | change {state : State} {mustResume : Bool} (ready : state.controller = .ready mustResume) :
      Step late apart state { state with controller := .changing mustResume }
  | finish {state : State} {mustResume : Bool} (changing : state.controller = .changing mustResume) :
      Step late apart state { state with controller := .changed mustResume }
  | resume {state : State} (changed : state.controller = .changed true) :
      Step late apart state { state with controller := .idle, queue := state.queue ++ [.resume] }
  | leave {state : State} (changed : state.controller = .changed false) :
      Step late apart state { state with controller := .idle }
  | enter {state : State} (idle : state.worker = .idle) :
      Step late apart state { state with worker := .entered (!state.paused) }
  | obey {state : State} {works : Bool} {command : Command} {queue : List Command}
      (entered : state.worker = .entered works) (first : state.queue = command :: queue) :
      Step late apart state (State.obey { state with queue } command)
  | pass {state : State} {works : Bool} (entered : state.worker = .entered works) :
      Step late apart state { state with worker := if works then .obeyed else .idle }
  | work {state : State} (obeyed : state.worker = .obeyed) :
      Step late apart state { state with worker := .working }
  | rest {state : State} (working : state.worker = .working) :
      Step late apart state { state with worker := .idle }

def system (late apart : Prop) : TransitionSystem State where
  initial state := state.queue = [] ∧ state.paused = false ∧ state.posts = 0 ∧ state.controller = .idle ∧
    (state.worker = .idle ∨ state.worker = .entered false)
  step := Step late apart

def State.Exclusive (state : State) : Prop :=
  ∀ mustResume, ¬ (state.controller = .changing mustResume ∧ state.worker = .working)

inductive Stage : State → Prop where
  -- The worker is not paused, and will not be.
  | free {state : State} (controller : state.controller = .idle ∨ state.controller = .pausing)
      (queue : state.queue = []) (paused : state.paused = false) (posts : state.posts = 0) : Stage state
  | asked {state : State} (controller : state.controller = .waiting)
      (queue : state.queue = [.pause]) (paused : state.paused = false) (posts : state.posts = 0) : Stage state
  -- The worker has posted the semaphore, and may still be in the cycle in which it did.
  | posted {state : State} (controller : state.controller = .waiting)
      (queue : state.queue = []) (paused : state.paused = true) (posts : state.posts = 1) : Stage state
  | held {state : State} (controller : state.controller = .ready true ∨ state.controller = .changing true ∨
        state.controller = .changed true)
      (queue : state.queue = []) (paused : state.paused = true) (posts : state.posts = 0)
      (quiet : ¬ state.worker.Busy) : Stage state
  | released {state : State} (controller : state.controller = .idle)
      (queue : state.queue = [.resume]) (paused : state.paused = true) (posts : state.posts = 0)
      (quiet : ¬ state.worker.Busy) : Stage state

section

variable {state next : State}

theorem Worker.not_busy_entered {works : Bool} (quiet : ¬ (Worker.entered works).Busy) : works = false := by
  cases works with
  | false => rfl
  | true => exact absurd trivial quiet

theorem Stage.exclusive (stage : Stage state) : state.Exclusive := by
  rintro mustResume ⟨changing, working⟩
  cases stage with
  | free controller => rcases controller with same | same <;> rw [same] at changing <;> cases changing
  | asked controller | posted controller | released controller =>
    rw [controller] at changing
    cases changing
  | held _ _ _ _ quiet => exact quiet (working ▸ trivial)

theorem Stage.initial {late apart : Prop} (begins : (system late apart).initial state) : Stage state := by
  obtain ⟨queue, paused, posts, controller, _⟩ := begins
  exact .free (Or.inl controller) queue paused posts

theorem Stage.enter (stage : Stage state) : Stage { state with worker := .entered (!state.paused) } := by
  cases stage with
  | free controller queue paused posts => exact .free controller queue paused posts
  | asked controller queue paused posts => exact .asked controller queue paused posts
  | posted controller queue paused posts => exact .posted controller queue paused posts
  | held controller queue paused posts =>
    exact .held controller queue paused posts (by rw [paused]; exact id)
  | released controller queue paused posts =>
    exact .released controller queue paused posts (by rw [paused]; exact id)

theorem Stage.obey {command : Command} {queue : List Command} (stage : Stage state)
    (first : state.queue = command :: queue) : Stage (State.obey { state with queue } command) := by
  cases stage with
  | free _ empty | posted _ empty | held _ empty =>
    rw [empty] at first
    cases first
  | asked controller single paused posts =>
    rw [single] at first
    cases first
    exact .posted controller rfl rfl (congrArg (· + 1) posts)
  | released controller single paused posts =>
    rw [single] at first
    cases first
    exact .free (Or.inl controller) rfl rfl posts

theorem Stage.pass {works : Bool} (stage : Stage state) (entered : state.worker = .entered works) :
    Stage { state with worker := if works then .obeyed else .idle } := by
  have quiet (busy : ¬ state.worker.Busy) : ¬ (if works then Worker.obeyed else .idle).Busy := by
    rw [entered] at busy
    rw [Worker.not_busy_entered busy]
    exact id
  cases stage with
  | free controller queue paused posts => exact .free controller queue paused posts
  | asked controller queue paused posts => exact .asked controller queue paused posts
  | posted controller queue paused posts => exact .posted controller queue paused posts
  | held controller queue paused posts busy => exact .held controller queue paused posts (quiet busy)
  | released controller queue paused posts busy => exact .released controller queue paused posts (quiet busy)

theorem Stage.work (stage : Stage state) (obeyed : state.worker = .obeyed) :
    Stage { state with worker := .working } := by
  cases stage with
  | free controller queue paused posts => exact .free controller queue paused posts
  | asked controller queue paused posts => exact .asked controller queue paused posts
  | posted controller queue paused posts => exact .posted controller queue paused posts
  | held _ _ _ _ quiet | released _ _ _ _ quiet => exact absurd (obeyed ▸ trivial) quiet

theorem Stage.rest (stage : Stage state) : Stage { state with worker := .idle } := by
  cases stage with
  | free controller queue paused posts => exact .free controller queue paused posts
  | asked controller queue paused posts => exact .asked controller queue paused posts
  | posted controller queue paused posts => exact .posted controller queue paused posts
  | held controller queue paused posts => exact .held controller queue paused posts id
  | released controller queue paused posts => exact .released controller queue paused posts id

theorem Stage.call (stage : Stage state) (idle : state.controller = .idle) (running : state.paused = false) :
    Stage { state with controller := if state.paused then .ready false else .pausing } := by
  cases stage with
  | free _ queue paused posts => exact .free (Or.inr (by rw [running]; rfl)) queue paused posts
  | asked controller | posted controller =>
    rw [idle] at controller
    cases controller
  | held controller => rcases controller with same | same | same <;> rw [idle] at same <;> cases same
  | released _ _ paused =>
    rw [running] at paused
    cases paused

theorem Stage.pause (stage : Stage state) (pausing : state.controller = .pausing) :
    Stage { state with controller := .waiting, queue := state.queue ++ [.pause] } := by
  cases stage with
  | free _ queue paused posts => exact .asked rfl (by rw [queue]; rfl) paused posts
  | asked controller | posted controller | released controller =>
    rw [pausing] at controller
    cases controller
  | held controller => rcases controller with same | same | same <;> rw [pausing] at same <;> cases same

theorem Stage.wait {posts : Nat} (stage : Stage state) (posted : state.posts = posts + 1)
    (quiet : ¬ state.worker.Busy) :
    Stage { state with controller := .ready true, posts } := by
  cases stage with
  | free _ _ _ none | asked _ _ _ none | held _ _ _ none | released _ _ _ none =>
    rw [none] at posted
    cases posted
  | posted _ queue paused single =>
    rw [single] at posted
    exact .held (Or.inl rfl) queue paused (Nat.succ.inj posted).symm quiet

theorem Stage.of_mustResume {mustResume : Bool} (stage : Stage state)
    (controller : state.controller = .ready mustResume ∨ state.controller = .changing mustResume ∨
      state.controller = .changed mustResume) :
    mustResume = true ∧ state.queue = [] ∧ state.paused = true ∧ state.posts = 0 ∧ ¬ state.worker.Busy := by
  cases stage with
  | free other => rcases controller with same | same | same <;> rcases other with idle | pausing <;> simp_all
  | asked other | posted other | released other =>
    rcases controller with same | same | same <;> rw [other] at same <;> cases same
  | held other queue paused posts quiet =>
    refine ⟨?_, queue, paused, posts, quiet⟩
    rcases controller with same | same | same <;> rcases other with ready | changing | changed <;> simp_all

/-- Every step of a run with late waits and calls that are apart leads to the next stage. -/
theorem Step.stage (stage : Stage state) (step : Step True True state next) : Stage next := by
  cases step with
  | call idle met => exact stage.call idle (met trivial)
  | pause pausing => exact stage.pause pausing
  | wait _ posted met => exact stage.wait posted (met trivial)
  | change ready =>
    obtain ⟨rfl, queue, paused, posts, quiet⟩ := stage.of_mustResume (Or.inl ready)
    exact .held (Or.inr (Or.inl rfl)) queue paused posts quiet
  | finish changing =>
    obtain ⟨rfl, queue, paused, posts, quiet⟩ := stage.of_mustResume (Or.inr (Or.inl changing))
    exact .held (Or.inr (Or.inr rfl)) queue paused posts quiet
  | resume changed =>
    obtain ⟨_, queue, paused, posts, quiet⟩ := stage.of_mustResume (Or.inr (Or.inr changed))
    exact .released rfl (by rw [queue]; rfl) paused posts quiet
  | leave changed =>
    obtain ⟨impossible, _⟩ := stage.of_mustResume (Or.inr (Or.inr changed))
    cases impossible
  | enter idle => exact stage.enter
  | obey entered first => exact stage.obey first
  | pass entered => exact stage.pass entered
  | work obeyed => exact stage.work obeyed
  | rest working => exact stage.rest

/-- With late waits and calls that are apart, nothing is changed while the worker works. -/
theorem exclusive (reachable : (system True True).Reachable state) : state.Exclusive := by
  have stage : Stage state := TransitionSystem.invariant (fun _ => Stage.initial)
    (fun _ _ stage step => step.stage stage) reachable
  exact stage.exclusive

end

end Handshake

end Foundation
