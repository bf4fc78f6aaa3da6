import Jalv.Foundation.Transition
import Mathlib.Logic.Function.Basic

/-! Calls of any number of threads on one object that a semaphore protects.

A call waits for the semaphore, reads the object, replaces it by what the operation makes of
what was read, and posts the semaphore. The steps of all threads come in any order, so
without the semaphore a call could replace what another has just written.
-/

set_option autoImplicit false

namespace Foundation

variable {θ κ ρ σ : Type}

inductive CallPlace (κ ρ σ : Type) where
  | idle
  | waiting (call : κ)
  | entered (call : κ)
  -- What the thread has read of the object
  | computing (call : κ) (view : σ)
  | leaving (call : κ) (reply : ρ)
  | returning (call : κ) (reply : ρ)

inductive CallEvent (κ ρ : Type) where
  | made (call : κ)
  | done (call : κ) (reply : ρ)
  | returned (call : κ) (reply : ρ)

structure Locked (θ κ ρ σ : Type) where
  object : σ
  sem : Nat
  place : θ → CallPlace κ ρ σ
  history : List (θ × CallEvent κ ρ)

/-- What calls do: with what was read, the call, the reply, and what the object is replaced by. -/
abbrev CallEffect (κ ρ σ : Type) := σ → κ → ρ → σ → Prop

inductive Sequential (effect : CallEffect κ ρ σ) (start : σ) : List (κ × ρ) → σ → Prop where
  | nil : Sequential effect start [] start
  | call {calls : List (κ × ρ)} {before after : σ} {call : κ} {reply : ρ}
      (earlier : Sequential effect start calls before) (does : effect before call reply after) :
      Sequential effect start (calls ++ [(call, reply)]) after

namespace Locked

def start (object : σ) : Locked θ κ ρ σ := ⟨object, 1, fun _ => .idle, []⟩

def record (state : Locked θ κ ρ σ) (thread : θ) (event : CallEvent κ ρ) : Locked θ κ ρ σ :=
  { state with history := state.history ++ [(thread, event)] }

variable [DecidableEq θ]

def move (state : Locked θ κ ρ σ) (thread : θ) (place : CallPlace κ ρ σ) : Locked θ κ ρ σ :=
  { state with place := Function.update state.place thread place }

inductive Step (effect : CallEffect κ ρ σ) : Locked θ κ ρ σ → Locked θ κ ρ σ → Prop where
  | make {state : Locked θ κ ρ σ} {thread : θ} (call : κ) (idle : state.place thread = .idle) :
      Step effect state ((state.move thread (.waiting call)).record thread (.made call))
  | wait {state : Locked θ κ ρ σ} {thread : θ} {call : κ} {sem : Nat}
      (waiting : state.place thread = .waiting call) (posted : state.sem = sem + 1) :
      Step effect state { state.move thread (.entered call) with sem }
  | read {state : Locked θ κ ρ σ} {thread : θ} {call : κ} (entered : state.place thread = .entered call) :
      Step effect state (state.move thread (.computing call state.object))
  | replace {state : Locked θ κ ρ σ} {thread : θ} {call : κ} {view object : σ} {reply : ρ}
      (computing : state.place thread = .computing call view) (does : effect view call reply object) :
      Step effect state ({ state.move thread (.leaving call reply) with object }.record thread (.done call reply))
  | post {state : Locked θ κ ρ σ} {thread : θ} {call : κ} {reply : ρ}
      (leaving : state.place thread = .leaving call reply) :
      Step effect state { state.move thread (.returning call reply) with sem := state.sem + 1 }
  | back {state : Locked θ κ ρ σ} {thread : θ} {call : κ} {reply : ρ}
      (returning : state.place thread = .returning call reply) :
      Step effect state ((state.move thread .idle).record thread (.returned call reply))

def system (begins : σ → Prop) (effect : CallEffect κ ρ σ) : TransitionSystem (Locked θ κ ρ σ) where
  initial state := ∃ object, begins object ∧ state = start object
  step := Step effect

end Locked

def CallPlace.Inside : CallPlace κ ρ σ → Prop
  | .idle | .waiting _ | .returning _ _ => False
  | .entered _ | .computing _ _ | .leaving _ _ => True

def CallPlace.events : CallPlace κ ρ σ → List (CallEvent κ ρ)
  | .idle => []
  | .waiting call | .entered call | .computing call _ => [.made call]
  | .leaving call reply | .returning call reply => [.made call, .done call reply]

def CallEvent.effect? : CallEvent κ ρ → Option (κ × ρ)
  | .done call reply => some (call, reply)
  | .made _ | .returned _ _ => none

def callEvents (call : κ × ρ) : List (CallEvent κ ρ) :=
  [.made call.1, .done call.1 call.2, .returned call.1 call.2]

theorem done_before {calls : List (κ × ρ)} {place : CallPlace κ ρ σ} {before after : List (CallEvent κ ρ)} {call : κ}
    {reply : ρ} (events : calls.flatMap callEvents ++ place.events = before ++ .returned call reply :: after) :
    CallEvent.done call reply ∈ before := by
  induction calls generalizing before with
  | nil =>
    have member : CallEvent.returned call reply ∈ place.events := by
      rw [← List.nil_append place.events, ← List.flatMap_nil, events]
      simp
    cases place <;> simp [CallPlace.events] at member
  | cons first rest ih =>
    rw [List.flatMap_cons, callEvents] at events
    -- the first call is over, and the one that is looked for is this one or a later one
    rcases before with _ | ⟨made, _ | ⟨done, _ | ⟨returned, others⟩⟩⟩
    · simp at events
    · simp at events
    · simp only [List.cons_append, List.nil_append, List.cons.injEq, CallEvent.returned.injEq] at events
      obtain ⟨_, rfl, ⟨rfl, rfl⟩, _⟩ := events
      simp
    · simp only [List.cons_append, List.nil_append, List.cons.injEq] at events
      have found := ih events.2.2.2
      simp [found]

namespace Locked

/-- The calls that have replaced the object, in the order in which they did. -/
def effects (state : Locked θ κ ρ σ) : List (κ × ρ) := state.history.filterMap fun entry => entry.2.effect?

def eventsOf [DecidableEq θ] (state : Locked θ κ ρ σ) (thread : θ) : List (CallEvent κ ρ) :=
  (state.history.filter fun entry => entry.1 = thread).map (·.2)

/-- Either the semaphore is free, or one thread has it. A thread that waits is never
kept out by a semaphore that nobody has. -/
def Exclusive (state : Locked θ κ ρ σ) : Prop :=
  (state.sem = 1 ∧ ∀ thread, ¬ (state.place thread).Inside) ∨
    (state.sem = 0 ∧ ∃ owner, ∀ thread, (state.place thread).Inside ↔ thread = owner)

def Current (state : Locked θ κ ρ σ) : Prop :=
  ∀ thread call view, state.place thread = .computing call view → view = state.object

/-- Each thread has made its calls one after the other, and each call that is over has replaced
the object once before it returned. -/
def Between [DecidableEq θ] (state : Locked θ κ ρ σ) : Prop :=
  ∀ thread, ∃ calls : List (κ × ρ), state.eventsOf thread = calls.flatMap callEvents ++ (state.place thread).events

/-- The threads have used the object as if the calls had been made one after the other, each at
some time between when it was made and when it returned. -/
structure Linearizable [DecidableEq θ] (effect : CallEffect κ ρ σ) (begins : σ → Prop) (state : Locked θ κ ρ σ) :
    Prop where
  exclusive : state.Exclusive
  current : state.Current
  sequential : ∃ object, begins object ∧ Sequential effect object state.effects state.object
  between : state.Between

section

variable {effect : CallEffect κ ρ σ} {state next : Locked θ κ ρ σ} {thread : θ}
  {place : CallPlace κ ρ σ} {event : CallEvent κ ρ}

@[simp] theorem effects_record :
    (state.record thread event).effects = state.effects ++ event.effect?.toList := by
  cases event <;> simp [effects, record, CallEvent.effect?]

theorem Exclusive.alone (exclusive : state.Exclusive) {other : θ} (inside : (state.place thread).Inside)
    (apart : other ≠ thread) : ¬ (state.place other).Inside := by
  rcases exclusive with ⟨_, outside⟩ | ⟨_, owner, only⟩
  · exact outside other
  · rw [only, ← (only thread).mp inside]
    exact apart

variable [DecidableEq θ]

@[simp] theorem move_self : (state.move thread place).place thread = place := Function.update_self ..

theorem move_other {other : θ} (apart : other ≠ thread) :
    (state.move thread place).place other = state.place other := Function.update_of_ne apart ..

theorem eventsOf_record (other : θ) : (state.record thread event).eventsOf other =
    state.eventsOf other ++ if other = thread then [event] else [] := by
  by_cases same : other = thread
  · simp [eventsOf, record, same]
  · simp [eventsOf, record, same, Ne.symm same]

/-- A thread that neither enters nor leaves changes nothing about who has the semaphore. -/
theorem Exclusive.move (exclusive : state.Exclusive) (same : place.Inside ↔ (state.place thread).Inside) :
    (state.move thread place).Exclusive := by
  have inside (other : θ) : ((state.move thread place).place other).Inside ↔ (state.place other).Inside := by
    by_cases here : other = thread
    · rw [here, move_self, same]
    · rw [move_other here]
  rcases exclusive with ⟨free, outside⟩ | ⟨taken, owner, only⟩
  · exact .inl ⟨free, fun other => mt (inside other).mp (outside other)⟩
  · exact .inr ⟨taken, owner, fun other => (inside other).trans (only other)⟩

theorem Exclusive.enter {sem : Nat} (exclusive : state.Exclusive) (posted : state.sem = sem + 1) (inside : place.Inside) :
    Exclusive { state.move thread place with sem } := by
  rcases exclusive with ⟨free, outside⟩ | ⟨taken, _⟩
  · have empty : sem = 0 := by omega
    refine .inr ⟨empty, thread, fun other => ?_⟩
    by_cases here : other = thread
    · simp [here, inside]
    · rw [show ({ state.move thread place with sem } : Locked θ κ ρ σ).place other = state.place other from
        move_other here]
      exact iff_of_false (outside other) here
  · omega

theorem Exclusive.leave (exclusive : state.Exclusive) (inside : (state.place thread).Inside) (outside : ¬ place.Inside) :
    Exclusive { state.move thread place with sem := state.sem + 1 } := by
  rcases exclusive with ⟨_, nobody⟩ | ⟨taken, owner, only⟩
  · exact absurd inside (nobody thread)
  · refine .inl ⟨by simp [taken], fun other => ?_⟩
    by_cases here : other = thread
    · simpa [here] using outside
    · rw [show ({ state.move thread place with sem := state.sem + 1 } : Locked θ κ ρ σ).place other =
        state.place other from move_other here, only other, ← (only thread).mp inside]
      exact here

theorem Step.exclusive (step : Step effect state next) (exclusive : state.Exclusive) : next.Exclusive := by
  cases step with
  | make call idle => exact exclusive.move (by rw [idle]; rfl)
  | wait waiting posted => exact exclusive.enter posted trivial
  | read entered => exact exclusive.move (by rw [entered]; rfl)
  | replace computing does => exact exclusive.move (by rw [computing]; rfl)
  | post leaving => exact exclusive.leave (by rw [leaving]; trivial) id
  | back returning => exact exclusive.move (by rw [returning]; rfl)

theorem Current.move (current : state.Current)
    (read : ∀ call view, place = .computing call view → view = state.object) : (state.move thread place).Current := by
  intro other call view computing
  by_cases here : other = thread
  · rw [here, move_self] at computing
    exact read call view computing
  · rw [move_other here] at computing
    exact current other call view computing

theorem Step.current (step : Step effect state next) (exclusive : state.Exclusive) (current : state.Current) :
    next.Current := by
  cases step with
  | make call idle => exact current.move nofun
  | wait waiting posted => exact current.move nofun
  | read entered => exact current.move fun _ _ same => by cases same; rfl
  | @replace thread call view object reply computing does =>
    -- the object has changed, but nobody else has read it
    intro other _ _ found
    by_cases here : other = thread
    · subst here
      rw [show (({ state.move other (.leaving call reply) with object } : Locked θ κ ρ σ).record other
        (.done call reply)).place other = .leaving call reply from move_self] at found
      cases found
    · rw [show (({ state.move thread (.leaving call reply) with object } : Locked θ κ ρ σ).record thread
        (.done call reply)).place other = state.place other from move_other here] at found
      refine absurd ?_ (exclusive.alone (by rw [computing]; trivial) here)
      rw [found]
      trivial
  | post leaving => exact current.move nofun
  | back returning => exact current.move nofun

theorem Step.sequential {object : σ} (step : Step effect state next) (current : state.Current)
    (sequential : Sequential effect object state.effects state.object) :
    Sequential effect object next.effects next.object := by
  cases step with
  | make call idle =>
    rw [effects_record, CallEvent.effect?, Option.toList_none, List.append_nil]
    exact sequential
  | wait waiting posted => exact sequential
  | read entered => exact sequential
  | @replace thread call view object reply computing does =>
    rw [effects_record]
    exact .call sequential (current thread call view computing ▸ does)
  | post leaving => exact sequential
  | back returning =>
    rw [effects_record, CallEvent.effect?, Option.toList_none, List.append_nil]
    exact sequential

theorem Between.move (between : state.Between) (same : place.events = (state.place thread).events) :
    (state.move thread place).Between := by
  intro other
  obtain ⟨calls, events⟩ := between other
  refine ⟨calls, events.trans ?_⟩
  by_cases here : other = thread
  · rw [here, move_self, same]
  · rw [move_other here]

theorem Between.record (between : state.Between) (added : place.events = (state.place thread).events ++ [event]) :
    ((state.move thread place).record thread event).Between := by
  intro other
  obtain ⟨calls, events⟩ := between other
  rw [eventsOf_record]
  by_cases here : other = thread
  · refine ⟨calls, ?_⟩
    subst here
    rw [if_pos rfl, show ((state.move other place).record other event).place other = place from move_self, added,
      ← List.append_assoc, ← events]
    rfl
  · refine ⟨calls, ?_⟩
    rw [if_neg here, List.append_nil, show ((state.move thread place).record thread event).place other =
      state.place other from move_other here, ← events]
    rfl

theorem Between.back {call : κ} {reply : ρ} (between : state.Between)
    (returning : state.place thread = .returning call reply) :
    ((state.move thread .idle).record thread (.returned call reply)).Between := by
  intro other
  obtain ⟨calls, events⟩ := between other
  rw [eventsOf_record]
  by_cases here : other = thread
  · refine ⟨calls ++ [(call, reply)], ?_⟩
    subst here
    rw [returning] at events
    rw [if_pos rfl, show ((state.move other .idle).record other (.returned call reply)).place other = .idle from
      move_self, show (state.move other .idle).eventsOf other = state.eventsOf other from rfl, events]
    simp [callEvents, CallPlace.events]
  · refine ⟨calls, ?_⟩
    rw [if_neg here, List.append_nil, show ((state.move thread .idle).record thread (.returned call reply)).place other =
      state.place other from move_other here, ← events]
    rfl

theorem Step.between (step : Step effect state next) (between : state.Between) : next.Between := by
  cases step with
  | make call idle => exact between.record (by rw [idle]; rfl)
  | wait waiting posted => exact between.move (by rw [waiting]; rfl)
  | read entered => exact between.move (by rw [entered]; rfl)
  | @replace thread call view object reply computing does =>
    exact Between.record between (by rw [computing]; rfl)
  | post leaving => exact between.move (by rw [leaving]; rfl)
  | back returning => exact between.back returning

theorem Between.done {call : κ} {reply : ρ} {before after : List (θ × CallEvent κ ρ)} (between : state.Between)
    (split : state.history = before ++ (thread, .returned call reply) :: after) :
    (call, reply) ∈ before.filterMap fun entry => entry.2.effect? := by
  obtain ⟨calls, events⟩ := between thread
  simp only [eventsOf, split, List.filter_append, List.map_append] at events
  rw [List.filter_cons_of_pos (by simp), List.map_cons] at events
  obtain ⟨⟨other, event⟩, member, same⟩ := List.mem_map.mp (done_before events.symm)
  simp only at same
  subst same
  exact List.mem_filterMap.mpr ⟨_, (List.mem_filter.mp member).1, rfl⟩

/-- However the steps of the threads come, the calls are made one after the other. -/
theorem linearizable {begins : σ → Prop} (reachable : (system begins effect).Reachable state) :
    state.Linearizable effect begins := by
  let holds (state : Locked θ κ ρ σ) : Prop := state.Exclusive ∧ state.Current ∧ state.Between ∧
    ∃ object, begins object ∧ Sequential effect object state.effects state.object
  have kept : holds state := by
    refine TransitionSystem.invariant ?_ ?_ reachable
    · rintro _ ⟨object, first, rfl⟩
      exact ⟨.inl ⟨rfl, fun _ => id⟩, nofun, fun _ => ⟨[], rfl⟩, object, first, .nil⟩
    · rintro state next ⟨exclusive, current, between, object, first, sequential⟩ step
      exact ⟨step.exclusive exclusive, step.current exclusive current, step.between between, object, first,
        step.sequential current sequential⟩
  exact ⟨kept.1, kept.2.1, kept.2.2.2, kept.2.2.1⟩

/-- A call that no other thread comes in between of. -/
theorem reachable_call {begins : σ → Prop} {reply : ρ} {object : σ} (thread : θ) (call : κ)
    (reachable : (system begins effect).Reachable state) (idle : state.place thread = .idle) (free : state.sem = 1)
    (does : effect state.object call reply object) :
    (system begins effect).Reachable
      { state with object, history := state.history ++ (callEvents (call, reply)).map fun event => (thread, event) } := by
  obtain ⟨before, sem, place, history⟩ := state
  subst free
  have made := reachable.step (.make call idle)
  have waited := made.step (Step.wait (Function.update_self ..) rfl)
  have read := waited.step (.read (Function.update_self ..))
  have done := read.step (.replace (Function.update_self ..) does)
  have posted := done.step (.post (Function.update_self ..))
  have returned := posted.step (.back (Function.update_self ..))
  have same : (Function.update (Function.update (Function.update (Function.update (Function.update (Function.update
      place thread (.waiting call)) thread (.entered call)) thread (.computing call before)) thread
      (.leaving call reply)) thread (.returning call reply)) thread .idle : θ → CallPlace κ ρ σ) = place := by
    simp only [Function.update_idem]
    exact Function.update_eq_self_iff.mpr idle.symm
  simp only [move, record, List.append_assoc, same] at returned
  exact returned

end

end Locked

end Foundation
