import Jalv.Console.ParseCommand
import Jalv.Foundation.Transition

/-! The run of the console program, up to its shutdown (`jalv_console.c` and `main.c`).

Signals and the backend post the `done` semaphore at any time. What is typed, what a
command does but to quit, and whether there is a user interface, is left open.
-/

set_option autoImplicit false

namespace Jalv

open Foundation

/-- `handle_command`, where `known` says whether the control that is to be set exists. -/
def handleCommandStatus (status : CommandStatus) (known : Bool) : CommandStatus :=
  match status with
  | .help | .presets | .presetUri | .controls | .monitors => .success
  | .quit => .quit
  | .setIndexValue | .setSymbolValue => if known then .success else .error
  | _ => .error

def processCommand (line : Text) (known : Bool) : Option CommandStatus :=
  (parseCommand line noArguments).map fun (status, _) =>
    if status = .error then .error else handleCommandStatus status known

inductive ConsoleEvent where
  | update
  | processCommand (line : Text)
  | tryWait
  | wait
  | close
  deriving DecidableEq

inductive ConsolePlace where
  | initializing
  | opening
  | opened
  -- The loop of `run_custom_ui`
  | customLoop
  | customUpdate
  | customIdle
  -- The wait of `jalv_frontend_run`
  | waiting
  | blocked
  -- The prompt, with the status of the last command
  | firstUpdate
  | loop (status : CommandStatus)
  | reading (status : CommandStatus)
  | update (status : CommandStatus)
  -- Behind `jalv_frontend_run`
  | closing
  | ended
  deriving DecidableEq

structure ConsoleState where
  place : ConsolePlace
  done : Nat
  world : Bool
  events : List ConsoleEvent

namespace ConsoleState

def log (state : ConsoleState) (event : ConsoleEvent) : ConsoleState :=
  { state with events := state.events ++ [event] }

def tryWait (state : ConsoleState) : Bool × ConsoleState :=
  match state.done with
  | 0 => (false, state.log .tryWait)
  | done + 1 => (true, { state with done }.log .tryWait)

def jalvFrontendClose (state : ConsoleState) : ConsoleState := state.log .close

/-- `jalv_update`, with messages from the process thread left out. -/
def jalvUpdate (state : ConsoleState) : Int × ConsoleState :=
  let state := state.log .update
  if !state.world then (0, state)
  else
    -- Check quit flag and close if set
    let (quit, state) := state.tryWait
    if quit then (-1, state.jalvFrontendClose) else (1, state)

end ConsoleState

structure ConsoleBuild where
  usePoll : Bool
  useSuil : Bool

/-- The steps of the main thread, and posts of the semaphore. If it is careful, `jalv_update` is
only called while the semaphore is at zero. -/
inductive ConsoleStep (build : ConsoleBuild) (nonInteractive : Bool) (careful : Prop) :
    ConsoleState → ConsoleState → Prop where
  | post {state : ConsoleState} : ConsoleStep build nonInteractive careful state { state with done := state.done + 1 }
  | init {state : ConsoleState} (failed : Bool) (initializing : state.place = .initializing) :
      ConsoleStep build nonInteractive careful state
        { state with place := if failed then .closing else .opening }
  -- `jalv_open` initializes the semaphore, also if it fails
  | open {state : ConsoleState} (failed : Bool) (opening : state.place = .opening) :
      ConsoleStep build nonInteractive careful state
        { state with place := if failed then .closing else .opened, done := 0, world := true }
  | customUi {state : ConsoleState} (suil : build.useSuil) (opened : state.place = .opened) :
      ConsoleStep build nonInteractive careful state { state with place := .customLoop }
  | noCustomUi {state : ConsoleState} (opened : state.place = .opened) :
      ConsoleStep build nonInteractive careful state
        { state with place := if nonInteractive then .waiting else .firstUpdate }
  | customLoop {state : ConsoleState} (looping : state.place = .customLoop) :
      ConsoleStep build nonInteractive careful state
        { state.tryWait.2 with place := if state.tryWait.1 then .waiting else .customUpdate }
  | customUpdate {state : ConsoleState} (updates : state.place = .customUpdate)
      (met : careful → state.world → state.done = 0) :
      ConsoleStep build nonInteractive careful state { state.jalvUpdate.2 with place := .customIdle }
  | customIdle {state : ConsoleState} (closed : Bool) (idle : state.place = .customIdle) :
      ConsoleStep build nonInteractive careful state
        { state with place := if closed then .waiting else .customLoop }
  | wait {state : ConsoleState} (waiting : state.place = .waiting) :
      ConsoleStep build nonInteractive careful state { state.log .wait with place := .blocked }
  | wake {state : ConsoleState} {done : Nat} (blocked : state.place = .blocked) (posted : state.done = done + 1) :
      ConsoleStep build nonInteractive careful state { state with place := .closing, done }
  | firstUpdate {state : ConsoleState} (updates : state.place = .firstUpdate)
      (met : careful → state.world → state.done = 0) :
      ConsoleStep build nonInteractive careful state
        { state.jalvUpdate.2 with place := .loop (if state.jalvUpdate.1 < 0 then .quit else .success) }
  | quit {state : ConsoleState} (looping : state.place = .loop .quit) :
      ConsoleStep build nonInteractive careful state { state with place := .closing }
  | loop {state : ConsoleState} {status : CommandStatus} (looping : state.place = .loop status)
      (goes : status ≠ .quit) :
      ConsoleStep build nonInteractive careful state
        { state.tryWait.2 with place := if state.tryWait.1 then .closing else .reading status }
  -- An error of `poll`, or the end of the input without it
  | noInput {state : ConsoleState} {status : CommandStatus} (reading : state.place = .reading status) :
      ConsoleStep build nonInteractive careful state { state with place := .loop .quit }
  | noLine {state : ConsoleState} {status : CommandStatus} (poll : build.usePoll)
      (reading : state.place = .reading status) :
      ConsoleStep build nonInteractive careful state { state with place := .update status }
  | line {state : ConsoleState} {status next : CommandStatus} (line : Text) (known : Bool)
      (reading : state.place = .reading status) (processed : processCommand line known = some next) :
      ConsoleStep build nonInteractive careful state
        { state.log (.processCommand line) with place := if next = .quit then .loop .quit else .update next }
  | update {state : ConsoleState} {status : CommandStatus} (updates : state.place = .update status)
      (met : careful → state.world → state.done = 0) :
      ConsoleStep build nonInteractive careful state { state.jalvUpdate.2 with place := .loop status }
  | close {state : ConsoleState} (closing : state.place = .closing) :
      ConsoleStep build nonInteractive careful state { state.jalvFrontendClose with place := .ended }

def consoleSystem (build : ConsoleBuild) (nonInteractive : Bool) (careful : Prop) : TransitionSystem ConsoleState where
  initial state := state = ⟨.initializing, 0, false, []⟩
  step := ConsoleStep build nonInteractive careful

/-- The program is closed once when it ends, at most once before, and executes nothing behind it. -/
structure ConsoleState.ClosedOnce (state : ConsoleState) : Prop where
  once : state.events.count .close ≤ 1
  last : ∀ before after, state.events = before ++ .close :: after → after = []
  ended : state.place = .ended → state.events.count .close = 1

/-- Nothing is closed before the end of `main`, where it is the last that is executed. -/
def ConsoleState.ClosesLast (state : ConsoleState) : Prop :=
  ∃ before, .close ∉ before ∧
    state.events = before ++ if state.place = .ended then [.close] else []

section

variable {build : ConsoleBuild} {nonInteractive : Bool} {state next : ConsoleState}

theorem ConsoleState.ClosesLast.closedOnce (closes : state.ClosesLast) : state.ClosedOnce := by
  obtain ⟨done, others, events⟩ := closes
  have none : done.count .close = 0 := List.count_eq_zero.mpr others
  have count : state.events.count .close = if state.place = .ended then 1 else 0 := by
    rw [events, List.count_append, none, Nat.zero_add]
    split <;> rfl
  refine ⟨?_, fun before after split => ?_, fun ended => by rw [count, if_pos ended]⟩
  · rw [count]
    split <;> omega
  · rw [events] at split
    by_cases ended : state.place = .ended
    · rw [if_pos ended] at split
      rcases List.eq_nil_or_concat' after with empty | ⟨others', final, rfl⟩
      · exact empty
      -- The close that ends the run is not the one that more is executed behind
      · rw [← List.cons_append, ← List.append_assoc] at split
        have whole : done = before ++ .close :: others' := List.append_inj_left' split rfl
        exact absurd (whole ▸ List.mem_append_right _ List.mem_cons_self) others
    · rw [if_neg ended, List.append_nil] at split
      exact absurd (split ▸ List.mem_append_right _ List.mem_cons_self) others

theorem ConsoleState.ClosesLast.extend (closes : state.ClosesLast) {events : List ConsoleEvent}
    (more : next.events = state.events ++ events) (others : .close ∉ events) (before : state.place ≠ .ended)
    (behind : next.place ≠ .ended) : next.ClosesLast := by
  obtain ⟨done, none, same⟩ := closes
  rw [if_neg before, List.append_nil] at same
  refine ⟨done ++ events, ?_, by rw [more, same, if_neg behind, List.append_nil]⟩
  rw [List.mem_append]
  exact fun member => member.elim none others

theorem ConsoleState.ClosesLast.keep (closes : state.ClosesLast) (same : next.events = state.events)
    (before : state.place ≠ .ended) (behind : next.place ≠ .ended) : next.ClosesLast :=
  closes.extend (same.trans (List.append_nil _).symm) List.not_mem_nil before behind

theorem ConsoleState.tryWait_events (state : ConsoleState) : state.tryWait.2.events = state.events ++ [.tryWait] := by
  unfold tryWait
  cases state.done <;> rfl

theorem ConsoleState.jalvUpdate_events (met : state.world → state.done = 0) :
    ∃ events, state.jalvUpdate.2.events = state.events ++ events ∧ .close ∉ events := by
  obtain ⟨place, done, world, events⟩ := state
  cases world with
  | false => exact ⟨[.update], rfl, by decide⟩
  | true =>
    cases met rfl
    exact ⟨[.update, .tryWait], List.append_assoc events [.update] [.tryWait], by decide⟩

theorem ConsoleStep.closesLast (step : ConsoleStep build nonInteractive True state next)
    (closes : state.ClosesLast) : next.ClosesLast := by
  cases step with
  | post => exact closes
  | init failed here | «open» failed here | customIdle failed here =>
    refine closes.keep rfl (by rw [here]; nofun) ?_
    cases failed <;> nofun
  | customUi _ here | wake here _ | quit here | noInput here | noLine _ here =>
    exact closes.keep rfl (by rw [here]; nofun) nofun
  | noCustomUi here =>
    refine closes.keep rfl (by rw [here]; nofun) ?_
    cases nonInteractive <;> nofun
  | wait here => exact closes.extend rfl (by decide) (by rw [here]; nofun) nofun
  | customLoop here | loop here _ =>
    refine closes.extend state.tryWait_events (by decide) (by rw [here]; nofun) ?_
    cases state.tryWait.1 <;> nofun
  | customUpdate here met | firstUpdate here met | update here met =>
    obtain ⟨events, more, others⟩ := ConsoleState.jalvUpdate_events (met trivial)
    exact closes.extend more others (by rw [here]; nofun) nofun
  | line line known here processed =>
    refine closes.extend rfl (by simp) (by rw [here]; nofun) ?_
    dsimp only
    split <;> nofun
  -- The only step that closes leads to the end, from where no other step goes on
  | close here =>
    obtain ⟨done, none, same⟩ := closes
    rw [if_neg (by rw [here]; nofun), List.append_nil] at same
    exact ⟨done, none, by rw [if_pos rfl, ← same]; rfl⟩

end

/-- In runs in which `jalv_update` is only called while the semaphore is at zero, the program is
closed once. -/
theorem console_closedOnce (build : ConsoleBuild) (nonInteractive : Bool) (state : ConsoleState)
    (reachable : (consoleSystem build nonInteractive True).Reachable state) : state.ClosedOnce := by
  refine ConsoleState.ClosesLast.closedOnce ?_
  refine TransitionSystem.invariant (fun start initial => ?_) (fun _ _ held step => ?_) reachable
  · cases initial
    exact ⟨[], List.not_mem_nil, rfl⟩
  · exact step.closesLast held

theorem consoleStart_reachable (build : ConsoleBuild) (nonInteractive : Bool) (careful : Prop) :
    (consoleSystem build nonInteractive careful).Reachable ⟨.initializing, 0, false, []⟩ :=
  ⟨_, rfl, .refl⟩

/-- A run that is ended with the command to quit. -/
theorem console_closedOnce_test : ∃ state : ConsoleState,
    state.place = .ended ∧ .processCommand quitWord ∈ state.events ∧ state.ClosedOnce := by
  have run := consoleStart_reachable ⟨true, false⟩ false True
  have opened := (run.step (.init false rfl)).step (.open false rfl)
  have reading := ((opened.step (.noCustomUi rfl)).step (.firstUpdate rfl fun _ _ => rfl)).step (.loop rfl nofun)
  have quits := (reading.step (.line quitWord true rfl rfl)).step (.quit rfl)
  exact ⟨_, rfl, by decide, console_closedOnce _ _ _ (quits.step (.close rfl))⟩

/-- The program is closed twice after a post before the first update, and waits on the semaphore
behind the close after a post in the loop. -/
theorem console_refuted :
    (∃ state, (consoleSystem ⟨true, false⟩ false False).Reachable state ∧ state.place = .ended ∧
      state.events.count .close = 2 ∧ ¬ state.ClosedOnce) ∧
    ∃ state, (consoleSystem ⟨true, false⟩ false False).Reachable state ∧
      (∃ before, state.events = before ++ [.close, .tryWait]) ∧ ¬ state.ClosedOnce := by
  have run := consoleStart_reachable ⟨true, false⟩ false False
  have opened := ((run.step (.init false rfl)).step (.open false rfl)).step (.noCustomUi rfl)
  constructor
  · have updated := (opened.step .post).step (.firstUpdate rfl False.elim)
    have ended := (updated.step (.quit rfl)).step (.close rfl)
    exact ⟨_, ended, rfl, rfl, fun closed => absurd (closed.ended rfl) (by decide)⟩
  · have reading := (opened.step (.firstUpdate rfl False.elim)).step (.loop rfl nofun)
    have updated := ((reading.step .post).step (.noLine rfl rfl)).step (.update rfl False.elim)
    have looped := updated.step (.loop rfl nofun)
    refine ⟨_, looped, ⟨[.update, .tryWait, .tryWait, .update, .tryWait], rfl⟩, fun closed => ?_⟩
    cases closed.last [.update, .tryWait, .tryWait, .update, .tryWait] [.tryWait] rfl

end Jalv
