import Jalv.Backend.Pause

/-! The rounds of pausing and resuming, without the rest of the state of both threads.

Here the plugin may be one that can be restored while it runs, in which case it is
not paused. Of the messages that have not been applied, only those matter that change
the run state.
-/

set_option autoImplicit false

namespace Jalv

open Foundation

def ApplyPhase.Free : ApplyPhase → Prop
  | .idle | .ready false | .restoring false | .restored false | .requested false => True
  | _ => False

def ApplyPhase.Holding : ApplyPhase → Prop
  | .ready true | .restoring true | .restored true | .requested true => True
  | _ => False

structure PausePoint where
  safeRestore : Bool
  apply : ApplyPhase
  cycle : CyclePhase
  queue : List Handshake.Command
  paused : Bool
  posts : Nat

def PausePoint.obey (point : PausePoint) (queue : List Handshake.Command) : Handshake.Command → PausePoint
  | .pause => { point with queue, paused := true, posts := point.posts + 1 }
  | .resume => { point with queue, paused := false }

/-- The steps of both threads. If the waits are late, they only end when no running cycle has
yet to get past `lilv_instance_run`, and if the calls are settled, they only begin when there is
no command to resume. -/
inductive PausePoint.Step (late settled : Prop) : PausePoint → PausePoint → Prop where
  | stay {point : PausePoint} : Step late settled point point
  | begin {point : PausePoint} (idle : point.apply = .idle) (met : settled → .resume ∉ point.queue) :
      Step late settled point
        { point with apply := if !point.safeRestore && !point.paused then .pausing else .ready false }
  | pause {point : PausePoint} (pausing : point.apply = .pausing) :
      Step late settled point { point with apply := .waiting, queue := point.queue ++ [.pause] }
  | wait {point : PausePoint} {posts : Nat} (waiting : point.apply = .waiting) (posted : point.posts = posts + 1)
      (met : late → ¬ point.cycle.Busy) :
      Step late settled point { point with apply := .ready true, posts }
  | restore {point : PausePoint} {mustPause : Bool} (ready : point.apply = .ready mustPause) :
      Step late settled point { point with apply := .restoring mustPause }
  | finish {point : PausePoint} {mustPause : Bool} (restoring : point.apply = .restoring mustPause) :
      Step late settled point { point with apply := .restored mustPause }
  | request {point : PausePoint} {mustPause : Bool} (restored : point.apply = .restored mustPause) :
      Step late settled point { point with apply := .requested mustPause }
  | resume {point : PausePoint} (requested : point.apply = .requested true) :
      Step late settled point { point with apply := .idle, queue := point.queue ++ [.resume] }
  | leave {point : PausePoint} (requested : point.apply = .requested false) :
      Step late settled point { point with apply := .idle }
  | enter {point : PausePoint} (idle : point.cycle = .idle) :
      Step late settled point { point with cycle := if point.paused then .silent else .running }
  | move {point : PausePoint} {cycle : CyclePhase} (quiet : cycle.Busy → point.cycle.Busy) :
      Step late settled point { point with cycle }
  | obey {point : PausePoint} {cycle : CyclePhase} {queue : List Handshake.Command} (command : Handshake.Command)
      (first : point.queue = command :: queue) (quiet : cycle.Busy → point.cycle.Busy) :
      Step late settled point { point.obey queue command with cycle }

theorem UiMessage.mem_of_command {messages : List UiMessage} {command : Handshake.Command}
    {queue : List Handshake.Command} (same : messages.filterMap UiMessage.command = queue)
    (member : command ∈ queue) :
    .runStateChange (match command with | .pause => .paused | .resume => .running) ∈ messages := by
  subst same
  obtain ⟨message, found, same⟩ := List.mem_filterMap.mp member
  cases message with
  | runStateChange runState =>
    cases runState <;> cases same <;> exact found
  | controlPortChange | eventTransfer | stateRequest => cases same

structure PauseState.At (state : PauseState) (point : PausePoint) : Prop where
  small : state.uiToPlugin.capacity < 2 ^ 32
  queue : state.cycle.Commands state.uiToPlugin.content point.queue
  safeRestore : point.safeRestore = state.jalv.safeRestore
  apply : point.apply = state.apply
  cycle : point.cycle = state.cycle
  paused : point.paused = decide (state.jalv.process.runState = .paused)
  posts : point.posts = state.jalv.process.paused

section

variable {backend : JalvBackend} {late settled : Prop} {state next : PauseState} {point : PausePoint}

theorem PauseState.At.sends {ring : ZixRing} {message : UiMessage} (here : state.At point)
    (sent : Sends state.uiToPlugin ring message) :
    PauseState.At { state with uiToPlugin := ring } { point with queue := point.queue ++ message.command.toList } := by
  exact { here with
    small := sent.content.1 ▸ here.small
    queue := here.queue.sends sent }

theorem PauseState.At.sends_other {ring : ZixRing} {message : UiMessage} (here : state.At point)
    (none : message.command = none) (sent : Sends state.uiToPlugin ring message) :
    PauseState.At { state with uiToPlugin := ring } point := by
  have sends := here.sends sent
  rwa [none, Option.toList_none, List.append_nil] at sends

theorem PauseState.At.move (here : state.At point) (cycle : CyclePhase) (whole : state.cycle.Whole)
    (still : cycle.Whole) : PauseState.At { state with cycle } { point with cycle } :=
  { here with queue := here.queue.move whole still, cycle := rfl }

theorem PauseState.At.applies {works : Bool} {loop after : ApplyLoop} {process : JalvProcess}
    {uiToPlugin : ZixRing} (here : state.At point) (applying : state.cycle = .applying works loop)
    (step : loop.next state.jalv.process state.uiToPlugin = some (after, process, uiToPlugin)) :
    ∃ next, point.Step late settled next ∧ PauseState.At
      { state with jalv := { state.jalv with process }, uiToPlugin, cycle := .applying works after } next := by
  have quiet : (CyclePhase.applying works after).Busy → point.cycle.Busy := by
    rw [here.cycle, applying]
    cases works <;> exact id
  obtain ⟨pending, waits, queue⟩ := here.queue
  rw [applying] at waits
  obtain ⟨capacity, left, effect, waits⟩ := ApplyLoop.next_effect here.small waits step
  have small := capacity ▸ here.small
  have obeys := effect.obeys
  rw [← queue] at obeys
  generalize commands : left.filterMap UiMessage.command = rest at obeys
  let image : Handshake.State := ⟨rest, point.paused, point.posts, .idle, .idle⟩
  have tracks : state.jalv.process.Tracks image := ⟨here.paused, here.posts⟩
  cases obeys with
  | none same =>
    have tracks := same image tracks
    exact ⟨_, .move quiet, { here with
      small
      queue := ⟨left, waits, commands.symm⟩
      cycle := rfl
      paused := tracks.paused
      posts := tracks.posts }⟩
  | obey command first obeyed =>
    have tracks := obeyed image tracks
    refine ⟨_, .obey command first quiet, ?_⟩
    cases command <;> exact { here with
      small
      queue := ⟨left, waits, commands.symm⟩
      cycle := rfl
      paused := tracks.paused
      posts := tracks.posts }

theorem JalvImpl.mustPause_eq (jalv : JalvImpl) :
    jalv.mustPause = (!jalv.safeRestore && !decide (jalv.process.runState = .paused)) := by
  have other : decide (jalv.process.runState = .running) = !decide (jalv.process.runState = .paused) := by
    cases jalv.process.runState <;> rfl
  rw [JalvImpl.mustPause, other]

/-- Each step of the two threads leads to the next point. -/
theorem PauseStep.moves (here : state.At point) (step : PauseStep backend late False state next)
    (met : settled → state.apply = .idle → next.apply = .idle) :
    ∃ after, point.Step late settled after ∧ next.At after := by
  cases step with
  | send message idle other sent =>
    exact ⟨point, .stay, here.sends_other (UiMessage.command_of_other other) sent⟩
  | begin idle _ =>
    have unsettled : ¬ settled := fun careful => by
      have still := met careful idle
      split at still <;> cases still
    refine ⟨_, .begin (here.apply.trans idle) fun careful => absurd careful unsettled, { here with apply := ?_ }⟩
    rw [here.safeRestore, here.paused, ← state.jalv.mustPause_eq]
  | pause pausing sent =>
    exact ⟨_, .pause (here.apply.trans pausing), { here.sends sent with apply := rfl }⟩
  | wait waiting posted quiet =>
    have late : late → ¬ point.cycle.Busy := fun careful => by
      rw [here.cycle]
      exact quiet careful
    refine ⟨_, .wait (here.apply.trans waiting) (here.posts.trans posted) late, ?_⟩
    exact { here with apply := rfl, posts := rfl }
  | restore ready => exact ⟨_, .restore (here.apply.trans ready), { here with apply := rfl }⟩
  | value symbol atom restoring set =>
    obtain ⟨⟨_, _, _, rfl⟩, sends⟩ := setPortValue_frame set
    rcases sends with rfl | ⟨_, _, sent⟩
    · exact ⟨point, .stay, { here with }⟩
    · exact ⟨point, .stay, { here.sends_other rfl sent with }⟩
  | finish restoring => exact ⟨_, .finish (here.apply.trans restoring), { here with apply := rfl }⟩
  | request restored sent =>
    split at sent
    · exact ⟨_, .request (here.apply.trans restored), { here.sends_other rfl sent with apply := rfl }⟩
    · subst sent
      exact ⟨_, .request (here.apply.trans restored), { here with apply := rfl }⟩
  | resume requested sent => exact ⟨_, .resume (here.apply.trans requested), { here.sends sent with apply := rfl }⟩
  | leave requested => exact ⟨_, .leave (here.apply.trans requested), { here with apply := rfl }⟩
  | enter idle =>
    have there := here.move (if state.jalv.process.runState = .paused then .silent else .running)
      (idle ▸ trivial) (by split <;> trivial)
    refine ⟨_, .enter (here.cycle.trans idle), { there with cycle := ?_ }⟩
    simp only [here.paused, decide_eq_true_eq]
  | bypass nframes silent => exact ⟨_, .move False.elim, here.move _ (silent ▸ trivial) trivial⟩
  | prepare cycle running prepared =>
    obtain ⟨ports, pre, _, rfl⟩ := processCbPrepare_eq_some_iff.mp prepared
    have there := here.move (.applying true (.start state.uiToPlugin cycle.nframes))
      (running ▸ trivial) trivial
    refine ⟨_, .move fun _ => ?_, { there with }⟩
    rw [here.cycle, running]
    trivial
  | applyUiEvents applying step => exact here.applies applying step
  | @bypassed loop pst applying returned =>
    have whole : loop.place.Whole := returned ▸ trivial
    exact ⟨_, .move False.elim, here.move _ (applying ▸ whole) trivial⟩
  | @call loop pst applying returned =>
    have whole : loop.place.Whole := returned ▸ trivial
    refine ⟨_, .move fun _ => ?_, here.move _ (applying ▸ whole) trivial⟩
    rw [here.cycle, applying]
    trivial
  | finishCycle output calling done =>
    obtain ⟨_, _, ports, post, _, rfl⟩ := processCbEnd_cases done
    have there := here.move .idle (calling ▸ trivial) trivial
    exact ⟨_, .move False.elim, { there with }⟩

end

end Jalv
