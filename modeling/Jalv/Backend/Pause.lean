import Jalv.Backend.Cycle
import Jalv.Backend.Host
import Jalv.Foundation.Handshake
import Jalv.Host.State
import Jalv.Process.Loop

/-! Pausing the plugin while its state is restored (`jalv_apply_state` of `state.c`).

Both threads take their steps in any order. A cycle of the process thread is split
behind the point where it reads the run state, between the read and the effect of each
message in `apply_ui_events`, and where `lilv_instance_run` is called. All messages
find room in the rings.
-/

set_option autoImplicit false

namespace Jalv

open Foundation

/-- How far the main thread is in `jalv_apply_state`. The flags are `must_pause`. -/
inductive ApplyPhase where
  | idle
  | pausing
  | waiting
  | ready (mustPause : Bool)
  -- In `lilv_state_restore`
  | restoring (mustPause : Bool)
  | restored (mustPause : Bool)
  | requested (mustPause : Bool)
  deriving DecidableEq

inductive CyclePhase where
  | idle
  | silent
  | running
  -- In `apply_ui_events`, in a cycle that runs the plugin or in one that does not
  | applying (works : Bool) (loop : ApplyLoop)
  -- In `lilv_instance_run`
  | calling (pst : JalvProcessStatus) (nframes : UInt32)
  deriving DecidableEq

structure PauseState extends JackHost where
  apply : ApplyPhase
  cycle : CyclePhase

def JalvImpl.mustPause (jalv : JalvImpl) : Bool := !jalv.safeRestore && jalv.process.runState = .running

-- A running cycle has not got past `lilv_instance_run`.
def CyclePhase.Busy : CyclePhase → Prop
  | .idle | .silent | .applying false _ => False
  | .running | .applying true _ | .calling _ _ => True

/-- The steps of both threads. If the waits are late, `zix_sem_wait` only returns when no
running cycle has yet to get past `lilv_instance_run`, and if the calls are apart,
`jalv_apply_state` only begins while the run state is running. -/
inductive PauseStep (backend : JalvBackend) (late apart : Prop) : PauseState → PauseState → Prop where
  | send {state : PauseState} {uiToPlugin : ZixRing} (message : UiMessage) (idle : state.apply = .idle)
      (other : ∀ runState, message ≠ .runStateChange runState) (sent : Sends state.uiToPlugin uiToPlugin message) :
      PauseStep backend late apart state { state with uiToPlugin }
  | begin {state : PauseState} (idle : state.apply = .idle)
      (met : apart → state.jalv.process.runState = .running) :
      PauseStep backend late apart state
        { state with apply := if state.jalv.mustPause then .pausing else .ready false }
  | pause {state : PauseState} {uiToPlugin : ZixRing} (pausing : state.apply = .pausing)
      (sent : Sends state.uiToPlugin uiToPlugin (.runStateChange .paused)) :
      PauseStep backend late apart state { state with uiToPlugin, apply := .waiting }
  | wait {state : PauseState} {paused : Nat} (waiting : state.apply = .waiting)
      (posted : state.jalv.process.paused = paused + 1) (met : late → ¬ state.cycle.Busy) :
      PauseStep backend late apart state
        { state with jalv := { state.jalv with process := { state.jalv.process with paused } }, apply := .ready true }
  | restore {state : PauseState} {mustPause : Bool} (ready : state.apply = .ready mustPause) :
      PauseStep backend late apart state { state with apply := .restoring mustPause }
  | value {state : PauseState} {mustPause : Bool} {jalv : JalvImpl} {uiToPlugin pluginToUi : ZixRing}
      (symbol : Text) (atom : Atom) (restoring : state.apply = .restoring mustPause)
      (set : setPortValue state.jalv state.uiToPlugin state.pluginToUi symbol atom =
        some (jalv, uiToPlugin, pluginToUi)) :
      PauseStep backend late apart state { state with jalv, uiToPlugin, pluginToUi }
  | finish {state : PauseState} {mustPause : Bool} (restoring : state.apply = .restoring mustPause) :
      PauseStep backend late apart state { state with apply := .restored mustPause }
  | request {state : PauseState} {mustPause : Bool} {uiToPlugin : ZixRing}
      (restored : state.apply = .restored mustPause)
      (sent : if state.jalv.process.controlIn ≠ uint32Max then Sends state.uiToPlugin uiToPlugin .stateRequest
        else uiToPlugin = state.uiToPlugin) :
      PauseStep backend late apart state { state with uiToPlugin, apply := .requested mustPause }
  | resume {state : PauseState} {uiToPlugin : ZixRing} (requested : state.apply = .requested true)
      (sent : Sends state.uiToPlugin uiToPlugin (.runStateChange .running)) :
      PauseStep backend late apart state { state with uiToPlugin, apply := .idle }
  | leave {state : PauseState} (requested : state.apply = .requested false) :
      PauseStep backend late apart state { state with apply := .idle }
  | enter {state : PauseState} (idle : state.cycle = .idle) :
      PauseStep backend late apart state
        { state with cycle := if state.jalv.process.runState = .paused then .silent else .running }
  | bypass {state : PauseState} (nframes : UInt32) (silent : state.cycle = .silent) :
      PauseStep backend late apart state { state with cycle := .applying false (.start state.uiToPlugin nframes) }
  | prepare {state : PauseState} {jack : JackProcess} (cycle : JackCycle) (running : state.cycle = .running)
      (prepared : processCbPrepare backend state.jack cycle = some jack) :
      PauseStep backend late apart state
        ⟨state.processed jack, state.apply, .applying true (.start state.uiToPlugin cycle.nframes)⟩
  | applyUiEvents {state : PauseState} {works : Bool} {loop after : ApplyLoop} {process : JalvProcess}
      {uiToPlugin : ZixRing} (applying : state.cycle = .applying works loop)
      (step : loop.next state.jalv.process state.uiToPlugin = some (after, process, uiToPlugin)) :
      PauseStep backend late apart state
        { state with jalv := { state.jalv with process }, uiToPlugin, cycle := .applying works after }
  | bypassed {state : PauseState} {loop : ApplyLoop} {pst : JalvProcessStatus}
      (applying : state.cycle = .applying false loop) (returned : loop.place = .returned pst) :
      PauseStep backend late apart state { state with cycle := .idle }
  | call {state : PauseState} {loop : ApplyLoop} {pst : JalvProcessStatus}
      (applying : state.cycle = .applying true loop) (returned : loop.place = .returned pst) :
      PauseStep backend late apart state { state with cycle := .calling pst loop.nframes }
  | finishCycle {state : PauseState} {jack : JackProcess} {pst : JalvProcessStatus} {nframes : UInt32}
      {midi : List (Nat × JackMidiEvent)} (output : PluginOutput) (calling : state.cycle = .calling pst nframes)
      (done : processCbEnd backend pst state.jack nframes output = some (jack, midi)) :
      PauseStep backend late apart state ⟨state.processed jack, state.apply, .idle⟩

def UiMessage.command : UiMessage → Option Handshake.Command
  | .runStateChange .paused => some .pause
  | .runStateChange .running => some .resume
  | .controlPortChange _ _ | .eventTransfer _ _ | .stateRequest => none

theorem UiMessage.command_of_other {message : UiMessage} (other : ∀ runState, message ≠ .runStateChange runState) :
    message.command = none := by
  cases message with
  | runStateChange runState => exact absurd rfl (other runState)
  | controlPortChange | eventTransfer | stateRequest => rfl

/-- Runs of a plugin that cannot be restored while it runs, from its activation on. The
backend may have begun a cycle before. -/
def pauseSystem (backend : JalvBackend) (late apart : Prop) : TransitionSystem PauseState where
  initial state := state.jalv.safeRestore = false ∧ state.jalv.process.runState = .running ∧
    state.jalv.process.paused = 0 ∧ state.apply = .idle ∧ (state.cycle = .idle ∨ state.cycle = .silent) ∧
    state.uiToPlugin.capacity < 2 ^ 32 ∧
    ∃ messages, state.uiToPlugin.content = stream UiMessage.encode messages ∧
      ∀ message ∈ messages, message.command = none
  step := PauseStep backend late apart

/-- `lilv_instance_run` is not in progress during `lilv_state_restore` and its callbacks. -/
def PauseState.Exclusive (state : PauseState) : Prop :=
  ∀ mustPause pst nframes, ¬ (state.apply = .restoring mustPause ∧ state.cycle = .calling pst nframes)

def ApplyPhase.controller : ApplyPhase → Handshake.Controller
  | .idle => .idle
  | .pausing => .pausing
  | .waiting => .waiting
  | .ready mustPause => .ready mustPause
  | .restoring mustPause => .changing mustPause
  | .restored mustPause | .requested mustPause => .changed mustPause

def CyclePhase.worker : CyclePhase → Handshake.Worker
  | .idle => .idle
  | .silent => .entered false
  | .running => .entered true
  | .applying works _ => .entered works
  | .calling _ _ => .working

def CyclePhase.Pending (content : List Byte) (pending : List UiMessage) : CyclePhase → Prop
  | .applying _ loop => loop.place.Pending content pending
  | .idle | .silent | .running | .calling _ _ => content = stream UiMessage.encode pending

theorem CyclePhase.worker_busy (cycle : CyclePhase) : cycle.worker.Busy ↔ cycle.Busy := by
  cases cycle with
  | applying works loop => cases works <;> rfl
  | idle | silent | running | calling => rfl

-- The process thread is not between the read of a message and its effect.
def CyclePhase.Whole : CyclePhase → Prop
  | .applying _ loop => loop.place.Whole
  | .idle | .silent | .running | .calling _ _ => True

def CyclePhase.Commands (cycle : CyclePhase) (content : List Byte) (commands : List Handshake.Command) : Prop :=
  ∃ pending, cycle.Pending content pending ∧ commands = pending.filterMap UiMessage.command

structure JalvProcess.Tracks (proc : JalvProcess) (image : Handshake.State) : Prop where
  paused : image.paused = decide (proc.runState = .paused)
  posts : image.posts = proc.paused

structure PauseState.Follows (state : PauseState) (image : Handshake.State) : Prop where
  restore : state.jalv.safeRestore = false
  small : state.uiToPlugin.capacity < 2 ^ 32
  queue : state.cycle.Commands state.uiToPlugin.content image.queue
  paused : image.paused = decide (state.jalv.process.runState = .paused)
  posts : image.posts = state.jalv.process.paused
  controller : image.controller = state.apply.controller
  worker : image.worker = state.cycle.worker

section

variable {cycle after : CyclePhase} {content : List Byte}

theorem CyclePhase.pending_of_whole {pending : List UiMessage} (whole : cycle.Whole) :
    cycle.Pending content pending ↔ content = stream UiMessage.encode pending := by
  cases cycle with
  | applying works loop => exact ApplyPlace.pending_of_whole whole
  | idle | silent | running | calling => exact Iff.rfl

theorem CyclePhase.Pending.append {pending : List UiMessage} (waits : cycle.Pending content pending)
    (message : UiMessage) : cycle.Pending (content ++ message.encode) (pending ++ [message]) := by
  cases cycle with
  | applying works loop => exact ApplyPlace.Pending.append waits message
  | idle | silent | running | calling =>
    have content : _ = stream UiMessage.encode pending := waits
    rw [content]
    exact (stream_concat _ _ _).symm

theorem CyclePhase.Pending.unique {pending other : List UiMessage} (waits : cycle.Pending content pending)
    (further : cycle.Pending content other) : pending = other := by
  cases cycle with
  | applying works loop => exact ApplyPlace.Pending.unique waits further
  | idle | silent | running | calling => exact UiMessage.stream_injective (Eq.trans (Eq.symm waits) further)

theorem CyclePhase.Commands.move {commands : List Handshake.Command} (waits : cycle.Commands content commands)
    (whole : cycle.Whole) (still : after.Whole) : after.Commands content commands := by
  obtain ⟨pending, waits, same⟩ := waits
  exact ⟨pending, (pending_of_whole still).mpr ((pending_of_whole whole).mp waits), same⟩

theorem CyclePhase.Commands.sends {commands : List Handshake.Command} {ring next : ZixRing} {message : UiMessage}
    (waits : cycle.Commands ring.content commands) (sent : Sends ring next message) :
    cycle.Commands next.content (commands ++ message.command.toList) := by
  obtain ⟨pending, waits, same⟩ := waits
  obtain ⟨_, content, _⟩ := sent.content
  refine ⟨pending ++ [message], content ▸ waits.append message, ?_⟩
  rw [List.filterMap_append, same]
  cases command : message.command <;> simp [command]

end

section

variable {proc next : JalvProcess} {nframes : UInt32} {image : Handshake.State}

theorem MessageEffect.tracks {message : UiMessage} (tracks : proc.Tracks image)
    (effect : MessageEffect proc nframes next message) :
    next.Tracks (message.command.elim image image.obey) := by
  cases effect with
  | controlPortChange _ same => exact same ▸ ⟨tracks.paused, tracks.posts⟩
  | eventTransfer appended =>
    obtain ⟨_, _, _, _, rfl⟩ := appendEvent_cases appended
    exact ⟨tracks.paused, tracks.posts⟩
  | stateRequest _ _ _ appended =>
    obtain ⟨_, _, _, _, rfl⟩ := appendEvent_cases appended
    exact ⟨tracks.paused, tracks.posts⟩
  | @runStateChange state same =>
    subst same
    cases state with
    | running => exact ⟨rfl, tracks.posts⟩
    | paused => exact ⟨rfl, congrArg (· + 1) tracks.posts⟩

inductive LoopObeys (proc next : JalvProcess) (queue : List Handshake.Command) : List Handshake.Command → Prop where
  | none (same : ∀ image, proc.Tracks image → next.Tracks image) : LoopObeys proc next queue queue
  | obey (command : Handshake.Command) {left : List Handshake.Command} (first : queue = command :: left)
      (obeyed : ∀ image, proc.Tracks image → next.Tracks (image.obey command)) : LoopObeys proc next queue left

theorem ApplyLoop.Effect.obeys {pending left : List UiMessage} (effect : Effect proc next nframes pending left) :
    LoopObeys proc next (pending.filterMap UiMessage.command) (left.filterMap UiMessage.command) := by
  cases effect with
  | reads processMsg same => exact .none fun image tracks => same ▸ ⟨tracks.paused, tracks.posts⟩
  | @applies message _ first effect =>
    have does (image : Handshake.State) (tracks : proc.Tracks image) := effect.tracks tracks
    rw [first, List.filterMap_cons]
    cases command : message.command with
    | none =>
      simp only [command, Option.elim] at does
      exact .none does
    | some first =>
      simp only [command, Option.elim] at does
      exact .obey first rfl does

end

section

variable {backend : JalvBackend} {late apart : Prop} {state next : PauseState} {image : Handshake.State}

theorem PauseState.Follows.tracks (follows : state.Follows image) : state.jalv.process.Tracks image :=
  ⟨follows.paused, follows.posts⟩

theorem PauseState.Follows.controller_at {apply : ApplyPhase} (follows : state.Follows image)
    (here : state.apply = apply) : image.controller = apply.controller := by
  rw [follows.controller, here]

theorem PauseState.Follows.worker_at {cycle : CyclePhase} (follows : state.Follows image)
    (here : state.cycle = cycle) : image.worker = cycle.worker := by
  rw [follows.worker, here]

theorem PauseState.Follows.queue_at {cycle after : CyclePhase} (follows : state.Follows image)
    (here : state.cycle = cycle) (whole : cycle.Whole) (still : after.Whole) :
    after.Commands state.uiToPlugin.content image.queue := by
  have queue := follows.queue
  rw [here] at queue
  exact queue.move whole still

theorem PauseState.Follows.sends {ring : ZixRing} {message : UiMessage} (follows : state.Follows image)
    (sent : Sends state.uiToPlugin ring message) :
    ring.capacity < 2 ^ 32 ∧ state.cycle.Commands ring.content (image.queue ++ message.command.toList) := by
  exact ⟨sent.content.1 ▸ follows.small, follows.queue.sends sent⟩

theorem PauseState.Follows.applies {works : Bool} {loop after : ApplyLoop} {process : JalvProcess}
    {uiToPlugin : ZixRing} (follows : state.Follows image) (applying : state.cycle = .applying works loop)
    (step : loop.next state.jalv.process state.uiToPlugin = some (after, process, uiToPlugin)) :
    ∃ after', Relation.ReflTransGen (Handshake.Step late apart) image after' ∧
      PauseState.Follows
        { state with jalv := { state.jalv with process }, uiToPlugin, cycle := .applying works after } after' := by
  have worker : image.worker = .entered works := follows.worker_at applying
  obtain ⟨pending, waits, queue⟩ := follows.queue
  rw [applying] at waits
  obtain ⟨capacity, left, effect, waits⟩ := ApplyLoop.next_effect follows.small waits step
  have small := capacity ▸ follows.small
  have obeys := effect.obeys
  rw [← queue] at obeys
  generalize commands : left.filterMap UiMessage.command = rest at obeys
  cases obeys with
  | none same =>
    have tracks := same image follows.tracks
    exact ⟨image, .refl, { follows with
      small
      queue := ⟨left, waits, commands.symm⟩
      paused := tracks.paused
      posts := tracks.posts
      worker }⟩
  | obey command first obeyed =>
    have emptied : state.jalv.process.Tracks { image with queue := rest } := ⟨follows.paused, follows.posts⟩
    have tracks := obeyed _ emptied
    refine ⟨_, .single (.obey worker first), { follows with
      small
      queue := ⟨left, waits, ?_⟩
      paused := tracks.paused
      posts := tracks.posts
      controller := ?_
      worker := ?_ }⟩
    · rw [commands]
      cases command <;> rfl
    · cases command <;> exact follows.controller
    · cases command <;> exact worker

-- Each step of the two threads is a step of the controller or the worker, or of neither.
theorem PauseStep.follows (follows : state.Follows image) (step : PauseStep backend late apart state next) :
    ∃ after, Relation.ReflTransGen (Handshake.Step late apart) image after ∧ next.Follows after := by
  cases step with
  | send message idle other sent =>
    obtain ⟨small, queue⟩ := follows.sends sent
    rw [UiMessage.command_of_other other, Option.toList_none, List.append_nil] at queue
    exact ⟨image, .refl, { follows with small, queue }⟩
  -- The program reads the run state here, and the handshake its flag
  | begin idle met =>
    have controller : image.controller = .idle := follows.controller_at idle
    have running : apart → image.paused = false := fun careful => by
      rw [follows.paused, met careful]
      rfl
    refine ⟨_, .single (.call controller running), { follows with controller := ?_ }⟩
    simp only [follows.paused, JalvImpl.mustPause, follows.restore]
    cases state.jalv.process.runState <;> rfl
  | pause pausing sent =>
    obtain ⟨small, queue⟩ := follows.sends sent
    have controller : image.controller = .pausing := follows.controller_at pausing
    exact ⟨_, .single (.pause controller), { follows with small, queue, controller := rfl }⟩
  | wait waiting posted met =>
    have controller : image.controller = .waiting := follows.controller_at waiting
    have quiet : late → ¬ image.worker.Busy := fun careful => by
      rw [follows.worker, CyclePhase.worker_busy]
      exact met careful
    refine ⟨_, .single (.wait controller (follows.posts.trans posted) quiet), ?_⟩
    exact { follows with posts := rfl, controller := rfl }
  | @restore mustPause ready =>
    have controller : image.controller = .ready mustPause := follows.controller_at ready
    exact ⟨_, .single (.change controller), { follows with controller := rfl }⟩
  -- Values of ports may be sent to the process thread, but no commands
  | @value _ jalv _ _ symbol atom restoring set =>
    obtain ⟨⟨_, _, _, rfl⟩, sends⟩ := setPortValue_frame set
    rcases sends with rfl | ⟨_, _, sent⟩
    · exact ⟨image, .refl, { follows with }⟩
    · obtain ⟨small, queue⟩ := follows.sends sent
      rw [UiMessage.command, Option.toList_none, List.append_nil] at queue
      exact ⟨image, .refl, { follows with small, queue }⟩
  | @finish mustPause restoring =>
    have controller : image.controller = .changing mustPause := follows.controller_at restoring
    exact ⟨_, .single (.finish controller), { follows with controller := rfl }⟩
  | @request mustPause uiToPlugin restored sent =>
    have controller : image.controller = .changed mustPause := follows.controller_at restored
    split at sent
    · obtain ⟨small, queue⟩ := follows.sends sent
      rw [UiMessage.command, Option.toList_none, List.append_nil] at queue
      exact ⟨image, .refl, { follows with small, queue, controller }⟩
    · subst sent
      exact ⟨image, .refl, { follows with controller }⟩
  | resume requested sent =>
    obtain ⟨small, queue⟩ := follows.sends sent
    have controller : image.controller = .changed true := follows.controller_at requested
    exact ⟨_, .single (.resume controller), { follows with small, queue, controller := rfl }⟩
  | leave requested =>
    have controller : image.controller = .changed false := follows.controller_at requested
    exact ⟨_, .single (.leave controller), { follows with controller := rfl }⟩
  | enter idle =>
    have worker : image.worker = .idle := follows.worker_at idle
    refine ⟨_, .single (.enter worker), { follows with queue := follows.queue_at idle trivial ?_, worker := ?_ }⟩
    · split <;> trivial
    · rw [follows.paused]
      cases state.jalv.process.runState <;> rfl
  | bypass nframes silent =>
    have worker : image.worker = .entered false := follows.worker_at silent
    exact ⟨image, .refl, { follows with queue := follows.queue_at silent trivial trivial, worker }⟩
  | prepare cycle running prepared =>
    obtain ⟨ports, pre, _, rfl⟩ := processCbPrepare_eq_some_iff.mp prepared
    have worker : image.worker = .entered true := follows.worker_at running
    exact ⟨image, .refl, { follows with queue := follows.queue_at running trivial trivial, worker }⟩
  | applyUiEvents applying step => exact follows.applies applying step
  | @bypassed loop pst applying returned =>
    have worker : image.worker = .entered false := follows.worker_at applying
    have whole : loop.place.Whole := returned ▸ trivial
    exact ⟨_, .single (.pass worker),
      { follows with queue := follows.queue_at applying whole trivial, worker := rfl }⟩
  | @call loop pst applying returned =>
    have worker : image.worker = .entered true := follows.worker_at applying
    have whole : loop.place.Whole := returned ▸ trivial
    exact ⟨_, .head (.pass worker) (.single (.work rfl)),
      { follows with queue := follows.queue_at applying whole trivial, worker := rfl }⟩
  | finishCycle output calling done =>
    have worker : image.worker = .working := follows.worker_at calling
    obtain ⟨_, _, ports, post, _, rfl⟩ := processCbEnd_cases done
    exact ⟨_, .single (.rest worker),
      { follows with queue := follows.queue_at calling trivial trivial, worker := rfl }⟩

end

/-- In runs in which calls of `jalv_apply_state` are apart and their waits are late, the
plugin is never run while its state is restored. -/
theorem restore_exclusive (backend : JalvBackend) (state : PauseState)
    (reachable : (pauseSystem backend True True).Reachable state) : state.Exclusive := by
  have begins (state : PauseState) (initial : (pauseSystem backend True True).initial state) :
      ∃ image, (Handshake.system True True).initial image ∧ state.Follows image := by
    obtain ⟨restore, running, posts, idle, cycle, small, messages, content, none⟩ := initial
    have whole : state.cycle.Whole := by rcases cycle with same | same <;> rw [same] <;> trivial
    refine ⟨⟨[], false, 0, .idle, state.cycle.worker⟩, ⟨rfl, rfl, rfl, rfl, ?_⟩, ?_⟩
    · exact cycle.imp (fun same => by rw [same]; rfl) fun same => by rw [same]; rfl
    · exact {
        restore := restore
        small := small
        queue := ⟨messages, (CyclePhase.pending_of_whole whole).mpr content,
          (List.filterMap_eq_nil_iff.mpr none).symm⟩
        paused := by rw [running]; rfl
        posts := posts.symm
        controller := by rw [idle]; rfl
        worker := rfl }
  -- Restoring and running are where the controller changes and the worker works
  obtain ⟨image, reached, follows⟩ := TransitionSystem.Reachable.simulated begins
    (fun _ _ _ follows step => step.follows follows) reachable
  rintro mustPause pst nframes ⟨restoring, calling⟩
  refine Handshake.exclusive reached mustPause ⟨?_, ?_⟩
  · rw [follows.controller, restoring]
    rfl
  · rw [follows.worker, calling]
    rfl

section

variable {backend : JalvBackend} {late apart : Prop} {state : PauseState}

theorem PauseState.steps_apply (works : Bool) {first last : ApplyLoop × JalvProcess × ZixRing}
    (steps : Relation.ReflTransGen ApplyLoop.Step first last) :
    Relation.ReflTransGen (PauseStep backend late apart)
      { state with
        jalv := { state.jalv with process := first.2.1 }
        uiToPlugin := first.2.2
        cycle := .applying works first.1 }
      { state with
        jalv := { state.jalv with process := last.2.1 }
        uiToPlugin := last.2.2
        cycle := .applying works last.1 } :=
  steps.lift
    (fun at_ : ApplyLoop × JalvProcess × ZixRing =>
      { state with
        jalv := { state.jalv with process := at_.2.1 }, uiToPlugin := at_.2.2, cycle := .applying works at_.1 })
    fun _ _ step => .applyUiEvents rfl step

theorem PauseState.steps_begun {jack : JackProcess} {pst : JalvProcessStatus} (cycle : JackCycle)
    (running : state.cycle = .running) (begun : processCbBegin backend state.jack cycle = some (pst, jack)) :
    Relation.ReflTransGen (PauseStep backend late apart) state
      ⟨state.processed jack, state.apply,
        .applying true ⟨cycle.nframes, state.uiToPlugin.readSpace, .returned pst⟩⟩ := by
  obtain ⟨prepared, prepares, rest⟩ := Option.bind_eq_some_iff.mp begun
  obtain ⟨⟨status, proc, uiToPlugin⟩, applied, same⟩ := Option.bind_eq_some_iff.mp rest
  cases same
  obtain ⟨ports, pre, _, rfl⟩ := processCbPrepare_eq_some_iff.mp prepares
  have applies := @PauseState.steps_apply backend late apart { state with pluginToUi := pre.pluginToUi } true _ _
    (applyUiEvents_steps applied)
  exact applies.head (.prepare cycle running prepares)

theorem PauseState.steps_bypassed {process : JalvProcess} {uiToPlugin : ZixRing} (nframes : UInt32)
    (silent : state.cycle = .silent)
    (bypassed : jalvBypass state.jalv.process state.uiToPlugin nframes = some (process, uiToPlugin)) :
    Relation.ReflTransGen (PauseStep backend late apart) state
      { state with jalv := { state.jalv with process }, uiToPlugin, cycle := .idle } := by
  obtain ⟨⟨status, proc, ring⟩, applied, same⟩ := Option.map_eq_some_iff.mp bypassed
  cases same
  have applies := @PauseState.steps_apply backend late apart state false _ _ (applyUiEvents_steps applied)
  exact (applies.head (.bypass nframes silent)).tail (.bypassed rfl rfl)

end

def pauseTestState : PauseState where
  jalv := { lookupTestHost with process := { lookupTestHost.process with runState := .running } }
  uiToPlugin := .empty 4095
  pluginToUi := .empty 4095
  apply := .idle
  cycle := .idle

def pauseTestOutput : PluginOutput := ⟨fun _ => 0, fun _ => 0, fun _ => 0, fun _ _ => 0⟩

theorem pauseTestState_reachable (backend : JalvBackend) (late apart : Prop) :
    (pauseSystem backend late apart).Reachable pauseTestState :=
  ⟨pauseTestState, ⟨rfl, rfl, rfl, rfl, Or.inl rfl, by decide, [], rfl, fun _ member => by cases member⟩, .refl⟩

/-- A call that is let through after the cycle in which the plugin was paused. -/
theorem restore_exclusive_test : ∃ state : PauseState, state.apply = .restoring true ∧ state.Exclusive := by
  have run := pauseTestState_reachable jackTestBackend True True
  have called := (run.step (.begin rfl fun _ => rfl)).step (.pause rfl rfl)
  have posted := ((called.step (.enter rfl)).steps (PauseState.steps_begun jackTestCycle rfl rfl)).step (.call rfl rfl)
  have quiet := posted.step (.finishCycle pauseTestOutput rfl rfl)
  have restoring := (quiet.step (.wait rfl rfl fun _ => id)).step (.restore rfl)
  exact ⟨_, rfl, restore_exclusive _ _ restoring⟩

/-- The plugin is run while its state is restored, when the wait returns before the plugin has
been run in the cycle that posted, and also when a second call finds the plugin still paused. -/
theorem restore_refuted :
    (∃ state, (pauseSystem jackTestBackend False True).Reachable state ∧ ¬ state.Exclusive) ∧
    ∃ state, (pauseSystem jackTestBackend True False).Reachable state ∧ ¬ state.Exclusive := by
  constructor
  -- The wait returns while the cycle that posted is still before the call of the plugin
  · have run := pauseTestState_reachable jackTestBackend False True
    have called := (run.step (.begin rfl fun _ => rfl)).step (.pause rfl rfl)
    have posted := (called.step (.enter rfl)).steps (PauseState.steps_begun jackTestCycle rfl rfl)
    have restoring := (posted.step (.wait rfl rfl False.elim)).step (.restore rfl)
    exact ⟨_, restoring.step (.call rfl rfl), fun exclusive => exclusive _ _ _ ⟨rfl, rfl⟩⟩
  -- The second call finds the first one's message to resume not applied yet, and does not pause
  · have run := pauseTestState_reachable jackTestBackend True False
    have called := (run.step (.begin rfl False.elim)).step (.pause rfl rfl)
    have posted := ((called.step (.enter rfl)).steps (PauseState.steps_begun jackTestCycle rfl rfl)).step (.call rfl rfl)
    have quiet := posted.step (.finishCycle pauseTestOutput rfl rfl)
    have restored := ((quiet.step (.wait rfl rfl fun _ => id)).step (.restore rfl)).step (.finish rfl)
    have resuming := (restored.step (.request rfl rfl)).step (.resume rfl rfl)
    have again := (resuming.step (.begin rfl False.elim)).step (.restore rfl)
    have resumed := (again.step (.enter rfl)).steps (PauseState.steps_bypassed 64 rfl rfl)
    have running := (resumed.step (.enter rfl)).steps (PauseState.steps_begun jackTestCycle rfl rfl)
    exact ⟨_, running.step (.call rfl rfl), fun exclusive => exclusive _ _ _ ⟨rfl, rfl⟩⟩

end Jalv
