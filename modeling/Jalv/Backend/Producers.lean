import Jalv.Backend.Rounds
import Jalv.Backend.Writes
import Jalv.Foundation.RingBuffer

/-! The two threads that write to the ring to the main thread, `plugin_to_ui`.

A write is not one step here: it begins a transaction, adds parts to it, and commits
it, and steps of the other thread may come in between. A cycle writes before
`apply_ui_events` and after `lilv_instance_run`.
-/

set_option autoImplicit false

namespace Jalv

open Foundation

/-- What the process thread has begun in its cycle. -/
inductive CyclePlace where
  | outside
  -- Before `apply_ui_events`
  | preparing (cycle : JackCycle)
  -- After `lilv_instance_run`
  | finishing (output : PluginOutput)

/-- Both threads with the ring between them, the messages whose write has succeeded, and the bytes
that the main thread has read. -/
structure ProducerState where
  jalv : JalvImpl
  uiToPlugin : ZixRing
  apply : ApplyPhase
  cycle : CyclePhase
  place : CyclePlace
  pluginToUi : RingBuffer Byte
  main : RingWriter UiMessage Byte
  process : RingWriter UiMessage Byte
  written : List UiMessage
  received : List Byte

namespace ProducerState

-- The state with another ring to the main thread, which no step depends on.
def pause (state : ProducerState) (ring : ZixRing) : PauseState :=
  ⟨⟨state.jalv, state.uiToPlugin, ring⟩, state.apply, state.cycle⟩

def jack (state : ProducerState) (ring : ZixRing) : JackProcess := ⟨state.jalv.process, state.uiToPlugin, ring⟩

/-- No message to resume is in the ring, or has been read from it and not been applied. -/
def Settled (state : ProducerState) : Prop :=
  ∀ messages, state.cycle.Pending state.uiToPlugin.content messages → .runStateChange .running ∉ messages

/-- The threads are not both inside of a write, and what the main thread has read and has yet to
read is all messages whose write has succeeded. -/
structure SingleProducer (state : ProducerState) : Prop where
  exclusive : ¬ (state.main.inside.isSome ∧ state.process.inside.isSome)
  received : state.received ++ state.pluginToUi.content = stream UiMessage.encode state.written

end ProducerState

/-- The steps of both threads. If the waits are late, `zix_sem_wait` only returns when no running
cycle has yet to end, and if the calls are settled, `jalv_apply_state` only begins when no message
to resume has yet to be applied. -/
inductive ProducerStep (backend : JalvBackend) (late settled : Prop) : ProducerState → ProducerState → Prop where
  | begin {state : ProducerState} (idle : state.apply = .idle) (met : settled → state.Settled) :
      ProducerStep backend late settled state
        { state with apply := if state.jalv.mustPause then .pausing else .ready false }
  | main {state : ProducerState} {jalv : JalvImpl} {uiToPlugin : ZixRing} {apply : ApplyPhase}
      (step : ∀ ring, PauseStep backend late False (state.pause ring)
        ⟨⟨jalv, uiToPlugin, ring⟩, apply, state.cycle⟩)
      (inside : state.apply = .idle → apply = .idle) (done : state.main.Done) :
      ProducerStep backend late settled state { state with jalv, uiToPlugin, apply }
  | process {state : ProducerState} {jalv : JalvImpl} {uiToPlugin : ZixRing} {cycle : CyclePhase}
      (step : ∀ ring, PauseStep backend late False (state.pause ring)
        ⟨⟨jalv, uiToPlugin, ring⟩, state.apply, cycle⟩)
      (moves : cycle ≠ state.cycle) (outside : state.place = .outside) :
      ProducerStep backend late settled state { state with jalv, uiToPlugin, cycle }
  -- In `set_port_value`, up to the write
  | value {state : ProducerState} {mustPause : Bool} {jalv : JalvImpl} {uiToPlugin : ZixRing}
      {messages : List UiMessage} (symbol : Text) (atom : Atom) (restoring : state.apply = .restoring mustPause)
      (done : state.main.Done)
      (set : ∀ ring, setPortValue state.jalv state.uiToPlugin ring symbol atom =
        some (jalv, uiToPlugin, messages.foldl writeMessage ring)) :
      ProducerStep backend late settled state { state with jalv, uiToPlugin, main := ⟨messages, none⟩ }
  -- The writes of the loop over the ports, with the rest of it in the next step
  | prepare {state : ProducerState} {messages : List UiMessage} (cycle : JackCycle) (running : state.cycle = .running)
      (outside : state.place = .outside)
      (prepared : ∀ ring, ∃ proc, processCbPrepare backend (state.jack ring) cycle =
        some ⟨proc, state.uiToPlugin, messages.foldl writeMessage ring⟩) :
      ProducerStep backend late settled state { state with place := .preparing cycle, process := ⟨messages, none⟩ }
  | prepared {state : ProducerState} {proc : JalvProcess} (cycle : JackCycle) (running : state.cycle = .running)
      (preparing : state.place = .preparing cycle) (done : state.process.Done)
      (prepared : ∀ ring, ∃ after, processCbPrepare backend (state.jack ring) cycle =
        some ⟨proc, state.uiToPlugin, after⟩) :
      ProducerStep backend late settled state
        { state with
          jalv := { state.jalv with process := proc }
          cycle := .applying true (.start state.uiToPlugin cycle.nframes)
          place := .outside }
  -- The writes behind `lilv_instance_run`, with the rest of the cycle in the next step
  | run {state : ProducerState} {pst : JalvProcessStatus} {nframes : UInt32} {messages : List UiMessage}
      (output : PluginOutput) (calling : state.cycle = .calling pst nframes) (outside : state.place = .outside)
      (ran : ∀ ring, ∃ proc midi, processCbEnd backend pst (state.jack ring) nframes output =
        some (⟨proc, state.uiToPlugin, messages.foldl writeMessage ring⟩, midi)) :
      ProducerStep backend late settled state { state with place := .finishing output, process := ⟨messages, none⟩ }
  | finishCycle {state : ProducerState} {pst : JalvProcessStatus} {nframes : UInt32} {proc : JalvProcess}
      (output : PluginOutput) (calling : state.cycle = .calling pst nframes)
      (finishing : state.place = .finishing output) (done : state.process.Done)
      (ran : ∀ ring, ∃ after midi, processCbEnd backend pst (state.jack ring) nframes output =
        some (⟨proc, state.uiToPlugin, after⟩, midi)) :
      ProducerStep backend late settled state
        { state with jalv := { state.jalv with process := proc }, cycle := .idle, place := .outside }
  | mainWrites {state : ProducerState} {pluginToUi : RingBuffer Byte} {main : RingWriter UiMessage Byte}
      {messages : List UiMessage}
      (writes : RingWriter.Step UiMessage.parts state.pluginToUi state.main pluginToUi main messages) :
      ProducerStep backend late settled state
        { state with pluginToUi, main, written := state.written ++ messages }
  | processWrites {state : ProducerState} {pluginToUi : RingBuffer Byte} {process : RingWriter UiMessage Byte}
      {messages : List UiMessage}
      (writes : RingWriter.Step UiMessage.parts state.pluginToUi state.process pluginToUi process messages) :
      ProducerStep backend late settled state
        { state with pluginToUi, process, written := state.written ++ messages }
  -- A read of `jalv_update`
  | update {state : ProducerState} {pluginToUi : RingBuffer Byte} {bytes : List Byte} (count : Nat)
      (idle : state.apply = .idle) (taken : state.pluginToUi.read count = (bytes, pluginToUi)) :
      ProducerStep backend late settled state { state with pluginToUi, received := state.received ++ bytes }

/-- Runs of a plugin that is active or is not, with no change of the run state in the ring. If the
restores are barred, a plugin that is active cannot be restored while it runs. -/
def producerSystem (backend : JalvBackend) (barred late settled : Prop) : TransitionSystem ProducerState where
  initial state := (barred → state.jalv.process.runState = .running → state.jalv.safeRestore = false) ∧
    state.jalv.process.paused = 0 ∧ state.apply = .idle ∧ (state.cycle = .idle ∨ state.cycle = .silent) ∧
    state.place = .outside ∧ state.uiToPlugin.capacity < 2 ^ 32 ∧
    (∃ messages, state.uiToPlugin.content = stream UiMessage.encode messages ∧
      ∀ message ∈ messages, message.command = none) ∧
    state.main.Done ∧ state.process.Done ∧ state.pluginToUi.Sound ∧
    state.received ++ state.pluginToUi.content = stream UiMessage.encode state.written
  step := ProducerStep backend late settled

/-- The rounds of runs that meet all conditions: the main thread is only in a call behind the
wait while no running cycle is in progress. -/
inductive QuietRound : PausePoint → Prop where
  -- The plugin runs, and cannot be restored while it does.
  | running {point : PausePoint} (barred : point.safeRestore = false)
      (outside : point.apply = .idle ∨ point.apply = .pausing) (queue : point.queue = [])
      (paused : point.paused = false) (posts : point.posts = 0) : QuietRound point
  | asked {point : PausePoint} (barred : point.safeRestore = false) (waiting : point.apply = .waiting)
      (queue : point.queue = [.pause]) (paused : point.paused = false) (posts : point.posts = 0) : QuietRound point
  | posted {point : PausePoint} (barred : point.safeRestore = false) (waiting : point.apply = .waiting)
      (queue : point.queue = []) (paused : point.paused = true) (posts : point.posts = 1) : QuietRound point
  | held {point : PausePoint} (barred : point.safeRestore = false) (holding : point.apply.Holding)
      (queue : point.queue = []) (paused : point.paused = true) (posts : point.posts = 0)
      (quiet : ¬ point.cycle.Busy) : QuietRound point
  | resuming {point : PausePoint} (barred : point.safeRestore = false) (idle : point.apply = .idle)
      (queue : point.queue = [.resume]) (paused : point.paused = true) (posts : point.posts = 0)
      (quiet : ¬ point.cycle.Busy) : QuietRound point
  -- The plugin is not active.
  | still {point : PausePoint} (free : point.apply.Free) (queue : point.queue = []) (paused : point.paused = true)
      (posts : point.posts = 0) (quiet : ¬ point.cycle.Busy) : QuietRound point

section

variable {point after : PausePoint}

theorem QuietRound.not_busy {mustPause : Bool} (round : QuietRound point)
    (restoring : point.apply = .restoring mustPause) : ¬ point.cycle.Busy := by
  cases round with
  | running _ outside => rcases outside with other | other <;> rw [restoring] at other <;> cases other
  | asked _ other | posted _ other | resuming _ other => rw [restoring] at other; cases other
  | held _ _ _ _ _ quiet | still _ _ _ _ quiet => exact quiet

theorem QuietRound.begin (round : QuietRound point) (idle : point.apply = .idle) (settled : .resume ∉ point.queue) :
    QuietRound { point with apply := if !point.safeRestore && !point.paused then .pausing else .ready false } := by
  cases round with
  | running barred _ queue paused posts =>
    exact .running barred (Or.inr (by rw [barred, paused]; rfl)) queue paused posts
  | asked _ other | posted _ other => rw [idle] at other; cases other
  | held _ holding => rw [idle] at holding; exact holding.elim
  | resuming _ _ queue => exact absurd (queue ▸ List.mem_singleton_self _) settled
  | still _ queue paused posts quiet =>
    refine .still ?_ queue paused posts quiet
    rw [paused, Bool.not_true, Bool.and_false]
    trivial

theorem QuietRound.pause (round : QuietRound point) (pausing : point.apply = .pausing) :
    QuietRound { point with apply := .waiting, queue := point.queue ++ [.pause] } := by
  cases round with
  | running barred _ queue paused posts => exact .asked barred rfl (by rw [queue]; rfl) paused posts
  | asked _ other | posted _ other | resuming _ other => rw [pausing] at other; cases other
  | held _ other | still other => rw [pausing] at other; exact other.elim

theorem QuietRound.wait {posts : Nat} (round : QuietRound point)
    (posted : point.posts = posts + 1) (quiet : ¬ point.cycle.Busy) :
    QuietRound { point with apply := .ready true, posts } := by
  cases round with
  | running _ _ _ _ none | asked _ _ _ _ none | held _ _ _ _ none | resuming _ _ _ _ none | still _ _ _ none =>
    rw [none] at posted
    cases posted
  | posted barred _ queue paused single =>
    rw [single] at posted
    exact .held barred trivial queue paused (Nat.succ.inj posted).symm quiet

theorem QuietRound.move {apply : ApplyPhase} (round : QuietRound point) (free : point.apply.Free → apply.Free)
    (holding : point.apply.Holding → apply.Holding) (other : point.apply.Free ∨ point.apply.Holding)
    (inside : point.apply ≠ .idle) : QuietRound { point with apply } := by
  cases round with
  | running _ outside =>
    rcases outside with idle | pausing
    · exact absurd idle inside
    · rw [pausing] at other; exact other.elim False.elim False.elim
  | asked _ waiting | posted _ waiting => rw [waiting] at other; exact other.elim False.elim False.elim
  | resuming _ idle => exact absurd idle inside
  | held barred begins queue paused posts quiet => exact .held barred (holding begins) queue paused posts quiet
  | still begins queue paused posts quiet => exact .still (free begins) queue paused posts quiet

theorem QuietRound.resume (round : QuietRound point) (requested : point.apply = .requested true) :
    QuietRound { point with apply := .idle, queue := point.queue ++ [.resume] } := by
  cases round with
  | running _ outside => rcases outside with other | other <;> rw [requested] at other <;> cases other
  | asked _ other | posted _ other | resuming _ other => rw [requested] at other; cases other
  | held barred _ queue paused posts quiet => exact .resuming barred rfl (by rw [queue]; rfl) paused posts quiet
  | still free => rw [requested] at free; exact free.elim

/-- A cycle goes on without being a running one from now on, unless it was before or may be one. -/
theorem QuietRound.cycle {cycle : CyclePhase} (round : QuietRound point)
    (busy : point.paused = true → cycle.Busy → point.cycle.Busy) : QuietRound { point with cycle } := by
  cases round with
  | running barred outside queue paused posts => exact .running barred outside queue paused posts
  | asked barred waiting queue paused posts => exact .asked barred waiting queue paused posts
  | posted barred waiting queue paused posts => exact .posted barred waiting queue paused posts
  | held barred holding queue paused posts quiet =>
    exact .held barred holding queue paused posts (mt (busy paused) quiet)
  | resuming barred idle queue paused posts quiet =>
    exact .resuming barred idle queue paused posts (mt (busy paused) quiet)
  | still free queue paused posts quiet => exact .still free queue paused posts (mt (busy paused) quiet)

theorem QuietRound.obey {command : Handshake.Command} {queue : List Handshake.Command} (round : QuietRound point)
    (first : point.queue = command :: queue) : QuietRound (point.obey queue command) := by
  cases round with
  | running _ _ none | posted _ _ none | held _ _ none | still _ none =>
    rw [none] at first
    cases first
  | asked barred waiting commands _ posts =>
    rw [commands] at first
    cases first
    exact .posted barred waiting rfl rfl (congrArg (· + 1) posts)
  | resuming barred idle commands _ posts =>
    rw [commands] at first
    cases first
    exact .running barred (Or.inl idle) rfl rfl posts

theorem PausePoint.Step.quiet (step : point.Step True True after) (round : QuietRound point) : QuietRound after := by
  cases step with
  | stay => exact round
  | begin idle met => exact round.begin idle (met trivial)
  | pause pausing => exact round.pause pausing
  | wait _ posted met => exact round.wait posted (met trivial)
  | @restore mustPause here | @finish mustPause here | @request mustPause here =>
    refine round.move ?_ ?_ ?_ ?_ <;> rw [here] <;> cases mustPause <;> simp [ApplyPhase.Free, ApplyPhase.Holding]
  | resume requested => exact round.resume requested
  | leave requested =>
    refine round.move ?_ ?_ ?_ ?_ <;> rw [requested] <;> simp [ApplyPhase.Free, ApplyPhase.Holding]
  | enter idle =>
    refine round.cycle fun paused => ?_
    rw [paused]
    exact False.elim
  | move quiet => exact round.cycle fun _ => quiet
  | obey command first quiet =>
    refine (round.obey first).cycle fun _ => ?_
    cases command <;> exact quiet

end

namespace ProducerState

/-- What all steps keep in runs that meet all conditions: each thread writes only while the other
one has nothing to write. -/
structure TakesTurns (state : ProducerState) : Prop where
  round : ∃ point, (state.pause (.empty 0)).At point ∧ QuietRound point
  main : state.main.Done ∨ ∃ mustPause, state.apply = .restoring mustPause
  process : state.process.Done ∨ state.cycle.Busy
  outside : state.place = .outside → state.process.Done
  sound : state.pluginToUi.Sound
  mainHolds : state.main.Holds UiMessage.parts state.pluginToUi
  processHolds : state.process.Holds UiMessage.parts state.pluginToUi
  received : state.received ++ state.pluginToUi.content = stream UiMessage.encode state.written

variable {backend : JalvBackend} {state next : ProducerState}

theorem TakesTurns.one_done (turns : state.TakesTurns) : state.main.Done ∨ state.process.Done := by
  rcases turns.main with done | ⟨mustPause, restoring⟩
  · exact Or.inl done
  · obtain ⟨point, here, round⟩ := turns.round
    have quiet := round.not_busy (here.apply.trans restoring)
    rw [here.cycle] at quiet
    exact Or.inr (turns.process.resolve_right quiet)

theorem TakesTurns.singleProducer (turns : state.TakesTurns) : state.SingleProducer where
  received := turns.received
  exclusive := by
    rintro ⟨main, process⟩
    rcases turns.one_done with done | done
    · rw [done.2] at main
      cases main
    · rw [done.2] at process
      cases process

-- A step that does not write leaves the rest to the rounds.
theorem TakesTurns.moves {point : PausePoint} {after : PauseState} (here : (state.pause (.empty 0)).At point)
    (round : QuietRound point) (step : PauseStep backend True False (state.pause (.empty 0)) after)
    (met : state.apply = .idle → after.apply = .idle) : ∃ point, after.At point ∧ QuietRound point := by
  obtain ⟨next, moved, there⟩ := step.moves here fun _ : True => met
  exact ⟨next, there, moved.quiet round⟩

end ProducerState

theorem ProducerStep.takesTurns {backend : JalvBackend} {state next : ProducerState}
    (step : ProducerStep backend True True state next) (turns : state.TakesTurns) : next.TakesTurns := by
  obtain ⟨point, here, round⟩ := turns.round
  cases step with
  | begin idle met =>
    have settled : .resume ∉ point.queue := by
      obtain ⟨messages, waits, queue⟩ := here.queue
      exact fun member => met trivial messages waits (UiMessage.mem_of_command queue.symm member)
    refine { turns with
      round := ⟨_, ?_, round.begin (here.apply.trans idle) settled⟩
      main := Or.inl (turns.main.resolve_right ?_) }
    · refine { here with apply := ?_ }
      rw [here.safeRestore, here.paused]
      exact congrArg (fun pauses : Bool => if pauses then ApplyPhase.pausing else .ready false)
        state.jalv.mustPause_eq.symm
    · rintro ⟨mustPause, restoring⟩
      rw [idle] at restoring
      cases restoring
  | main step inside done =>
    exact { turns with
      round := ProducerState.TakesTurns.moves here round (step _) inside
      main := Or.inl done }
  | process step moves outside =>
    exact { turns with
      round := ProducerState.TakesTurns.moves here round (step _) id
      process := Or.inl (turns.outside outside) }
  | value symbol atom restoring done set =>
    have step : PauseStep backend True False (state.pause (.empty 0)) _ :=
      .value symbol atom restoring (set (.empty 0))
    obtain ⟨point, there, round⟩ := ProducerState.TakesTurns.moves here round step id
    exact { turns with
      round := ⟨point, { there with }, round⟩
      main := Or.inr ⟨_, restoring⟩
      mainHolds := .of_outside rfl }
  | prepare cycle running outside prepared =>
    exact { turns with
      process := Or.inr (by rw [running]; trivial)
      outside := by rintro ⟨⟩
      processHolds := .of_outside rfl }
  | prepared cycle running preparing done prepared =>
    obtain ⟨after, prepared⟩ := prepared (.empty 0)
    obtain ⟨point, there, round⟩ := ProducerState.TakesTurns.moves here round (.prepare cycle running prepared) id
    exact { turns with
      round := ⟨point, { there with }, round⟩
      process := Or.inl done
      outside := fun _ => done }
  | run output calling outside ran =>
    exact { turns with
      process := Or.inr (by rw [calling]; trivial)
      outside := by rintro ⟨⟩
      processHolds := .of_outside rfl }
  | finishCycle output calling finishing done ran =>
    obtain ⟨after, midi, ran⟩ := ran (.empty 0)
    obtain ⟨point, there, round⟩ := ProducerState.TakesTurns.moves here round (.finishCycle output calling ran) id
    exact { turns with
      round := ⟨point, { there with }, round⟩
      process := Or.inl done
      outside := fun _ => done }
  -- Only one thread has something to write, so that the transaction of the other is not disturbed
  | mainWrites writes =>
    have other : state.process.Done := turns.one_done.resolve_left writes.not_done
    obtain ⟨sound, holds, content⟩ := writes.holds turns.sound turns.mainHolds
    exact { turns with
      main := Or.inr (turns.main.resolve_left writes.not_done)
      sound := sound
      mainHolds := holds
      processHolds := .of_outside other.2
      received := by
        rw [content, ← List.append_assoc, turns.received, stream_append]
        rfl }
  | processWrites writes =>
    have other : state.main.Done := turns.one_done.resolve_right writes.not_done
    obtain ⟨sound, holds, content⟩ := writes.holds turns.sound turns.processHolds
    exact { turns with
      process := Or.inr (turns.process.resolve_left writes.not_done)
      outside := fun outside => absurd (turns.outside outside) writes.not_done
      sound := sound
      mainHolds := .of_outside other.2
      processHolds := holds
      received := by
        rw [content, ← List.append_assoc, turns.received, stream_append]
        rfl }
  | update count idle taken =>
    obtain ⟨content, sound, keeps⟩ := RingBuffer.read_content turns.sound taken
    exact { turns with
      sound := sound
      mainHolds := turns.mainHolds.mono keeps
      processHolds := turns.processHolds.mono keeps
      received := by
        rw [List.append_assoc, ← content]
        exact turns.received }

theorem ProducerState.takesTurns_initial {backend : JalvBackend} {state : ProducerState}
    (initial : (producerSystem backend True True True).initial state) : state.TakesTurns := by
  obtain ⟨barred, posts, idle, cycle, outside, small, ring, main, process, sound, received⟩ := initial
  obtain ⟨messages, content, none⟩ := ring
  have whole : state.cycle.Whole := by rcases cycle with same | same <;> rw [same] <;> trivial
  let point : PausePoint := ⟨state.jalv.safeRestore, .idle, state.cycle, [],
    decide (state.jalv.process.runState = .paused), 0⟩
  have here : (state.pause (.empty 0)).At point := {
    small := small
    queue := ⟨messages, (CyclePhase.pending_of_whole whole).mpr content, (List.filterMap_eq_nil_iff.mpr none).symm⟩
    safeRestore := rfl
    apply := idle.symm
    cycle := rfl
    paused := rfl
    posts := posts.symm }
  have round : QuietRound point := by
    cases runState : state.jalv.process.runState with
    | running => exact .running (barred trivial runState) (Or.inl rfl) rfl (by simp [point, runState]) rfl
    | paused =>
      refine .still trivial rfl (by simp [point, runState]) rfl ?_
      rcases cycle with same | same <;> simp [point, same, CyclePhase.Busy]
  exact {
    round := ⟨point, here, round⟩
    main := Or.inl main
    process := Or.inl process
    outside := fun _ => process
    sound := sound
    mainHolds := .of_outside main.2
    processHolds := .of_outside process.2
    received := received }

/-- In runs that meet all conditions, the threads are never both inside of a write, and the main
thread receives every message whose write has succeeded. -/
theorem pluginToUi_singleProducer (backend : JalvBackend) (state : ProducerState)
    (reachable : (producerSystem backend True True True).Reachable state) : state.SingleProducer := by
  refine ProducerState.TakesTurns.singleProducer ?_
  refine TransitionSystem.invariant (fun start initial => ?_) (fun _ _ held step => ?_) reachable
  · exact ProducerState.takesTurns_initial initial
  · exact step.takesTurns held

section

variable {backend : JalvBackend} {barred late settled : Prop} {state : ProducerState} {before after : ZixRing}

theorem exists_of_writes {messages : List UiMessage} (writes : messages.foldl writeMessage before = after)
    (wrote : after.content.length ≠ before.content.length) : ∃ message rest, messages = message :: rest := by
  cases messages with
  | nil => exact absurd (writes ▸ rfl) wrote
  | cons message rest => exact ⟨message, rest, rfl⟩

/-- A call of `set_port_value` that would write to some ring leaves a message to write. -/
theorem ProducerState.reachable_value {mustPause : Bool} {jalv : JalvImpl} {uiToPlugin : ZixRing} (symbol : Text)
    (atom : Atom) (before : ZixRing) (reachable : (producerSystem backend barred late settled).Reachable state)
    (restoring : state.apply = .restoring mustPause) (done : state.main.Done)
    (set : setPortValue state.jalv state.uiToPlugin before symbol atom = some (jalv, uiToPlugin, after))
    (wrote : after.content.length ≠ before.content.length) :
    ∃ message rest, (producerSystem backend barred late settled).Reachable
      { state with jalv, uiToPlugin, main := ⟨message :: rest, none⟩ } := by
  obtain ⟨messages, writes⟩ := setPortValue_writes set
  have here := set.symm.trans (writes before)
  simp only [Option.some.injEq, Prod.mk.injEq, true_and] at here
  obtain ⟨message, rest, rfl⟩ := exists_of_writes here.symm wrote
  exact ⟨message, rest, reachable.step (.value symbol atom restoring done writes)⟩

/-- A running cycle that would write to some ring behind the plugin leaves a message to write. -/
theorem ProducerState.reachable_run {pst : JalvProcessStatus} {nframes : UInt32} {proc : JalvProcess}
    {midi : List (Nat × JackMidiEvent)} (output : PluginOutput) (before : ZixRing)
    (reachable : (producerSystem backend barred late settled).Reachable state)
    (calling : state.cycle = .calling pst nframes) (outside : state.place = .outside)
    (ran : processCbEnd backend pst (state.jack before) nframes output =
      some (⟨proc, state.uiToPlugin, after⟩, midi))
    (wrote : after.content.length ≠ before.content.length) :
    ∃ message rest, (producerSystem backend barred late settled).Reachable
      { state with place := .finishing output, process := ⟨message :: rest, none⟩ } := by
  obtain ⟨messages, writes⟩ := processCbEnd_writes ran
  have here := ran.symm.trans (writes before)
  simp only [Option.some.injEq, Prod.mk.injEq, JackProcess.mk.injEq, true_and, and_true] at here
  obtain ⟨message, rest, rfl⟩ := exists_of_writes here.symm wrote
  exact ⟨message, rest, reachable.step (.run output calling outside fun ring => ⟨proc, midi, writes ring⟩)⟩

theorem ProducerState.reachable_wait {paused : Nat} (met : late → ¬ state.cycle.Busy)
    (reachable : (producerSystem backend barred late settled).Reachable state) (waiting : state.apply = .waiting)
    (posted : state.jalv.process.paused = paused + 1) (done : state.main.Done) :
    (producerSystem backend barred late settled).Reachable
      { state with
        jalv := { state.jalv with process := { state.jalv.process with paused } }
        apply := .ready true } :=
  reachable.step (.main (fun _ => .wait waiting posted met) (by rw [waiting]; nofun) done)

theorem ProducerState.reachable_prepared {jack : JackProcess} (cycle : JackCycle) (before : ZixRing)
    (reachable : (producerSystem backend barred late settled).Reachable state) (running : state.cycle = .running)
    (outside : state.place = .outside)
    (silent : ∀ ring, ∃ proc, processCbPrepare backend (state.jack ring) cycle = some ⟨proc, state.uiToPlugin, ring⟩)
    (prepared : processCbPrepare backend (state.jack before) cycle = some jack) :
    (producerSystem backend barred late settled).Reachable
      { state with
        jalv := { state.jalv with process := jack.proc }
        cycle := .applying true (.start state.uiToPlugin cycle.nframes)
        place := .outside
        process := ⟨[], none⟩ } := by
  obtain ⟨messages, writes⟩ := processCbPrepare_writes prepared
  obtain ⟨ports, pre, _, rfl⟩ := processCbPrepare_eq_some_iff.mp prepared
  have prepares := reachable.step (@ProducerStep.prepare backend late settled state [] cycle running outside silent)
  exact prepares.step (.prepared cycle running rfl ⟨rfl, rfl⟩ fun ring => ⟨_, writes ring⟩)

theorem ProducerState.reachable_bypass (nframes : UInt32)
    (reachable : (producerSystem backend barred late settled).Reachable state) (silent : state.cycle = .silent)
    (outside : state.place = .outside) :
    (producerSystem backend barred late settled).Reachable
      { state with cycle := .applying false (.start state.uiToPlugin nframes) } := by
  have step (ring : ZixRing) : PauseStep backend late False (state.pause ring)
      ⟨⟨state.jalv, state.uiToPlugin, ring⟩, state.apply, .applying false (.start state.uiToPlugin nframes)⟩ :=
    .bypass nframes silent
  refine reachable.step (.process step ?_ outside)
  rw [silent]
  nofun

theorem ProducerState.reachable_apply {works : Bool} {loop after : ApplyLoop} {proc : JalvProcess} {uiToPlugin : ZixRing}
    (reachable : (producerSystem backend barred late settled).Reachable state)
    (applying : state.cycle = .applying works loop) (outside : state.place = .outside)
    (step : loop.next state.jalv.process state.uiToPlugin = some (after, proc, uiToPlugin)) :
    (producerSystem backend barred late settled).Reachable
      { state with
        jalv := { state.jalv with process := proc }
        uiToPlugin
        cycle := .applying works after } := by
  have moves : CyclePhase.applying works after ≠ state.cycle := by
    rw [applying]
    intro same
    have differs := @ApplyLoop.Step.ne (loop, state.jalv.process, state.uiToPlugin) (after, proc, uiToPlugin) step
    exact differs (CyclePhase.applying.inj same).2
  exact reachable.step (.process (fun _ => .applyUiEvents applying step) moves outside)

theorem ProducerState.reachable_applied {works : Bool} {nframes : UInt32} {pst : JalvProcessStatus} {proc : JalvProcess}
    {uiToPlugin : ZixRing} (reachable : (producerSystem backend barred late settled).Reachable state)
    (applying : state.cycle = .applying works (.start state.uiToPlugin nframes)) (outside : state.place = .outside)
    (applied : applyUiEvents state.jalv.process state.uiToPlugin nframes = some (pst, proc, uiToPlugin)) :
    (producerSystem backend barred late settled).Reachable
      { state with
        jalv := { state.jalv with process := proc }
        uiToPlugin
        cycle := .applying works ⟨nframes, state.uiToPlugin.readSpace, .returned pst⟩ } := by
  have steps := applyUiEvents_steps applied
  generalize target : (ApplyLoop.mk nframes state.uiToPlugin.readSpace (.returned pst), proc, uiToPlugin) = last at steps
  have reached : (producerSystem backend barred late settled).Reachable
      { state with
        jalv := { state.jalv with process := last.2.1 }, uiToPlugin := last.2.2, cycle := .applying works last.1 } := by
    clear target
    induction steps with
    | refl =>
      rw [← applying]
      exact reachable
    | tail _ step ih =>
      have further := ProducerState.reachable_apply ih rfl outside step
      exact further
  rw [← target] at reached
  exact reached

theorem ProducerState.reachable_ended {pst : JalvProcessStatus} {nframes : UInt32} {proc : JalvProcess}
    {midi : List (Nat × JackMidiEvent)} (output : PluginOutput) (before : ZixRing)
    (reachable : (producerSystem backend barred late settled).Reachable state)
    (calling : state.cycle = .calling pst nframes) (outside : state.place = .outside)
    (silent : ∀ ring, ∃ proc midi, processCbEnd backend pst (state.jack ring) nframes output =
      some (⟨proc, state.uiToPlugin, ring⟩, midi))
    (ran : processCbEnd backend pst (state.jack before) nframes output =
      some (⟨proc, state.uiToPlugin, after⟩, midi)) :
    (producerSystem backend barred late settled).Reachable
      { state with
        jalv := { state.jalv with process := proc }
        cycle := .idle
        place := .outside
        process := ⟨[], none⟩ } := by
  obtain ⟨messages, writes⟩ := processCbEnd_writes ran
  have runs := reachable.step
    (@ProducerStep.run backend late settled state pst nframes [] output calling outside silent)
  exact runs.step (.finishCycle output calling rfl ⟨rfl, rfl⟩ fun ring => ⟨_, midi, writes ring⟩)

end

def producerTestState (safeRestore : Bool) : ProducerState where
  jalv :=
    let evbuf := lv2EvbufNew 1024 lookupTestHost.urids.atomChunk lookupTestHost.urids.atomSequence fun _ => 0
    { lookupTestHost with
      ports := [⟨[97], .control, .input, 0⟩]
      controls := [⟨.port 0, .blank [], [97], 0, .initial, true, false⟩]
      process := { lookupTestHost.process with
        runState := .running
        ports := [⟨.event, .output, false, [], some evbuf, 0, false, false, false, false, false⟩]
        controlsBuf := [0] }
      safeRestore }
  uiToPlugin := .empty 4095
  apply := .idle
  cycle := .idle
  place := .outside
  pluginToUi := ⟨4096, fun _ => 0, 0, 0⟩
  main := ⟨[], none⟩
  process := ⟨[], none⟩
  written := []
  received := []

def producerTestOutput : PluginOutput :=
  ⟨fun _ => 0, fun _ => 24, fun _ => lookupTestHost.urids.atomSequence, fun _ _ => 0⟩

theorem producerTestState_reachable {barred late settled : Prop} {safeRestore : Bool}
    (met : barred → safeRestore = false) :
    (producerSystem jackTestBackend barred late settled).Reachable (producerTestState safeRestore) :=
  ⟨_, ⟨fun careful _ => met careful, rfl, rfl, Or.inl rfl, rfl, (by decide : 4095 < 2 ^ 32),
    ⟨[], rfl, fun _ member => by cases member⟩, ⟨rfl, rfl⟩, ⟨rfl, rfl⟩,
    ⟨Nat.le_refl 0, (by decide : 0 < 0 + 4096)⟩, rfl⟩, .refl⟩

theorem ProducerState.settled_of_empty {state : ProducerState} (idle : state.cycle = .idle)
    (empty : state.uiToPlugin.content = []) : state.Settled := by
  intro messages waits
  rw [idle] at waits
  have none : messages = [] := UiMessage.stream_injective (Eq.trans (Eq.symm waits) empty)
  rw [none]
  exact List.not_mem_nil

theorem producerTest_both {barred late settled : Prop} {state : ProducerState} {first second : UiMessage}
    {others rest : List UiMessage}
    (reachable : (producerSystem jackTestBackend barred late settled).Reachable state)
    (main : state.main = ⟨first :: others, none⟩) (process : state.process = ⟨second :: rest, none⟩) :
    ∃ state, (producerSystem jackTestBackend barred late settled).Reachable state ∧ ¬ state.SingleProducer := by
  obtain ⟨jalv, uiToPlugin, apply, cycle, place, pluginToUi, _, _, written, received⟩ := state
  cases main
  cases process
  have begins := reachable.step (.mainWrites .begin)
  have both := begins.step (.processWrites .begin)
  exact ⟨_, both, fun single => single.exclusive ⟨rfl, rfl⟩⟩

/-- A value is to be written while the plugin is restored, after it was paused. -/
theorem pluginToUi_singleProducer_test : ∃ state : ProducerState,
    state.apply = .restoring true ∧ state.main.todo ≠ [] ∧ state.SingleProducer := by
  have run := @producerTestState_reachable True True True false fun _ => rfl
  have called := run.step (.begin rfl fun _ => ProducerState.settled_of_empty rfl rfl)
  have pauses : Sends (.empty 4095) _ (.runStateChange .paused) := rfl
  have waiting := called.step (.main (fun _ => .pause rfl pauses) nofun ⟨rfl, rfl⟩)
  have entered := waiting.step (.process (fun _ => .enter rfl) nofun rfl)
  have prepared := ProducerState.reachable_prepared jackTestCycle (.empty 4095) entered rfl rfl (fun _ => ⟨_, rfl⟩) rfl
  have posted := ProducerState.reachable_applied prepared rfl rfl rfl
  have calling := posted.step (.process (fun _ => .call rfl rfl) nofun rfl)
  have quiet := ProducerState.reachable_ended pauseTestOutput (.empty 4095) calling rfl rfl
    (fun _ => ⟨_, _, rfl⟩) rfl
  have ready := ProducerState.reachable_wait (fun _ => id) quiet rfl rfl ⟨rfl, rfl⟩
  have restoring := ready.step (.main (fun _ => .restore rfl) nofun ⟨rfl, rfl⟩)
  obtain ⟨first, others, value⟩ :=
    ProducerState.reachable_value [97] emptyAtom (.empty 4095) restoring rfl ⟨rfl, rfl⟩ rfl (by decide : 16 ≠ 0)
  exact ⟨_, rfl, List.cons_ne_nil _ _, pluginToUi_singleProducer _ _ value⟩

/-- Both threads are inside of a write, when a plugin that runs is restored without a pause, when
the wait returns before the cycle that posted has ended, and when a call does not pause the plugin
because a message to resume it has yet to be applied. -/
theorem pluginToUi_refuted :
    (∃ state, (producerSystem jackTestBackend False True True).Reachable state ∧ ¬ state.SingleProducer) ∧
    (∃ state, (producerSystem jackTestBackend True False True).Reachable state ∧ ¬ state.SingleProducer) ∧
    ∃ state, (producerSystem jackTestBackend True True False).Reachable state ∧ ¬ state.SingleProducer := by
  have pauses : Sends (.empty 4095) _ (.runStateChange .paused) := rfl
  refine ⟨?_, ?_, ?_⟩
  · have run := @producerTestState_reachable False True True true False.elim
    have called := run.step (.begin rfl fun _ => ProducerState.settled_of_empty rfl rfl)
    have restoring := called.step (.main (fun _ => .restore rfl) nofun ⟨rfl, rfl⟩)
    obtain ⟨first, others, value⟩ :=
      ProducerState.reachable_value [97] emptyAtom (.empty 4095) restoring rfl ⟨rfl, rfl⟩ rfl (by decide : 16 ≠ 0)
    have entered := value.step (.process (fun _ => .enter rfl) nofun rfl)
    have prepared := ProducerState.reachable_prepared jackTestCycle (.empty 4095) entered rfl rfl (fun _ => ⟨_, rfl⟩) rfl
    have applied := ProducerState.reachable_applied prepared rfl rfl rfl
    have calling := applied.step (.process (fun _ => .call rfl rfl) nofun rfl)
    obtain ⟨second, rest, ran⟩ := ProducerState.reachable_run producerTestOutput (.empty 4095) calling rfl rfl rfl
      (by decide : 20 ≠ 0)
    exact producerTest_both ran rfl rfl
  · have run := @producerTestState_reachable True False True false fun _ => rfl
    have called := run.step (.begin rfl fun _ => ProducerState.settled_of_empty rfl rfl)
    have waiting := called.step (.main (fun _ => .pause rfl pauses) nofun ⟨rfl, rfl⟩)
    have entered := waiting.step (.process (fun _ => .enter rfl) nofun rfl)
    have prepared := ProducerState.reachable_prepared jackTestCycle (.empty 4095) entered rfl rfl (fun _ => ⟨_, rfl⟩) rfl
    have posted := ProducerState.reachable_applied prepared rfl rfl rfl
    have ready := ProducerState.reachable_wait False.elim posted rfl rfl ⟨rfl, rfl⟩
    have restoring := ready.step (.main (fun _ => .restore rfl) nofun ⟨rfl, rfl⟩)
    obtain ⟨first, others, value⟩ :=
      ProducerState.reachable_value [97] emptyAtom (.empty 4095) restoring rfl ⟨rfl, rfl⟩ rfl (by decide : 16 ≠ 0)
    have calling := value.step (.process (fun _ => .call rfl rfl) nofun rfl)
    obtain ⟨second, rest, ran⟩ := ProducerState.reachable_run producerTestOutput (.empty 4095) calling rfl rfl rfl
      (by decide : 20 ≠ 0)
    exact producerTest_both ran rfl rfl
  · have run := @producerTestState_reachable True True False false fun _ => rfl
    have called := run.step (.begin rfl False.elim)
    have waiting := called.step (.main (fun _ => .pause rfl pauses) nofun ⟨rfl, rfl⟩)
    have entered := waiting.step (.process (fun _ => .enter rfl) nofun rfl)
    have prepared := ProducerState.reachable_prepared jackTestCycle (.empty 4095) entered rfl rfl (fun _ => ⟨_, rfl⟩) rfl
    have posted := ProducerState.reachable_applied prepared rfl rfl rfl
    have calling := posted.step (.process (fun _ => .call rfl rfl) nofun rfl)
    have quiet := ProducerState.reachable_ended pauseTestOutput (.empty 4095) calling rfl rfl
      (fun _ => ⟨_, _, rfl⟩) rfl
    have ready := ProducerState.reachable_wait (fun _ => id) quiet rfl rfl ⟨rfl, rfl⟩
    have restored := (ready.step (.main (fun _ => .restore rfl) nofun ⟨rfl, rfl⟩)).step
      (.main (fun _ => .finish rfl) nofun ⟨rfl, rfl⟩)
    have requested := restored.step (.main (fun _ => .request rfl rfl) nofun ⟨rfl, rfl⟩)
    have resumes : Sends (.empty 4095) _ (.runStateChange .running) := rfl
    have resuming := requested.step (.main (fun _ => .resume rfl resumes) nofun ⟨rfl, rfl⟩)
    -- The process thread has read the message to resume, and not yet changed the run state
    have silent := resuming.step (.process (fun _ => .enter rfl) nofun rfl)
    have bypassing := ProducerState.reachable_bypass 64 silent rfl rfl
    have read := ProducerState.reachable_apply (ProducerState.reachable_apply bypassing rfl rfl rfl) rfl rfl rfl
    have again := read.step (.begin rfl False.elim)
    have restoring := again.step (.main (fun _ => .restore rfl) nofun ⟨rfl, rfl⟩)
    obtain ⟨first, others, value⟩ :=
      ProducerState.reachable_value [97] emptyAtom (.empty 4095) restoring rfl ⟨rfl, rfl⟩ rfl (by decide : 16 ≠ 0)
    have resumed := ProducerState.reachable_apply (ProducerState.reachable_apply value rfl rfl rfl) rfl rfl rfl
    have ended := resumed.step (.process (fun _ => .bypassed rfl rfl) nofun rfl)
    have entered := ended.step (.process (fun _ => .enter rfl) nofun rfl)
    have prepared := ProducerState.reachable_prepared jackTestCycle (.empty 4095) entered rfl rfl (fun _ => ⟨_, rfl⟩) rfl
    have applied := ProducerState.reachable_applied prepared rfl rfl rfl
    have calling := applied.step (.process (fun _ => .call rfl rfl) nofun rfl)
    obtain ⟨second, rest, ran⟩ := ProducerState.reachable_run producerTestOutput (.empty 4095) calling rfl rfl rfl
      (by decide : 20 ≠ 0)
    exact producerTest_both ran rfl rfl

end Jalv
