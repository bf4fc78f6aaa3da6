import Jalv.Backend.Rounds
import Jalv.Process.Framing

/-! Pausing and resuming when messages may not find room in the ring (`jalv_apply_state`).

A write that fails leaves the ring as it is, and the main thread goes on. The plugin
may be one that can be restored while it runs. The ring has the least capacity that
`jalv_open` gives it, or more.
-/

set_option autoImplicit false

namespace Jalv

open Foundation

def runStateMessageSize : Nat := 12

-- The capacity of a ring of 4096 bytes.
def leastRingCapacity : Nat := 4095

/-- The steps of both threads, where messages of `jalv_apply_state` may be lost. If there is room
for pauses, those that pause the plugin are not. -/
inductive ApplyStep (backend : JalvBackend) (roomy : Prop) : PauseState → PauseState → Prop where
  | sent {state next : PauseState} (step : PauseStep backend False False state next) :
      ApplyStep backend roomy state next
  | pauseLost {state : PauseState} (pausing : state.apply = .pausing)
      (full : state.uiToPlugin.writeSpace < runStateMessageSize) (met : ¬ roomy) :
      ApplyStep backend roomy state { state with apply := .waiting }
  | requestLost {state : PauseState} {mustPause : Bool} (restored : state.apply = .restored mustPause)
      (known : state.jalv.process.controlIn ≠ uint32Max) (full : state.uiToPlugin.writeSpace < sizeofHeader) :
      ApplyStep backend roomy state { state with apply := .requested mustPause }
  | resumeLost {state : PauseState} (requested : state.apply = .requested true)
      (full : state.uiToPlugin.writeSpace < runStateMessageSize) :
      ApplyStep backend roomy state { state with apply := .idle }

/-- Runs from the activation of a plugin on, with anything in the ring but changes of the run state. -/
def applySystem (backend : JalvBackend) (roomy : Prop) : TransitionSystem PauseState where
  initial state := state.jalv.process.runState = .running ∧ state.jalv.process.paused = 0 ∧ state.apply = .idle ∧
    (state.cycle = .idle ∨ state.cycle = .silent) ∧
    leastRingCapacity ≤ state.uiToPlugin.capacity ∧ state.uiToPlugin.capacity < 2 ^ 32 ∧
    ∃ messages, state.uiToPlugin.content = stream UiMessage.encode messages ∧
      ∀ message ∈ messages, message.command = none
  step := ApplyStep backend roomy

/-- With the messages in the ring: while the main thread waits, it was or will be let through, and
behind a call the plugin runs or will run again. The semaphore is back at zero behind a call. -/
structure PauseState.UnstuckBy (state : PauseState) (messages : List UiMessage) : Prop where
  waits : state.apply = .waiting → .runStateChange .paused ∈ messages ∨ 0 < state.jalv.process.paused
  resumes : state.apply = .idle → state.jalv.process.runState = .running ∨ .runStateChange .running ∈ messages
  free : state.apply = .idle → state.jalv.process.paused = 0

def PauseState.Unstuck (state : PauseState) : Prop :=
  ∃ messages, state.uiToPlugin.content = stream UiMessage.encode messages ∧ state.UnstuckBy messages

/-- The commands to obey, whether the plugin is paused, and the count of the semaphore, for each
place of the main thread. -/
inductive PauseRound : ApplyPhase → List Handshake.Command → Bool → Nat → Prop where
  | running {apply : ApplyPhase} (free : apply.Free ∨ apply = .pausing) : PauseRound apply [] false 0
  | resuming {apply : ApplyPhase} (free : apply.Free) : PauseRound apply [.resume] true 0
  | asked : PauseRound .waiting [.pause] false 0
  | posted : PauseRound .waiting [] true 1
  | held {apply : ApplyPhase} (holding : apply.Holding) : PauseRound apply [] true 0

section

variable {queue : List Handshake.Command} {paused mustPause : Bool} {posts : Nat}

theorem PauseRound.obey {point : PausePoint} {command : Handshake.Command} {cycle : CyclePhase}
    (round : PauseRound point.apply point.queue point.paused point.posts) (first : point.queue = command :: queue) :
    let after := { point.obey queue command with cycle }
    PauseRound after.apply after.queue after.paused after.posts := by
  obtain ⟨safeRestore, apply, cycle, commands, paused, posts⟩ := point
  cases first
  cases round with
  | resuming free => exact .running (Or.inl free)
  | asked => exact .posted

/-- A call goes on without a message. -/
theorem PauseRound.move {before after : ApplyPhase} (round : PauseRound before queue paused posts)
    (free : before.Free → after.Free) (holding : before.Holding → after.Holding)
    (other : before.Free ∨ before.Holding) : PauseRound after queue paused posts := by
  cases round with
  | running begins =>
    rcases begins with begins | rfl
    · exact .running (Or.inl (free begins))
    · exact other.elim False.elim False.elim
  | resuming begins => exact .resuming (free begins)
  | asked | posted => exact other.elim False.elim False.elim
  | held begins => exact .held (holding begins)

theorem PauseRound.begin (round : PauseRound .idle queue paused posts) (pauses : mustPause = true → paused = false) :
    PauseRound (if mustPause then .pausing else .ready false) queue paused posts := by
  cases mustPause with
  | false => exact round.move (fun _ => trivial) False.elim (Or.inl trivial)
  | true =>
    cases pauses rfl
    cases round with
    | running => exact .running (Or.inr rfl)

theorem PauseRound.pause (round : PauseRound .pausing queue paused posts) :
    PauseRound .waiting (queue ++ [.pause]) paused posts := by
  cases round with
  | running => exact .asked
  | resuming free => exact free.elim
  | held holding => exact holding.elim

theorem PauseRound.wait (round : PauseRound .waiting queue paused (posts + 1)) :
    PauseRound (.ready true) queue paused posts := by
  cases round with
  | posted => exact .held trivial

theorem PauseRound.waits (round : PauseRound .waiting queue paused posts) : .pause ∈ queue ∨ 0 < posts := by
  cases round with
  | running free => exact free.elim False.elim ApplyPhase.noConfusion
  | resuming free => exact free.elim
  | asked => exact Or.inl (List.mem_singleton_self _)
  | posted => exact Or.inr Nat.one_pos
  | held holding => exact holding.elim

theorem PauseRound.rests (round : PauseRound .idle queue paused posts) :
    (paused = false ∨ .resume ∈ queue) ∧ posts = 0 := by
  cases round with
  | running => exact ⟨Or.inl rfl, rfl⟩
  | resuming => exact ⟨Or.inr (List.mem_singleton_self _), rfl⟩
  | held holding => exact holding.elim

theorem PauseRound.resume (round : PauseRound (.requested true) queue paused posts) :
    PauseRound .idle (queue ++ [.resume]) paused posts := by
  cases round with
  | running free => exact free.elim False.elim ApplyPhase.noConfusion
  | resuming free => exact free.elim
  | held => exact .resuming trivial

theorem PausePoint.Step.round {point after : PausePoint} (step : point.Step False False after)
    (round : PauseRound point.apply point.queue point.paused point.posts) :
    PauseRound after.apply after.queue after.paused after.posts := by
  cases step with
  | stay | enter _ | move _ => exact round
  | begin idle _ =>
    rw [idle] at round
    exact round.begin fun pauses => by simp_all
  | pause pausing => exact (pausing ▸ round).pause
  | wait waiting posted _ =>
    rw [waiting, posted] at round
    exact round.wait
  | @restore mustPause here | @finish mustPause here | @request mustPause here =>
    refine round.move ?_ ?_ ?_ <;> rw [here] <;> cases mustPause <;> simp [ApplyPhase.Free, ApplyPhase.Holding]
  | resume requested => exact (requested ▸ round).resume
  | leave requested =>
    refine round.move ?_ ?_ ?_ <;> rw [requested] <;> simp [ApplyPhase.Free, ApplyPhase.Holding]
  | obey command first _ => exact round.obey first

end

/-- What has not been applied while the main thread waits or has paused the plugin: only it sends
messages, and none behind the one that pauses but the request. -/
def ApplyPhase.Trail (pending : List UiMessage) : ApplyPhase → Prop
  | .waiting => pending = [] ∨ ∃ others, pending = others ++ [.runStateChange .paused]
  | .ready true | .restoring true | .restored true => pending = []
  | .requested true => pending = [] ∨ pending = [.stateRequest]
  | .idle | .pausing | .ready false | .restoring false | .restored false | .requested false => True

structure PauseState.Trails (state : PauseState) (pending : List UiMessage) : Prop where
  room : leastRingCapacity ≤ state.uiToPlugin.capacity
  waits : state.cycle.Pending state.uiToPlugin.content pending
  trail : state.apply.Trail pending

structure PauseState.InRound (state : PauseState) (point : PausePoint) (pending : List UiMessage) : Prop where
  here : state.At point
  round : PauseRound point.apply point.queue point.paused point.posts
  trails : state.Trails pending

section

variable {backend : JalvBackend} {state next : PauseState} {point : PausePoint} {pending : List UiMessage}

theorem ApplyPhase.Trail.tail {apply : ApplyPhase} {message : UiMessage} {others : List UiMessage}
    (trail : apply.Trail (message :: others)) : apply.Trail others := by
  unfold ApplyPhase.Trail at trail ⊢
  split at trail
  · rcases trail with none | ⟨before, same⟩
    · cases none
    · cases before with
      | nil =>
        cases same
        exact .inl rfl
      | cons first before =>
        cases same
        exact .inr ⟨before, rfl⟩
  · cases trail
  · cases trail
  · cases trail
  · rcases trail with none | same
    · cases none
    · cases same
      exact .inl rfl
  all_goals exact trivial

theorem PauseState.Trails.sends {ring : ZixRing} {message : UiMessage} (trails : state.Trails pending)
    (apply : ApplyPhase) (sent : Sends state.uiToPlugin ring message) (trail : apply.Trail (pending ++ [message])) :
    PauseState.Trails { state with uiToPlugin := ring, apply } (pending ++ [message]) := by
  obtain ⟨capacity, content, _⟩ := sent.content
  exact ⟨capacity ▸ trails.room, content ▸ trails.waits.append message, trail⟩

theorem PauseState.Trails.move (trails : state.Trails pending) (cycle : CyclePhase) (whole : state.cycle.Whole)
    (still : cycle.Whole) : PauseState.Trails { state with cycle } pending :=
  { trails with waits := (CyclePhase.pending_of_whole still).mpr ((CyclePhase.pending_of_whole whole).mp trails.waits) }

theorem PauseState.InRound.queue (inRound : state.InRound point pending) :
    point.queue = pending.filterMap UiMessage.command := by
  obtain ⟨others, waits, same⟩ := inRound.here.queue
  rw [same, waits.unique inRound.trails.waits]

theorem PauseRound.paused {apply : ApplyPhase} {queue : List Handshake.Command} {paused : Bool} {posts : Nat}
    (round : PauseRound apply queue paused posts) (holding : apply.Holding) : paused = true := by
  cases round with
  | running free =>
    rcases free with free | rfl
    · cases apply with
      | ready mustPause | restoring mustPause | restored mustPause | requested mustPause =>
        cases mustPause with
        | false => exact holding.elim
        | true => exact free.elim
      | idle | pausing | waiting => exact holding.elim
    · exact holding.elim
  | asked => exact holding.elim
  | resuming | posted | held => rfl

theorem PauseState.InRound.paused (inRound : state.InRound point pending) (holding : state.apply.Holding) :
    state.jalv.process.runState = .paused := by
  have round := inRound.round
  rw [inRound.here.apply, inRound.here.paused] at round
  exact of_decide_eq_true (round.paused holding)

theorem PauseState.InRound.posted {paused : Nat} (inRound : state.InRound point pending)
    (waiting : state.apply = .waiting) (posted : state.jalv.process.paused = paused + 1) : pending = [] := by
  have round := inRound.round
  have queue := inRound.queue
  have trail := inRound.trails.trail
  rw [inRound.here.apply, inRound.here.posts, waiting, posted] at round
  rw [waiting] at trail
  rcases trail with none | ⟨others, rfl⟩
  · exact none
  · generalize point.queue = commands, point.paused = paused at round queue
    cases round with
    | posted =>
      rw [List.filterMap_append] at queue
      exact absurd queue.symm (List.append_ne_nil_of_right_ne_nil _ (List.cons_ne_nil _ _))

theorem ApplyPlace.Pending.length_le {place : ApplyPlace} {content : List Byte}
    (waits : place.Pending content pending) : content.length ≤ (stream UiMessage.encode pending).length := by
  cases place with
  | scanning | returned => exact Nat.le_of_eq (congrArg List.length waits)
  | reading i header =>
    obtain ⟨message, rest, rfl, _, rfl, _⟩ := waits
    rw [stream_cons, UiMessage.encode_eq, List.length_append, List.length_append, List.length_append]
    omega
  | received i taken =>
    obtain ⟨message, rest, rfl, _, rfl⟩ := waits
    rw [stream_cons, List.length_append]
    omega

theorem CyclePhase.Pending.length_le {cycle : CyclePhase} {content : List Byte}
    (waits : cycle.Pending content pending) : content.length ≤ (stream UiMessage.encode pending).length := by
  cases cycle with
  | applying works loop => exact ApplyPlace.Pending.length_le waits
  | idle | silent | running | calling => exact Nat.le_of_eq (congrArg List.length waits)

/-- There is room for the message that lets the plugin run again. -/
theorem PauseState.Trails.resumable (trails : state.Trails pending) (requested : state.apply = .requested true) :
    runStateMessageSize ≤ state.uiToPlugin.writeSpace := by
  have room := trails.room
  have trail := trails.trail
  have few : (stream UiMessage.encode pending).length ≤ sizeofHeader := by
    rw [requested] at trail
    rcases trail with rfl | rfl <;> decide
  have short := trails.waits.length_le
  rw [sizeofHeader] at few
  rw [leastRingCapacity] at room
  rw [runStateMessageSize, Fifo.writeSpace]
  omega

theorem PauseStep.trails (inRound : state.InRound point pending) (step : PauseStep backend False False state next) :
    ∃ left, next.Trails left := by
  have trails := inRound.trails
  cases step with
  | send message idle other sent => exact ⟨_, trails.sends state.apply sent (idle ▸ trivial)⟩
  | begin idle _ => exact ⟨pending, { trails with trail := by split <;> trivial }⟩
  | pause pausing sent => exact ⟨_, trails.sends _ sent (Or.inr ⟨pending, rfl⟩)⟩
  | wait waiting posted _ => exact ⟨pending, { trails with trail := inRound.posted waiting posted }⟩
  | @restore mustPause ready =>
    have trail := trails.trail
    rw [ready] at trail
    exact ⟨pending, { trails with trail := by cases mustPause <;> exact trail }⟩
  | @value mustPause _ _ _ symbol atom restoring set =>
    obtain ⟨⟨_, _, _, rfl⟩, sends⟩ := setPortValue_frame set
    cases mustPause with
    | true =>
      have still := setPortValue_paused_toPlugin (inRound.paused (restoring ▸ trivial)) set
      subst still
      exact ⟨pending, { trails with }⟩
    | false =>
      rcases sends with rfl | ⟨_, _, sent⟩
      · exact ⟨pending, { trails with }⟩
      · exact ⟨_, { trails.sends state.apply sent (restoring ▸ trivial) with }⟩
  | @finish mustPause restoring =>
    have trail := trails.trail
    rw [restoring] at trail
    exact ⟨pending, { trails with trail := by cases mustPause <;> exact trail }⟩
  | @request mustPause uiToPlugin restored sent =>
    have trail := trails.trail
    rw [restored] at trail
    split at sent
    · refine ⟨_, trails.sends _ sent ?_⟩
      cases mustPause with
      | false => trivial
      | true => exact Or.inr (by rw [trail]; rfl)
    · subst sent
      refine ⟨pending, { trails with trail := ?_ }⟩
      cases mustPause with
      | false => trivial
      | true => exact Or.inl trail
  | resume requested sent => exact ⟨_, trails.sends _ sent trivial⟩
  | leave requested => exact ⟨pending, { trails with trail := trivial }⟩
  | enter idle => exact ⟨pending, trails.move _ (idle ▸ trivial) (by split <;> trivial)⟩
  | bypass nframes silent => exact ⟨pending, trails.move _ (silent ▸ trivial) trivial⟩
  | prepare cycle running prepared =>
    obtain ⟨ports, pre, _, rfl⟩ := processCbPrepare_eq_some_iff.mp prepared
    exact ⟨pending, { trails.move (.applying true (.start state.uiToPlugin cycle.nframes))
      (running ▸ trivial) trivial with }⟩
  | applyUiEvents applying step =>
    have waits := trails.waits
    rw [applying] at waits
    obtain ⟨capacity, left, effect, waits⟩ := ApplyLoop.next_effect inRound.here.small waits step
    refine ⟨left, capacity ▸ trails.room, waits, ?_⟩
    cases effect with
    | reads => exact trails.trail
    | applies first => exact (first ▸ trails.trail).tail
  | @bypassed loop pst applying returned =>
    have whole : loop.place.Whole := returned ▸ trivial
    exact ⟨pending, trails.move _ (applying ▸ whole) trivial⟩
  | @call loop pst applying returned =>
    have whole : loop.place.Whole := returned ▸ trivial
    exact ⟨pending, trails.move _ (applying ▸ whole) trivial⟩
  | finishCycle output calling done =>
    obtain ⟨_, _, ports, post, _, rfl⟩ := processCbEnd_cases done
    exact ⟨pending, { trails.move .idle (calling ▸ trivial) trivial with }⟩

theorem ApplyStep.inRound (step : ApplyStep backend True state next) (inRound : state.InRound point pending) :
    ∃ after left, next.InRound after left := by
  cases step with
  | sent step =>
    obtain ⟨after, moved, there⟩ := step.moves inRound.here False.elim
    obtain ⟨left, trails⟩ := step.trails inRound
    exact ⟨after, left, there, moved.round inRound.round, trails⟩
  | @requestLost mustPause restored known full =>
    have moved : point.Step False False _ := .request (inRound.here.apply.trans restored)
    have there : PauseState.At { state with apply := .requested mustPause }
        { point with apply := .requested mustPause } := { inRound.here with apply := rfl }
    refine ⟨_, pending, there, moved.round inRound.round, { inRound.trails with trail := ?_ }⟩
    have trail := inRound.trails.trail
    rw [restored] at trail
    cases mustPause with
    | false => trivial
    | true => exact Or.inl trail
  | pauseLost pausing full met => exact absurd trivial met
  | resumeLost requested full => exact absurd (inRound.trails.resumable requested) (Nat.not_le_of_lt full)

theorem PauseState.InRound.unstuckBy (inRound : state.InRound point pending) : state.UnstuckBy pending := by
  have round := inRound.round
  rw [inRound.here.apply, inRound.here.paused, inRound.here.posts, inRound.queue] at round
  refine ⟨fun waiting => ?_, fun idle => ?_, fun idle => (idle ▸ round).rests.2⟩
  · exact (waiting ▸ round).waits.imp_left (UiMessage.mem_of_command rfl)
  · refine (idle ▸ round).rests.1.imp (fun running => ?_) (UiMessage.mem_of_command rfl)
    cases runState : state.jalv.process.runState with
    | running => rfl
    | paused => exact absurd runState (of_decide_eq_false running)

theorem PauseState.inRound_initial (roomy : Prop) (initial : (applySystem backend roomy).initial state) :
    ∃ point pending, state.InRound point pending := by
  obtain ⟨running, posts, idle, cycle, room, small, messages, content, none⟩ := initial
  have whole : state.cycle.Whole := by rcases cycle with same | same <;> rw [same] <;> trivial
  have waits := (CyclePhase.pending_of_whole whole).mpr content
  refine ⟨⟨state.jalv.safeRestore, .idle, state.cycle, [], false, 0⟩, messages, ?_, .running (Or.inl trivial),
    ⟨room, waits, idle ▸ trivial⟩⟩
  exact {
    small := small
    queue := ⟨messages, waits, (List.filterMap_eq_nil_iff.mpr none).symm⟩
    safeRestore := rfl
    apply := idle.symm
    cycle := rfl
    paused := by rw [running]; rfl
    posts := posts.symm }

end

/-- In runs in which every message that pauses the plugin finds room in the ring, neither the
main thread nor the plugin is stuck. While the process thread has read a message and not applied
it, that message counts as well. -/
theorem apply_unstuck (backend : JalvBackend) (state : PauseState)
    (reachable : (applySystem backend True).Reachable state) :
    (state.cycle.Whole → state.Unstuck) ∧
      ∃ pending, state.cycle.Pending state.uiToPlugin.content pending ∧ state.UnstuckBy pending := by
  have held : ∃ point pending, state.InRound point pending :=
    TransitionSystem.invariant (fun start initial => PauseState.inRound_initial True initial)
      (fun _ _ ⟨_, _, inRound⟩ step => step.inRound inRound) reachable
  obtain ⟨point, pending, inRound⟩ := held
  have waits := inRound.trails.waits
  exact ⟨fun whole => ⟨pending, (CyclePhase.pending_of_whole whole).mp waits, inRound.unstuckBy⟩,
    pending, waits, inRound.unstuckBy⟩

section

variable {backend : JalvBackend} {roomy : Prop} {state next : PauseState}

theorem ApplyStep.lift_sent (steps : Relation.ReflTransGen (PauseStep backend False False) state next) :
    Relation.ReflTransGen (ApplyStep backend roomy) state next :=
  steps.lift id fun _ _ => .sent

/-- The main thread may send any messages that find room. -/
theorem ApplyStep.sends (messages : List UiMessage) (idle : state.apply = .idle)
    (others : ∀ message ∈ messages, ∀ runState, message ≠ .runStateChange runState)
    (room : (stream UiMessage.encode messages).length ≤ state.uiToPlugin.writeSpace) :
    ∃ ring : ZixRing, ring.capacity = state.uiToPlugin.capacity ∧
      ring.content = state.uiToPlugin.content ++ stream UiMessage.encode messages ∧
      Relation.ReflTransGen (ApplyStep backend roomy) state { state with uiToPlugin := ring } := by
  induction messages generalizing state with
  | nil => exact ⟨state.uiToPlugin, rfl, (List.append_nil _).symm, .refl⟩
  | cons message messages ih =>
    rw [stream_cons, List.length_append] at room
    have bounded := state.uiToPlugin.bounded
    obtain ⟨next, sent⟩ : ∃ next, Sends state.uiToPlugin next message := by
      refine Option.ne_none_iff_exists'.mp fun full => ?_
      have short := writeAll_parts_eq_none_iff.mp full
      omega
    obtain ⟨capacity, content, _⟩ := sent.content
    have left : (stream UiMessage.encode messages).length ≤ next.writeSpace := by
      simp only [Fifo.writeSpace, capacity, content, List.length_append] at room ⊢
      omega
    obtain ⟨ring, same, whole, steps⟩ := @ih { state with uiToPlugin := next } idle
      (fun other member => others other (List.mem_cons_of_mem _ member)) left
    refine ⟨ring, same.trans capacity, ?_, .head (.sent (.send message idle (others _ List.mem_cons_self) sent)) steps⟩
    rw [whole, content, stream_cons, List.append_assoc]

end

def applyTestState : PauseState where
  jalv := { lookupTestHost with process := { framingTestProcess with runState := .running } }
  uiToPlugin := .empty leastRingCapacity
  pluginToUi := .empty leastRingCapacity
  apply := .idle
  cycle := .idle

theorem applyTestState_reachable (backend : JalvBackend) (roomy : Prop) :
    (applySystem backend roomy).Reachable applyTestState :=
  ⟨_, ⟨rfl, rfl, rfl, Or.inl rfl, Nat.le_refl _, by decide, [], rfl, fun _ member => by cases member⟩, .refl⟩

/-- A call that has come back, before the plugin runs again. -/
theorem apply_unstuck_test : ∃ state : PauseState,
    state.apply = .idle ∧ state.jalv.process.runState = .paused ∧ state.Unstuck := by
  have run := applyTestState_reachable jackTestBackend True
  have called := (run.step (.sent (.begin rfl False.elim))).step (.sent (.pause rfl rfl))
  have posted := (called.step (.sent (.enter rfl))).steps
    (ApplyStep.lift_sent (PauseState.steps_begun jackTestCycle rfl rfl))
  have restoring := (posted.step (.sent (.wait rfl rfl False.elim))).step (.sent (.restore rfl))
  have restored := restoring.step (.sent (.finish rfl))
  have resuming := (restored.step (.sent (.request rfl rfl))).step (.sent (.resume rfl rfl))
  exact ⟨_, rfl, rfl, (apply_unstuck _ _ resuming).1 trivial⟩

-- These leave eleven bytes of a ring of the least capacity.
def applyTestMessages : List UiMessage :=
  List.replicate 254 (.controlPortChange 0 0) ++ [.eventTransfer 1 emptyAtom]

theorem applyTestMessages_other {message : UiMessage} (member : message ∈ applyTestMessages) (runState : JalvRunState) :
    message ≠ .runStateChange runState := by
  rcases List.mem_append.mp member with many | one
  · rw [List.eq_of_mem_replicate many]
    exact UiMessage.noConfusion
  · rw [List.mem_singleton.mp one]
    exact UiMessage.noConfusion

theorem length_applyTestMessages : (stream UiMessage.encode applyTestMessages).length = 4084 := by
  have many (count : Nat) :
      (stream UiMessage.encode (List.replicate count (.controlPortChange 0 0))).length = 16 * count := by
    induction count with
    | zero => rfl
    | succ count ih =>
      rw [List.replicate_succ, stream_cons, List.length_append, ih]
      change 16 + 16 * count = _
      omega
  rw [applyTestMessages, stream_append, List.length_append, many]
  rfl

/-- The main thread waits for a message that found no room. Even if there is room for it, the message
is neither in the ring nor posted once it has been read. -/
theorem apply_refuted :
    (∃ state, (applySystem jackTestBackend False).Reachable state ∧ state.apply = .waiting ∧ state.cycle = .idle ∧
      ¬ state.Unstuck) ∧
    ∃ state, (applySystem jackTestBackend True).Reachable state ∧ state.apply = .waiting ∧ ¬ state.Unstuck := by
  constructor
  · have run := applyTestState_reachable jackTestBackend False
    obtain ⟨ring, capacity, content, steps⟩ := @ApplyStep.sends jackTestBackend False applyTestState
      applyTestMessages rfl (fun _ => applyTestMessages_other) (by rw [length_applyTestMessages]; decide)
    have full : ring.writeSpace < runStateMessageSize := by
      rw [Fifo.writeSpace, capacity, content, List.length_append, length_applyTestMessages]
      decide
    have waiting := ((run.steps steps).step (.sent (.begin rfl False.elim))).step (.pauseLost rfl full id)
    refine ⟨_, waiting, rfl, rfl, ?_⟩
    rintro ⟨messages, same, unstuck⟩
    have held : messages = applyTestMessages :=
      UiMessage.stream_injective (same.symm.trans (content.trans (List.nil_append _)))
    rcases unstuck.waits rfl with member | posted
    · exact applyTestMessages_other (held ▸ member) .paused rfl
    · exact Nat.lt_irrefl 0 posted
  -- The process thread has read the message and not yet posted
  · have run := applyTestState_reachable jackTestBackend True
    have called := (run.step (.sent (.begin rfl False.elim))).step (.sent (.pause rfl rfl))
    have begun := (called.step (.sent (.enter rfl))).step (.sent (.prepare jackTestCycle rfl rfl))
    obtain ⟨state, read, waiting, posts, content⟩ : ∃ state,
        (applySystem jackTestBackend True).Reachable state ∧ state.apply = .waiting ∧
        state.jalv.process.paused = 0 ∧ state.uiToPlugin.content = [] :=
      ⟨_, (begun.step (.sent (.applyUiEvents rfl rfl))).step (.sent (.applyUiEvents rfl rfl)), rfl, rfl, rfl⟩
    refine ⟨state, read, waiting, ?_⟩
    rintro ⟨messages, same, unstuck⟩
    have none : messages = [] := UiMessage.stream_injective (same.symm.trans content)
    rcases unstuck.waits waiting with member | posted
    · rw [none] at member
      cases member
    · exact absurd posted (posts ▸ Nat.lt_irrefl 0)

end Jalv
