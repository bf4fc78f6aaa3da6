import Jalv.Backend.Delivery
import Jalv.Backend.PortAudio
import Jalv.Process.Accepted

/-! Delivery of events to the plugin in the PortAudio backend.

A running cycle resets all event buffers before it takes messages from the ring, so
that it also drops what paused cycles have put into them.
-/

set_option autoImplicit false

namespace Jalv

open Foundation

/-- A call of `lilv_instance_run`: the process state, and by port the accepted events that paused
cycles have taken from the ring since the call before, and those of the cycle itself. -/
structure PluginCall where
  proc : JalvProcess
  left : Nat → List AtomEvent
  taken : Nat → List AtomEvent

/-- The process callback and the rings, with the messages that wait in the ring to the
process thread, the events that paused cycles have taken since the last call, the call
that is in progress, and all calls. -/
structure PlaybackState where
  callback : JackProcess
  waiting : List UiMessage
  left : Nat → List AtomEvent
  running : Option (JalvProcessStatus × UInt32)
  calls : List PluginCall

def PlaybackState.start (proc : JalvProcess) (uiToPlugin pluginToUi : UInt32) : PlaybackState where
  callback := ⟨proc, .empty uiToPlugin.toNat, .empty pluginToUi.toNat⟩
  waiting := []
  left := fun _ => []
  running := none
  calls := []

/-- The main thread sends a message or reads from its ring, and a cycle is paused or running. -/
inductive PlaybackStep : PlaybackState → PlaybackState → Prop where
  | send {state : PlaybackState} {uiToPlugin : ZixRing} (message : UiMessage)
      (deliverable : message.Deliverable state.callback.proc.layout)
      (sent : Sends state.callback.uiToPlugin uiToPlugin message) :
      PlaybackStep state
        { state with callback := { state.callback with uiToPlugin }, waiting := state.waiting ++ [message] }
  | update {state : PlaybackState} (pluginToUi : ZixRing) :
      PlaybackStep state { state with callback := { state.callback with pluginToUi } }
  | paused {state : PlaybackState} {callback : JackProcess} (nframes : UInt32) (idle : state.running = none)
      (paused : state.callback.proc.runState = .paused)
      (checked : SpaceChecked nframes state.callback.proc state.waiting)
      (done : processSilent state.callback nframes = some callback) :
      PlaybackStep state
        { state with
          callback, waiting := []
          left := fun index =>
            state.left index ++ acceptedEventsFrom nframes state.callback.proc state.waiting index }
  | run {state : PlaybackState} {callback : JackProcess} {pst : JalvProcessStatus} {ports : List JalvProcessPort}
      (nframes : UInt32) (idle : state.running = none) (running : state.callback.proc.runState = .running)
      (prepared : state.callback.proc.ports.mapM PortAudio.preProcessPort = some ports)
      (checked : SpaceChecked nframes { state.callback.proc with ports } state.waiting)
      (begun : PortAudio.processCbBegin state.callback nframes = some (pst, callback)) :
      PlaybackStep state
        { callback, waiting := [], left := fun _ => [], running := some (pst, nframes)
          calls := state.calls ++ [⟨callback.proc, state.left,
            acceptedEventsFrom nframes { state.callback.proc with ports } state.waiting⟩] }
  | finish {state : PlaybackState} {callback : JackProcess} {pst : JalvProcessStatus} {nframes : UInt32}
      (output : PluginOutput) (inside : state.running = some (pst, nframes))
      (done : PortAudio.processCbEnd pst state.callback nframes output = some callback) :
      PlaybackStep state { state with callback, running := none }

def playbackSystem (urids : JalvURIDs) : TransitionSystem PlaybackState where
  initial state := ∃ proc midiBufSize updateFrames contents message uiToPlugin pluginToUi,
    state = .start (jalvProcessActivate proc urids midiBufSize updateFrames contents message) uiToPlugin pluginToUi ∧
      state.callback.proc.layout.Prepared
  step := PlaybackStep

/-- The plugin finds the events that were taken from the ring since the call before, each of
them once, in the buffer of each event input port. -/
def PluginCall.Delivered (call : PluginCall) : Prop :=
  ∀ (index : Nat) (port : JalvProcessPort), call.proc.ports[index]? = some port →
    port.type = .event → port.flow = .input →
    ∃ evbuf events, port.evbuf = some evbuf ∧ evbuf.type = evbuf.atomSequence ∧
      lv2EvbufEvents evbuf = some events ∧ events.Perm (call.left index ++ call.taken index)

/-- No paused cycle since the call before has taken an event for an input port from the ring. -/
def PluginCall.NothingLeft (call : PluginCall) : Prop :=
  ∀ (index : Nat) (port : JalvProcessPort), call.proc.ports[index]? = some port →
    port.type = .event → port.flow = .input → call.left index = []

def PluginCall.FindsTaken (call : PluginCall) : Prop :=
  ∀ (index : Nat) (port : JalvProcessPort), call.proc.ports[index]? = some port →
    port.type = .event → port.flow = .input →
    ∃ evbuf, port.evbuf = some evbuf ∧ evbuf.Sequence (call.taken index)

theorem PluginCall.FindsTaken.delivered_iff {call : PluginCall} (finds : call.FindsTaken) :
    call.Delivered ↔ call.NothingLeft := by
  constructor
  · intro delivered index port found event input
    obtain ⟨evbuf, buffer, holds⟩ := finds index port found event input
    obtain ⟨evbuf', events, buffer', _, read, same⟩ := delivered index port found event input
    cases buffer.symm.trans buffer'
    cases holds.read.symm.trans read
    have lengths := same.length_eq
    rw [List.length_append] at lengths
    exact List.eq_nil_of_length_eq_zero (by omega)
  · intro nothing index port found event input
    obtain ⟨evbuf, buffer, holds⟩ := finds index port found event input
    rw [nothing index port found event input]
    exact ⟨evbuf, _, buffer, holds.type, holds.read, .refl _⟩

namespace PortAudio

section

variable {callback next : JackProcess} {ports : List JalvProcessPort} {pst : JalvProcessStatus} {nframes : UInt32}

theorem preProcessPort_shape {port changed : JalvProcessPort} (prepared : preProcessPort port = some changed) :
    changed.shape = port.shape := by
  unfold preProcessPort at prepared
  split at prepared
  · obtain ⟨evbuf, buffer, same⟩ := Option.bind_eq_some_iff.mp prepared
    cases same
    exact JalvProcessPort.shape_evbuf buffer (lv2EvbufReset_shape _ _)
  · cases prepared
    rfl

theorem prepared_layout {proc : JalvProcess} (prepared : proc.ports.mapM preProcessPort = some ports) :
    ({ proc with ports } : JalvProcess).layout = proc.layout := by
  have layouts := mapM_map JalvProcessPort.layout
    (fun _ _ changed => JalvProcessPort.layout_of_shape (preProcessPort_shape changed)) prepared
  simp only [JalvProcess.layout, layouts]

theorem prepared_queues {proc : JalvProcess} (prepared : proc.ports.mapM preProcessPort = some ports) :
    ({ proc with ports } : JalvProcess).Queues (fun _ => []) fun _ => [] := by
  intro index port found event input
  obtain ⟨before, _, changed⟩ := mapM_getElem? prepared found
  have same := JalvProcessPort.layout_of_shape (preProcessPort_shape changed)
  simp only [JalvProcessPort.layout, PortLayout.mk.injEq] at same
  rw [preProcessPort, if_pos (same.1 ▸ event)] at changed
  obtain ⟨evbuf, _, reset⟩ := Option.bind_eq_some_iff.mp changed
  cases reset
  have inward : before.flow = .input := input
  refine ⟨_, rfl, ?_, trivial⟩
  rw [decide_eq_true inward]
  exact lv2EvbufReset_sequence evbuf

theorem processCbBegin_eq_some_iff (prepared : callback.proc.ports.mapM preProcessPort = some ports) :
    processCbBegin callback nframes = some (pst, next) ↔
      applyUiEvents { callback.proc with ports } callback.uiToPlugin nframes = some (pst, next.proc, next.uiToPlugin) ∧
        next.pluginToUi = callback.pluginToUi := by
  simp only [processCbBegin, prepared, Option.bind_eq_bind, Option.bind_some, jalvRunBegin, Option.bind_eq_some_iff]
  constructor
  · rintro ⟨⟨status, proc, uiToPlugin⟩, applied, same⟩
    cases same
    exact ⟨applied, rfl⟩
  · rintro ⟨applied, same⟩
    refine ⟨(pst, next.proc, next.uiToPlugin), applied, ?_⟩
    rw [← same]
    rfl

theorem finishPort_shape {controlsBuf : List UInt32} {sendUpdates : Bool} {index : Nat} {port changed : JalvProcessPort}
    {before after : ZixRing} (finished : finishPort controlsBuf sendUpdates index port before = some (changed, after)) :
    changed.shape = port.shape := by
  unfold finishPort at finished
  split at finished
  · obtain ⟨evbuf, buffer, same⟩ := Option.bind_eq_some_iff.mp finished
    cases same
    exact JalvProcessPort.shape_evbuf buffer (lv2EvbufReset_shape _ _)
  · split at finished
    · obtain ⟨evbuf, _, more⟩ := Option.bind_eq_some_iff.mp finished
      obtain ⟨events, _, same⟩ := Option.bind_eq_some_iff.mp more
      cases same
      rfl
    · split at finished
      · obtain ⟨value, _, same⟩ := Option.bind_eq_some_iff.mp finished
        cases same
        rfl
      · cases finished
        rfl

theorem processCbEnd_layout {output : PluginOutput} (done : processCbEnd pst callback nframes output = some next) :
    next.proc.layout = callback.proc.layout ∧ next.uiToPlugin = callback.uiToPlugin := by
  obtain ⟨pendingFrames, frame⟩ := jalvRunEnd_frame pst callback.proc nframes output
  rw [processCbEnd] at done
  cases ran : jalvRunEnd pst callback.proc nframes output with
  | mk status proc =>
    rw [ran] at done frame
    simp only at frame
    subst frame
    obtain ⟨⟨ports, ring⟩, finished, same⟩ := Option.bind_eq_some_iff.mp done
    cases same
    have shapes := (changeFrom_map JalvProcessPort.shape (fun _ _ _ _ _ finished => finishPort_shape finished)
      finished).trans (lilvInstanceRun_shapes callback.proc output)
    have layouts := @JalvProcess.ports_layout callback.proc { callback.proc with ports } shapes
    refine ⟨?_, rfl⟩
    simp only [JalvProcess.layout, layouts]
    simp only [lilvInstanceRun, List.length_mapIdx]

end

end PortAudio

structure PlaybackState.Served (state : PlaybackState) : Prop where
  prepared : state.callback.proc.layout.Prepared
  small : state.callback.uiToPlugin.capacity < 2 ^ 32
  content : state.callback.uiToPlugin.content = stream UiMessage.encode state.waiting
  deliverable : ∀ message ∈ state.waiting, message.Deliverable state.callback.proc.layout
  finds : ∀ call ∈ state.calls, call.FindsTaken

section

variable {state next : PlaybackState}

theorem PlaybackStep.served (served : state.Served) (step : PlaybackStep state next) : next.Served := by
  cases step with
  | send message deliverable sent =>
    exact { served with
      small := sent.content.1 ▸ served.small
      content := sent.stream served.content
      deliverable := forall_mem_concat served.deliverable deliverable }
  | update pluginToUi => exact { served with }
  | paused nframes _ _ _ done =>
    obtain ⟨proc, applied, _, layout⟩ := applyUiEvents_deliverable served.prepared served.small
      served.content served.deliverable nframes
    simp only [processSilent, jalvBypass, applied, Option.map_some, Option.bind_eq_bind, Option.bind_some,
      Option.pure_def, Option.some.injEq] at done
    subst done
    exact {
      prepared := layout ▸ served.prepared
      small := served.small
      content := rfl
      deliverable := by simp
      finds := served.finds }
  | @run callback pst ports nframes _ _ prepared checked begun =>
    have layout := PortAudio.prepared_layout prepared
    obtain ⟨applies, _⟩ := (PortAudio.processCbBegin_eq_some_iff prepared).mp begun
    obtain ⟨proc, applied, delivered, kept⟩ := applyUiEvents_deliverable (layout ▸ served.prepared) served.small
      served.content (layout ▸ served.deliverable) nframes
    rw [applied, Option.some.injEq, Prod.mk.injEq, Prod.mk.injEq] at applies
    obtain ⟨_, rfl, ring⟩ := applies
    have holds := deliverAll_accepted (PortAudio.prepared_queues prepared) checked delivered
    exact {
      prepared := kept ▸ layout ▸ served.prepared
      small := by rw [← ring]; exact served.small
      content := by rw [← ring]; rfl
      deliverable := by simp
      finds := by
        refine forall_mem_concat served.finds fun index port found event input => ?_
        obtain ⟨evbuf, buffer, sequence, _⟩ := holds index port found event input
        exact ⟨evbuf, buffer, sequence⟩ }
  | finish output _ done =>
    obtain ⟨layout, ring⟩ := PortAudio.processCbEnd_layout done
    exact {
      prepared := layout ▸ served.prepared
      small := ring ▸ served.small
      content := ring ▸ served.content
      deliverable := layout ▸ served.deliverable
      finds := served.finds }

theorem PlaybackState.served_initial {urids : JalvURIDs} (initial : (playbackSystem urids).initial state) :
    state.Served := by
  obtain ⟨proc, midiBufSize, updateFrames, contents, message, uiToPlugin, pluginToUi, rfl, prepared⟩ := initial
  exact {
    prepared := prepared
    small := uiToPlugin.toNat_lt
    content := rfl
    deliverable := by simp [start]
    finds := by simp [start] }

end

/-- In all runs, a call of `lilv_instance_run` finds all events that were taken from the ring for
it if and only if paused cycles have taken none of them. -/
theorem playback_delivered_iff (urids : JalvURIDs) (state : PlaybackState)
    (reachable : (playbackSystem urids).Reachable state) :
    ∀ call ∈ state.calls, call.Delivered ↔ call.NothingLeft := by
  have served : state.Served := TransitionSystem.invariant (fun _ => PlaybackState.served_initial)
    (fun _ _ served step => step.served served) reachable
  exact fun call member => (served.finds call member).delivered_iff

def playbackTestStart : PlaybackState :=
  .start (jalvProcessActivate deliveryTestProcess jackTestBackend.urids 4096 0 (fun _ _ => 0) fun _ => 0) 4095 4095

theorem playbackTestStart_initial : (playbackSystem jackTestBackend.urids).initial playbackTestStart :=
  ⟨_, _, _, _, _, _, _, rfl, rfl, fun _ => rfl⟩

theorem playbackTestStart_request : UiMessage.stateRequest.Deliverable playbackTestStart.callback.proc.layout :=
  (by decide : (0 : UInt32) ≠ uint32Max)

theorem spaceChecked_running (nframes : UInt32) (proc : JalvProcess) :
    SpaceChecked nframes proc [.runStateChange .running] :=
  ⟨fun _ _ events => absurd rfl events, fun _ _ => trivial⟩

theorem spaceChecked_request {nframes : UInt32} {proc : JalvProcess} {rest : List UiMessage} {evbuf : LV2Evbuf}
    (control : proc.controlIn = 0) (buffer : proc.buffer 0 = some evbuf)
    (sized : evbuf.size.toNat + 8 ≤ evbuf.capacity.toNat)
    (others : ∀ next, deliver nframes proc .stateRequest = some next → SpaceChecked nframes next rest) :
    SpaceChecked nframes proc (.stateRequest :: rest) := by
  refine ⟨fun index found events held => ?_, others⟩
  have first : index = 0 := by
    by_contra other
    exact events (if_neg fun same => other (by rw [← same, control]; rfl))
  subst first
  cases buffer.symm.trans held
  exact sized

/-- A state request that a running cycle takes from the ring is found by the plugin. -/
theorem playback_delivered_iff_test : ∃ state call, (playbackSystem jackTestBackend.urids).Reachable state ∧
    state.calls = [call] ∧ call.Delivered ∧ (call.taken 0).length = 1 := by
  have run : ∃ state call, (playbackSystem jackTestBackend.urids).Reachable state ∧ state.calls = [call] ∧
      call.NothingLeft ∧ (call.taken 0).length = 1 := by
    refine ⟨_, _, ⟨_, playbackTestStart_initial, (((Relation.ReflTransGen.single
      (.send (.runStateChange .running) trivial rfl)).tail (.paused 64 rfl rfl (spaceChecked_running _ _) rfl)).tail
        (.send .stateRequest playbackTestStart_request rfl)).tail (.run 64 rfl rfl rfl ?_ rfl)⟩, rfl, ?_, rfl⟩
    · exact spaceChecked_request rfl rfl (by decide) fun _ _ => trivial
    · exact fun _ _ _ _ _ => rfl
  obtain ⟨state, call, reachable, called, nothing, taken⟩ := run
  have member : call ∈ state.calls := by rw [called]; exact List.mem_singleton_self call
  exact ⟨state, call, reachable, called,
    (playback_delivered_iff jackTestBackend.urids state reachable call member).mpr nothing, taken⟩

/-- The state request that is sent before the message to run is lost in the paused cycle. -/
theorem playback_refuted : ∃ state call, (playbackSystem jackTestBackend.urids).Reachable state ∧
    state.calls = [call] ∧ (call.left 0).length = 1 ∧ ¬call.Delivered := by
  refine ⟨_, _, ⟨_, playbackTestStart_initial, (((Relation.ReflTransGen.single
    (.send .stateRequest playbackTestStart_request rfl)).tail (.send (.runStateChange .running) trivial rfl)).tail
      (.paused 64 rfl rfl ?_ rfl)).tail (.run 64 rfl rfl rfl ?_ rfl)⟩, rfl, rfl, ?_⟩
  · exact trivial
  · intro delivered
    obtain ⟨evbuf, events, buffer, _, found, same⟩ := delivered 0 _ rfl rfl rfl
    cases buffer
    have none : events = [] := (Option.some.inj found).symm
    have lengths : 0 = 1 := (congrArg List.length none).symm.trans same.length_eq
    cases lengths
  · exact spaceChecked_request rfl rfl (by decide) fun next _ => spaceChecked_running 64 next

end Jalv
