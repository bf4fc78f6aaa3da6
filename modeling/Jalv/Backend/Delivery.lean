import Jalv.Backend.Cycle
import Jalv.Backend.Host
import Jalv.Foundation.Transition
import Jalv.Message.Send

/-! Delivery of events to the plugin in the JACK backend.

The position of the transport and the MIDI input are written from the beginning
of an event buffer, and the events from the main thread at its end. The buffer is
only cleared behind a running cycle, so that a paused one may leave events in it.
-/

set_option autoImplicit false

namespace Jalv

open Foundation

def cycleEvents (backend : JalvBackend) (proc : JalvProcess) (cycle : JackCycle) (index : Nat) : List AtomEvent :=
  match proc.ports[index]? with
  | some port => portEvents backend proc.transport cycle index port
  | none => []

/-- The process callback and the rings, with the messages that wait in the ring to the
process thread, the events by port that were taken from it since the last call of
`lilv_instance_run`, the call that is in progress, and each call with its state and
the events that it should find. -/
structure DeliveryState where
  jack : JackProcess
  waiting : List UiMessage
  left : Nat → List AtomEvent
  running : Option (JalvProcessStatus × UInt32)
  calls : List (JalvProcess × (Nat → List AtomEvent))

def DeliveryState.start (proc : JalvProcess) (uiToPlugin pluginToUi : UInt32) : DeliveryState where
  jack := ⟨proc, .empty uiToPlugin.toNat, .empty pluginToUi.toNat⟩
  waiting := []
  left := fun _ => []
  running := none
  calls := []

def DeliveryState.kept (state : DeliveryState) (nframes : UInt32) (index : Nat) : List AtomEvent :=
  state.left index ++ uiEvents state.jack.proc nframes state.waiting index

def DeliveryState.expected (backend : JalvBackend) (state : DeliveryState) (cycle : JackCycle) (index : Nat) :
    List AtomEvent :=
  state.left index ++ cycleEvents backend state.jack.proc cycle index ++
    uiEvents state.jack.proc cycle.nframes state.waiting index

/-- The main thread sends a message or reads from its ring, and a cycle is paused or
running. All cycles find room in the buffers, and running cycles meet a condition. -/
inductive DeliveryStep (backend : JalvBackend) (condition : DeliveryState → JackCycle → Prop) :
    DeliveryState → DeliveryState → Prop where
  | send {state : DeliveryState} {uiToPlugin : ZixRing} (message : UiMessage)
      (deliverable : message.Deliverable state.jack.proc.layout)
      (sent : Sends state.jack.uiToPlugin uiToPlugin message) :
      DeliveryStep backend condition state
        { state with jack := { state.jack with uiToPlugin }, waiting := state.waiting ++ [message] }
  | update {state : DeliveryState} (pluginToUi : ZixRing) :
      DeliveryStep backend condition state { state with jack := { state.jack with pluginToUi } }
  | paused {state : DeliveryState} {jack : JackProcess} (nframes : UInt32) (idle : state.running = none)
      (paused : state.jack.proc.runState = .paused) (room : state.jack.proc.Room (state.kept nframes))
      (done : processSilent state.jack nframes = some jack) :
      DeliveryStep backend condition state { state with jack, waiting := [], left := state.kept nframes }
  | run {state : DeliveryState} {jack : JackProcess} {pst : JalvProcessStatus} (cycle : JackCycle)
      (idle : state.running = none) (running : state.jack.proc.runState = .running)
      (room : state.jack.proc.Room (state.expected backend cycle)) (met : condition state cycle)
      (begun : processCbBegin backend state.jack cycle = some (pst, jack)) :
      DeliveryStep backend condition state
        { state with
          jack, waiting := [], left := fun _ => [], running := some (pst, cycle.nframes)
          calls := state.calls ++ [(jack.proc, state.expected backend cycle)] }
  | finish {state : DeliveryState} {jack : JackProcess} {pst : JalvProcessStatus} {nframes : UInt32}
      {midi : List (Nat × JackMidiEvent)} (output : PluginOutput) (inside : state.running = some (pst, nframes))
      (done : processCbEnd backend pst state.jack nframes output = some (jack, midi)) :
      DeliveryStep backend condition state { state with jack, running := none }

def deliverySystem (backend : JalvBackend) (condition : DeliveryState → JackCycle → Prop) :
    TransitionSystem DeliveryState where
  initial state := ∃ proc midiBufSize updateFrames contents message uiToPlugin pluginToUi,
    state = .start (jalvProcessActivate proc backend.urids midiBufSize updateFrames contents message)
      uiToPlugin pluginToUi ∧ state.jack.proc.layout.Prepared
  step := DeliveryStep backend condition

/-- Each call of `lilv_instance_run` finds exactly its events in the buffer of each event
input port, as the buffer is read from `lv2_evbuf_begin` on. -/
def DeliveryState.Delivered (state : DeliveryState) : Prop :=
  ∀ call ∈ state.calls, ∀ index port, call.1.ports[index]? = some port → port.type = .event →
    port.flow = .input → ∃ evbuf events, port.evbuf = some evbuf ∧ evbuf.type = evbuf.atomSequence ∧
      lv2EvbufEvents evbuf = some events ∧ events.Perm (call.2 index)

/-- A cycle writes nothing from the beginning of a buffer in which a paused cycle left events. -/
def DeliveryState.Separate (backend : JalvBackend) (state : DeliveryState) (cycle : JackCycle) : Prop :=
  ∀ index port, state.jack.proc.ports[index]? = some port → port.type = .event → port.flow = .input →
    state.left index = [] ∨ portEvents backend state.jack.proc.transport cycle index port = []

theorem preProcess_queues {backend : JalvBackend} {jack : JackProcess} {cycle : JackCycle}
    {left awaited : Nat → List AtomEvent} {ports : List JalvProcessPort} {state : PreState}
    (queues : jack.proc.Queues left fun index => cycleEvents backend jack.proc cycle index ++ awaited index)
    (separate : ∀ index port, jack.proc.ports[index]? = some port → port.type = .event → port.flow = .input →
      left index = [] ∨ portEvents backend jack.proc.transport cycle index port = [])
    (prepared : preProcess backend jack cycle = some (ports, state)) :
    (jack.prepared backend cycle ports state).Queues
      (fun index => left index ++ cycleEvents backend jack.proc cycle index) awaited := by
  intro index changed found event input
  obtain ⟨port, before, after, here, prepares⟩ := changeFrom_getElem? prepared found
  rw [Nat.zero_add] at prepares
  have same := JalvProcessPort.layout_of_shape (preProcessPort_shape prepares).1
  simp only [JalvProcessPort.layout, PortLayout.mk.injEq] at same
  have event := same.1 ▸ event
  have input := same.2.1 ▸ input
  obtain ⟨evbuf, buffer, _, rfl⟩ := preProcessPort_eventInput event input prepares
  -- The buffer that was prepared is the one that the invariant is about
  obtain ⟨_, buffer', holds, room⟩ := queues index port here event input
  rw [buffer, Option.some.injEq] at buffer'
  subst buffer'
  obtain ⟨first, others⟩ := eventsRoom_append.mp room
  simp only [cycleEvents, here] at first others ⊢
  refine ⟨_, rfl, ?_, ?_⟩
  -- Writing begins at the front of the buffer, so it only appends to what is left if one of both is
  -- empty
  · rcases separate index port here event input with none | nothing
    · rw [none] at holds first ⊢
      have begins : (lv2EvbufBegin evbuf).evbuf.Sequence [] := holds
      exact begins.writeEvents holds.begin first
    · rw [nothing, List.append_nil]
      exact holds
  · rw [writeEvents_capacity, eventsSize_append]
    exact others

structure DeliveryState.Served (state : DeliveryState) : Prop where
  prepared : state.jack.proc.layout.Prepared
  buffered : state.jack.proc.layout.Buffered
  small : state.jack.uiToPlugin.capacity < 2 ^ 32
  content : state.jack.uiToPlugin.content = stream UiMessage.encode state.waiting
  deliverable : ∀ message ∈ state.waiting, message.Deliverable state.jack.proc.layout
  queues : state.running = none → state.jack.proc.Queues state.left fun _ => []
  cleared : state.running ≠ none → state.left = fun _ => []
  delivered : state.Delivered

section

variable {backend : JalvBackend} {state : DeliveryState}

theorem DeliveryState.Served.silent {jack : JackProcess} {nframes : UInt32} (served : state.Served)
    (idle : state.running = none) (room : state.jack.proc.Room (state.kept nframes))
    (done : processSilent state.jack nframes = some jack) :
    ({ state with jack, waiting := [], left := state.kept nframes } : DeliveryState).Served := by
  obtain ⟨next, applied, delivered, layout⟩ := applyUiEvents_deliverable served.prepared served.small
    served.content served.deliverable nframes
  simp only [processSilent, jalvBypass, applied, Option.map_some, Option.bind_eq_bind, Option.bind_some,
    Option.pure_def, Option.some.injEq] at done
  subst done
  have awaits : state.jack.proc.Queues state.left
      fun index => uiEvents state.jack.proc nframes state.waiting index ++ [] := by
    simp only [List.append_nil]
    exact (served.queues idle).await room
  exact {
    prepared := layout ▸ served.prepared
    buffered := layout ▸ served.buffered
    small := served.small
    content := rfl
    deliverable := by simp
    queues := fun _ => deliverAll_queues awaits delivered
    cleared := fun inside => absurd idle inside
    delivered := served.delivered }

theorem DeliveryState.Served.run {jack : JackProcess} {pst : JalvProcessStatus} {cycle : JackCycle}
    (served : state.Served) (idle : state.running = none)
    (room : state.jack.proc.Room (state.expected backend cycle)) (separate : state.Separate backend cycle)
    (begun : processCbBegin backend state.jack cycle = some (pst, jack)) :
    ({ state with
        jack, waiting := [], left := fun _ => [], running := some (pst, cycle.nframes)
        calls := state.calls ++ [(jack.proc, state.expected backend cycle)] } : DeliveryState).Served := by
  obtain ⟨ports, pre, prepared, applies, same⟩ := processCbBegin_eq_some_iff.mp begun
  have layout := preProcess_layout prepared
  obtain ⟨next, applied, delivered, kept⟩ := applyUiEvents_deliverable
    (layout ▸ served.prepared) served.small served.content (layout ▸ served.deliverable) cycle.nframes
  rw [applied, Option.some.injEq, Prod.mk.injEq, Prod.mk.injEq] at applies
  obtain ⟨_, rfl, ring⟩ := applies
  -- The room is for what was left, what the cycle writes and the messages, in this order
  have awaits : state.jack.proc.Queues state.left fun index => cycleEvents backend state.jack.proc cycle index ++
      (uiEvents state.jack.proc cycle.nframes state.waiting index ++ []) := by
    refine (served.queues idle).await fun index port evbuf found event input buffer => ?_
    have all := room index port evbuf found event input buffer
    simp only [List.append_nil]
    rwa [DeliveryState.expected, List.append_assoc] at all
  have holds := deliverAll_queues (preProcess_queues awaits separate prepared) delivered
  exact {
    prepared := kept ▸ layout ▸ served.prepared
    buffered := kept ▸ layout ▸ served.buffered
    small := by rw [← ring]; exact served.small
    content := by rw [← ring]; rfl
    deliverable := by simp
    queues := fun outside => by cases outside
    cleared := fun _ => rfl
    delivered := by
      refine forall_mem_concat served.delivered ?_
      intro index port found event input
      obtain ⟨evbuf, buffer, sequence, _⟩ := holds index port found event input
      exact ⟨evbuf, _, buffer, sequence.type, sequence.read, .refl _⟩ }

theorem DeliveryStep.served {next : DeliveryState} (served : state.Served)
    (step : DeliveryStep backend (DeliveryState.Separate backend) state next) : next.Served := by
  cases step with
  | send message deliverable sent =>
    exact { served with
      small := sent.content.1 ▸ served.small
      content := sent.stream served.content
      deliverable := forall_mem_concat served.deliverable deliverable }
  | update pluginToUi => exact { served with }
  | paused nframes idle _ room done => exact served.silent idle room done
  | run cycle idle _ room met begun => exact served.run idle room met begun
  | finish output inside done =>
    obtain ⟨layout, ring⟩ := processCbEnd_layout done
    exact {
      prepared := layout ▸ served.prepared
      buffered := layout ▸ served.buffered
      small := ring ▸ served.small
      content := ring ▸ served.content
      deliverable := layout ▸ served.deliverable
      -- Behind the plugin all buffers are reset, and nothing is left since the cycle began
      queues := fun _ => by
        have none := served.cleared (by simp [inside])
        rw [none]
        exact processCbEnd_queues done
      cleared := fun outside => absurd rfl outside
      delivered := served.delivered }

theorem DeliveryState.served_initial
    (initial : (deliverySystem backend (DeliveryState.Separate backend)).initial state) : state.Served := by
  obtain ⟨proc, midiBufSize, updateFrames, contents, message, uiToPlugin, pluginToUi, rfl, prepared⟩ := initial
  exact {
    prepared := prepared
    buffered := jalvProcessActivate_buffered proc backend.urids midiBufSize updateFrames contents message
    small := uiToPlugin.toNat_lt
    content := rfl
    deliverable := by simp [start]
    queues := fun _ => jalvProcessActivate_queues proc backend.urids midiBufSize updateFrames contents message
    cleared := fun inside => absurd rfl inside
    delivered := by simp [Delivered, start] }

theorem DeliveryState.Served.progress (served : state.Served) (cycle : JackCycle) :
    ∃ jack, processCbBegin backend state.jack cycle = some (.success, jack) := by
  obtain ⟨ports, pre, prepared⟩ := preProcess_isSome backend state.jack cycle served.prepared served.buffered
  have layout := preProcess_layout prepared
  obtain ⟨next, applied, _⟩ := applyUiEvents_deliverable (layout ▸ served.prepared) served.small served.content
    (layout ▸ served.deliverable) cycle.nframes
  exact ⟨⟨next, _, _⟩, processCbBegin_eq_some_iff.mpr ⟨ports, pre, prepared, applied, rfl⟩⟩

end

/-- In a run in which no cycle writes a position or MIDI input over events that a paused
cycle has left, each call of `lilv_instance_run` finds exactly its events. -/
theorem events_delivered (backend : JalvBackend) (state : DeliveryState)
    (reachable : (deliverySystem backend (DeliveryState.Separate backend)).Reachable state) : state.Delivered := by
  have served : state.Served := TransitionSystem.invariant (fun _ => DeliveryState.served_initial)
    (fun _ _ served step => step.served served) reachable
  exact served.delivered

def deliveryTestProcess : JalvProcess :=
  { jalvProcessInit jackTestBackend.urids with
    ports := [⟨.event, .input, true, [], none, 0, false, true, false, true, false⟩]
    controlsBuf := [0]
    controlIn := 0 }

def deliveryTestStart : DeliveryState :=
  .start (jalvProcessActivate deliveryTestProcess jackTestBackend.urids 4096 0 (fun _ _ => 0) fun _ => 0) 4095 4095

def deliveryTestCycle : JackCycle := { jackTestCycle with midi := fun _ => [⟨0, [0x90, 60, 100]⟩] }

theorem deliveryTestStart_initial (condition : DeliveryState → JackCycle → Prop) :
    (deliverySystem jackTestBackend condition).initial deliveryTestStart := by
  refine ⟨_, _, _, _, _, _, _, rfl, rfl, fun _ => rfl⟩

def JalvProcess.OneBuffer (proc : JalvProcess) : Prop :=
  ∃ port evbuf, proc.ports = [port] ∧ port.evbuf = some evbuf ∧ evbuf.capacity = 4096

theorem JalvProcess.OneBuffer.room {proc : JalvProcess} {events : Nat → List AtomEvent} (one : proc.OneBuffer)
    (fits : EventsRoom 4096 0 (events 0)) : proc.Room events := by
  obtain ⟨port, evbuf, ports, buffer, capacity⟩ := one
  intro index other another found _ _ held
  rw [ports] at found
  cases index with
  | zero =>
    cases found
    rw [buffer, Option.some.injEq] at held
    rw [← held, capacity]
    exact fits
  | succ index => cases found

def deliveryTestMessage : UiMessage := .eventTransfer 0 ⟨5, 5, [3, 1, 4, 1, 5], rfl⟩

-- A MIDI event and an event from the main thread come to the same port in one cycle.
theorem events_delivered_test : ∃ state : DeliveryState,
    state.calls.map (fun call => (call.2 0).length) = [2] ∧ state.Delivered := by
  have start : (deliverySystem jackTestBackend (DeliveryState.Separate jackTestBackend)).Reachable deliveryTestStart :=
    ⟨_, deliveryTestStart_initial _, .refl⟩
  have sent := start.step (.send (.runStateChange .running) trivial rfl)
  have paused := sent.step (.paused 64 rfl rfl (JalvProcess.OneBuffer.room ⟨_, _, rfl, rfl, rfl⟩ trivial) rfl)
  have written := paused.step (.send deliveryTestMessage ⟨rfl, by decide⟩ rfl)
  have called := written.step (.run deliveryTestCycle rfl rfl
    (JalvProcess.OneBuffer.room ⟨_, _, rfl, rfl, rfl⟩ ⟨by decide, by decide, trivial⟩) (fun _ _ _ _ _ => Or.inl rfl) rfl)
  exact ⟨_, rfl, events_delivered jackTestBackend _ called⟩

/-- A MIDI event overwrites the state request that a paused cycle has left in the buffer. -/
theorem events_refuted : ∃ state,
    (deliverySystem jackTestBackend fun _ _ => True).Reachable state ∧ ¬ state.Delivered := by
  have request : UiMessage.stateRequest.Deliverable deliveryTestStart.jack.proc.layout :=
    (by decide : (0 : UInt32) ≠ uint32Max)
  refine ⟨_, ⟨_, deliveryTestStart_initial _, (((Relation.ReflTransGen.single
    (.send .stateRequest request rfl)).tail (.send (.runStateChange .running) trivial rfl)).tail
      (.paused 64 rfl rfl ?_ rfl)).tail (.run deliveryTestCycle rfl rfl ?_ trivial rfl)⟩, ?_⟩
  · exact JalvProcess.OneBuffer.room ⟨_, _, rfl, rfl, rfl⟩ ⟨by decide, by decide, trivial⟩
  · intro delivered
    obtain ⟨evbuf, events, buffer, _, found, same⟩ :=
      delivered _ (List.mem_append_right _ List.mem_cons_self) 0 _ rfl rfl rfl
    cases buffer
    have three : ∃ first second third, events = [first, second, third] := ⟨_, _, _, (Option.some.inj found).symm⟩
    obtain ⟨_, _, _, rfl⟩ := three
    have lengths : 3 = 2 := same.length_eq
    omega
  · exact JalvProcess.OneBuffer.room ⟨_, _, rfl, rfl, rfl⟩ ⟨by decide, trivial⟩

end Jalv
