import Jalv.Backend.UpdateBuffer
import Jalv.Host.Addressing

/-! Which ports the writes of a user interface reach in the JACK backend.

The main thread checks that a port is there, and the process thread relies on its
kind. A message for an event output port is written to a buffer that has been
prepared for the plugin.
-/

set_option autoImplicit false

namespace Jalv

open Foundation

/-- `apply_ui_events` accepts these messages one after the other, each event finds a buffer
in input mode, and the ports other than event input ports are kept. -/
structure Applies (nframes : UInt32) (proc : JalvProcess) (ring : ZixRing) (messages : List UiMessage) : Prop where
  applied : applyUiEvents proc ring nframes = (messages.foldlM (accept nframes) proc).map fun next =>
    (.success, next, ⟨ring.capacity, [], Nat.zero_le _⟩)
  decodes : Decodes nframes proc messages

structure WriteState extends JackHost where
  running : Option (JalvProcessStatus × UInt32)

/-- The calls of the main thread and the callbacks of JACK. If they are careful, writes of
a user interface are refused or for a port that can receive them. -/
inductive WriteStep (backend : JalvBackend) (careful : Prop) : WriteState → WriteState → Prop where
  | write {state : WriteState} {jalv : JalvImpl} {uiToPlugin : ZixRing} (portIndex bufferSize protocol : UInt32)
      (buffer : Memory Byte)
      (met : careful → state.jalv.Receives portIndex protocol ∨
        state.jalv.Refuses state.uiToPlugin portIndex bufferSize protocol buffer)
      (wrote : jalvSendToPlugin state.jalv state.uiToPlugin portIndex bufferSize protocol buffer =
        some (jalv, uiToPlugin)) :
      WriteStep backend careful state { state with jalv, uiToPlugin }
  | setControl {state : WriteState} {status : Nat} {jalv : JalvImpl} {uiToPlugin : ZixRing} (pointer : Nat)
      (atom : Atom) (set : jalvSetControl state.jalv state.uiToPlugin pointer atom = some (status, jalv, uiToPlugin)) :
      WriteStep backend careful state { state with jalv, uiToPlugin }
  | send {state : WriteState} {uiToPlugin : ZixRing} (message : UiMessage)
      (other : ∀ portIndex atom, message ≠ .eventTransfer portIndex atom)
      (sent : Sends state.uiToPlugin uiToPlugin message) :
      WriteStep backend careful state { state with uiToPlugin }
  | update {state : WriteState} {status : UpdateStatus} {jalv : JalvImpl} {pluginToUi : ZixRing}
      (updated : jalvUpdate state.jalv state.pluginToUi = some (status, jalv, pluginToUi)) :
      WriteStep backend careful state { state with jalv, pluginToUi }
  | activate {state : WriteState} (runState : JalvRunState) :
      WriteStep backend careful state
        { state with jalv := { state.jalv with process := { state.jalv.process with runState } } }
  | bufferSize {state : WriteState} (answer : Option Nat) (updateFrames : UInt32) (contents : Nat → Memory Byte)
      (message : Memory Byte) (idle : state.running = none) :
      WriteStep backend careful state
        { state with jalv := bufferSizeCb state.jalv answer updateFrames contents message }
  | paused {state : WriteState} {jack : JackProcess} (nframes : UInt32) (idle : state.running = none)
      (paused : state.jalv.process.runState = .paused) (done : processSilent state.jack nframes = some jack) :
      WriteStep backend careful state ⟨state.processed jack, none⟩
  | run {state : WriteState} {jack : JackProcess} {pst : JalvProcessStatus} (cycle : JackCycle)
      (idle : state.running = none) (running : state.jalv.process.runState = .running)
      (begun : processCbBegin backend state.jack cycle = some (pst, jack)) :
      WriteStep backend careful state ⟨state.processed jack, some (pst, cycle.nframes)⟩
  | finish {state : WriteState} {jack : JackProcess} {pst : JalvProcessStatus} {nframes : UInt32}
      {midi : List (Nat × JackMidiEvent)} (output : PluginOutput) (inside : state.running = some (pst, nframes))
      (done : processCbEnd backend pst state.jack nframes output = some (jack, midi)) :
      WriteStep backend careful state ⟨state.processed jack, none⟩

def writeSystem (backend : JalvBackend) (careful : Prop) : TransitionSystem WriteState where
  initial state := ∃ plugin midiBufSize updateFrames contents message jalv capacity,
    jalv.process = jalvProcessInit jalv.urids ∧
      jalvOpen plugin midiBufSize updateFrames contents message jalv = some (.ok state.jalv) ∧
      state.uiToPlugin = .empty capacity ∧ capacity < 2 ^ 32 ∧ state.running = none
  step := WriteStep backend careful

/-- In each cycle that may follow, paused or running, the messages in the ring are applied
to the right ports. A running cycle prepares the ports first. -/
def WriteState.Addressed (backend : JalvBackend) (state : WriteState) : Prop :=
  ∃ messages, state.uiToPlugin.content = stream UiMessage.encode messages ∧
    (∀ nframes, Applies nframes state.jalv.process state.uiToPlugin messages) ∧
    ∀ cycle ports pre, preProcess backend state.jack cycle = some (ports, pre) →
      Applies cycle.nframes (state.jack.prepared backend cycle ports pre) state.uiToPlugin messages

structure WriteState.Sound (state : WriteState) : Prop where
  consistent : state.jalv.Consistent
  mode : state.jalv.process.InputMode
  small : state.uiToPlugin.capacity < 2 ^ 32
  queued : ∃ messages : List UiMessage, state.uiToPlugin.content = stream UiMessage.encode messages ∧
    ∀ message ∈ messages, message.ForInput state.jalv.process.kinds

section

variable {backend : JalvBackend} {jack next : JackProcess} {cycle : JackCycle} {pst : JalvProcessStatus}

theorem JalvProcess.kinds_of_shapes {proc after : JalvProcess} (same : after.shapes = proc.shapes) :
    after.kinds = proc.kinds := by
  have whole (proc : JalvProcess) : proc.kinds = proc.shapes.map fun shape => (shape.type, shape.flow) := by
    rw [kinds, shapes, List.map_map]
    rfl
  rw [whole, whole, same]

theorem JalvProcess.kinds_of_layout {proc after : JalvProcess} (same : after.layout = proc.layout) :
    after.kinds = proc.kinds := by
  have whole (proc : JalvProcess) : proc.kinds = proc.layout.ports.map fun port => (port.type, port.flow) := by
    rw [kinds, layout, List.map_map]
    rfl
  rw [whole, whole, same]

theorem preProcess_inputMode {ports : List JalvProcessPort} {state : PreState} (mode : jack.proc.InputMode)
    (prepared : preProcess backend jack cycle = some (ports, state)) :
    (jack.prepared backend cycle ports state).InputMode := by
  intro index changed found kind
  obtain ⟨port, before, after, here, prepares⟩ := changeFrom_getElem? prepared found
  have shape := (preProcessPort_shape prepares).1
  have same := Prod.mk.inj kind
  have type : port.type = .event := (congrArg PortShape.type shape).symm.trans same.1
  have flow : port.flow = .input := (congrArg PortShape.flow shape).symm.trans same.2
  obtain ⟨evbuf, buffer, _, rfl⟩ := preProcessPort_eventInput type flow prepares
  obtain ⟨_, held, sequence⟩ := mode index port here (Prod.ext type flow)
  rw [buffer, Option.some.injEq] at held
  subst held
  obtain ⟨kept, own⟩ := writeEvents_mode (lv2EvbufBegin evbuf)
    (portEvents backend jack.proc.transport cycle (0 + index) port)
  exact ⟨_, rfl, kept.trans (sequence.trans own.symm)⟩

theorem applies {nframes : UInt32} {proc : JalvProcess} {ring : ZixRing} {messages : List UiMessage}
    (mode : proc.InputMode) (small : ring.capacity < 2 ^ 32)
    (content : ring.content = stream UiMessage.encode messages)
    (forInput : ∀ message ∈ messages, message.ForInput proc.kinds) : Applies nframes proc ring messages where
  applied := applyUiEvents_eq nframes small content
  decodes := Jalv.decodes mode forInput

end

section

variable {backend : JalvBackend} {state next : WriteState}

theorem WriteState.Sound.addressed (sound : state.Sound) (backend : JalvBackend) : state.Addressed backend := by
  obtain ⟨messages, content, forInput⟩ := sound.queued
  refine ⟨messages, content, fun nframes => applies sound.mode sound.small content forInput, ?_⟩
  intro cycle ports pre prepared
  have kinds := JalvProcess.kinds_of_shapes (preProcess_shapes prepared)
  exact applies (preProcess_inputMode sound.mode prepared) sound.small content fun message member =>
    kinds ▸ forInput message member

theorem WriteState.sound_initial {careful : Prop} (initial : (writeSystem backend careful).initial state) :
    state.Sound := by
  obtain ⟨plugin, midiBufSize, updateFrames, contents, message, jalv, capacity, fresh, opened, ring, small, _⟩ :=
    initial
  refine ⟨jalvOpen_consistent (by rw [fresh]; rfl) opened, ?_, by rw [ring]; exact small, [], by rw [ring]; rfl, ?_⟩
  · obtain ⟨ported, proposal, controls, _, same⟩ := jalvOpen_ok opened
    rw [same]
    exact (jalvProcessActivate_queues _ _ _ _ _ _).inputMode
  · exact fun _ member => by cases member

theorem WriteState.Sound.write {jalv : JalvImpl} {uiToPlugin : ZixRing} (sound : state.Sound)
    (setup : state.jalv.SameSetup jalv)
    (sends : uiToPlugin = state.uiToPlugin ∨ ∃ message : UiMessage,
      message.ForInput state.jalv.process.kinds ∧ Sends state.uiToPlugin uiToPlugin message) :
    ({ state with jalv, uiToPlugin } : WriteState).Sound := by
  -- The main thread never changes the kinds of its ports or the process state
  have consistent : jalv.Consistent := by
    refine ⟨?_, ?_⟩
    · rw [setup.ports, setup.process]
      exact sound.consistent.kinds
    · rw [setup.process]
      exact sound.consistent.control
  have mode : jalv.process.InputMode := setup.process ▸ sound.mode
  obtain ⟨messages, content, forInput⟩ := sound.queued
  rcases sends with same | ⟨message, forPort, sent⟩
  · refine ⟨consistent, mode, ?_, messages, ?_, ?_⟩
    · exact same ▸ sound.small
    · exact same ▸ content
    · simp only [setup.process]
      exact forInput
  · refine ⟨consistent, mode, ?_, messages ++ [message], sent.stream content, ?_⟩
    · exact sent.content.1 ▸ sound.small
    · simp only [setup.process]
      exact forall_mem_concat forInput forPort

theorem WriteState.Sound.process (sound : state.Sound) (ports : next.jalv.ports = state.jalv.ports)
    (kinds : next.jalv.process.kinds = state.jalv.process.kinds)
    (control : next.jalv.process.controlIn = state.jalv.process.controlIn) (mode : next.jalv.process.InputMode)
    (capacity : next.uiToPlugin.capacity = state.uiToPlugin.capacity)
    (ring : next.uiToPlugin.content = [] ∨ next.uiToPlugin.content = state.uiToPlugin.content) : next.Sound := by
  refine ⟨⟨?_, ?_⟩, mode, capacity ▸ sound.small, ?_⟩
  · rw [ports, kinds]
    exact sound.consistent.kinds
  · rw [control, kinds]
    exact sound.consistent.control
  · rw [kinds]
    rcases ring with empty | same
    · exact ⟨[], empty, fun _ member => by cases member⟩
    · obtain ⟨messages, content, forInput⟩ := sound.queued
      exact ⟨messages, same.trans content, forInput⟩

theorem WriteState.Sound.apply {proc after : JalvProcess} {ring : ZixRing} {status : JalvProcessStatus}
    {nframes : UInt32} (sound : state.Sound) (mode : proc.InputMode)
    (applied : applyUiEvents proc state.uiToPlugin nframes = some (status, after, ring)) :
    after.kinds = proc.kinds ∧ after.controlIn = proc.controlIn ∧ after.InputMode ∧
      ring.capacity = state.uiToPlugin.capacity ∧ ring.content = [] := by
  have kinds := JalvProcess.kinds_of_shapes (applyUiEvents_shapes applied)
  have kept := applyUiEvents_inputMode mode applied
  have control := applyUiEvents_controlIn applied
  obtain ⟨messages, content, _⟩ := sound.queued
  rw [applyUiEvents_eq nframes sound.small content] at applied
  obtain ⟨_, _, same⟩ := Option.map_eq_some_iff.mp applied
  cases same
  exact ⟨kinds, control, kept, rfl, rfl⟩

theorem WriteStep.sound (sound : state.Sound) (step : WriteStep backend True state next) : next.Sound := by
  cases step with
  | write portIndex bufferSize protocol buffer met wrote =>
    exact sound.write (jalvSendToPlugin_cases wrote).1 (jalvSendToPlugin_forInput sound.consistent (met trivial) wrote)
  | setControl pointer atom set =>
    exact sound.write (jalvSetControl_cases set).1 (jalvSetControl_forInput sound.consistent set)
  | send message other sent =>
    refine sound.write (.refl _) (Or.inr ⟨message, ?_, sent⟩)
    cases message with
    | eventTransfer portIndex atom => exact absurd rfl (other portIndex atom)
    | controlPortChange | stateRequest | runStateChange => trivial
  -- The message buffer and the ring to the main thread are no part of what is sound
  | @update _ jalv _ updated =>
    have setup := jalvUpdate_setup updated
    have sends : state.uiToPlugin = state.uiToPlugin ∨ ∃ message : UiMessage,
        message.ForInput state.jalv.process.kinds ∧ Sends state.uiToPlugin state.uiToPlugin message := Or.inl rfl
    have written := sound.write setup sends
    exact ⟨written.consistent, written.mode, written.small, written.queued⟩
  | activate runState => exact sound.process rfl rfl rfl sound.mode rfl (Or.inr rfl)
  | bufferSize answer updateFrames contents message idle =>
    by_cases running : state.jalv.process.runState = .running
    · simp only [bufferSizeCb, if_pos running]
      refine sound.process rfl (activate_kinds _ _ _ _) rfl ?_ rfl (Or.inr rfl)
      exact (jalvProcessActivate_queues _ _ _ _ _ _).inputMode
    · simp only [bufferSizeCb, if_neg running]
      exact sound.process rfl rfl rfl sound.mode rfl (Or.inr rfl)
  -- A paused cycle only applies the messages, and a running one prepares the ports before
  | paused nframes idle paused done =>
    obtain ⟨⟨proc, ring⟩, bypassed, same⟩ := Option.bind_eq_some_iff.mp done
    obtain ⟨⟨status, after, left⟩, applied, parts⟩ := Option.map_eq_some_iff.mp bypassed
    cases same
    cases parts
    obtain ⟨kinds, control, mode, capacity, empty⟩ := sound.apply sound.mode applied
    exact sound.process rfl kinds control mode capacity (Or.inl empty)
  | run cycle idle running begun =>
    obtain ⟨ports, pre, prepared, applied, _⟩ := processCbBegin_eq_some_iff.mp begun
    have before := JalvProcess.kinds_of_shapes (preProcess_shapes prepared)
    obtain ⟨kinds, control, mode, capacity, empty⟩ := sound.apply (preProcess_inputMode sound.mode prepared) applied
    exact sound.process rfl (kinds.trans before) control mode capacity (Or.inl empty)
  | finish output inside done =>
    obtain ⟨layout, ring⟩ := processCbEnd_layout done
    refine sound.process rfl (JalvProcess.kinds_of_shapes (processCbEnd_shapes done))
      (congrArg ProcessLayout.controlIn layout) (processCbEnd_queues done).inputMode ?_ (Or.inr ?_)
    · exact congrArg Fifo.capacity ring
    · exact congrArg Fifo.content ring

end

/-- A write sends messages only to ports that can receive them if and only if it names such a
port or is refused. In runs in which all writes are like this, every event that
`apply_ui_events` decodes is for a port with a buffer in input mode, and no other port changes. -/
theorem writes_addressed (backend : JalvBackend) :
    (∀ jalv ring portIndex bufferSize protocol buffer next after,
      jalvSendToPlugin jalv ring portIndex bufferSize protocol buffer = some (next, after) →
      ((after ≠ ring → jalv.Receives portIndex protocol) ↔
        jalv.Receives portIndex protocol ∨ jalv.Refuses ring portIndex bufferSize protocol buffer)) ∧
    ∀ state, (writeSystem backend True).Reachable state → state.Addressed backend := by
  refine ⟨fun jalv ring portIndex bufferSize protocol buffer next after wrote => ?_, fun state reachable => ?_⟩
  · rw [← jalvSendToPlugin_kept_iff wrote, ne_eq, or_comm, imp_iff_not_or, not_not]
  · have sound : state.Sound := TransitionSystem.invariant (fun _ => WriteState.sound_initial)
      (fun _ _ sound step => step.sound sound) reachable
    exact sound.addressed backend

def addressTestPlugin (isInput : Bool) : LilvPlugin :=
  { updateTestPlugin with
    ports := updateTestPlugin.ports.map fun port => { port with isInput, isOutput := !isInput }
    few := (by decide : 1 < 2 ^ 32) }

def addressTestState (isInput : Bool) : WriteState :=
  let jalv := match jalvOpen (addressTestPlugin isInput) 1024 0 (fun _ _ => 0) (fun _ => 0) lookupTestHost with
    | some (.ok jalv) => jalv
    | _ => lookupTestHost
  ⟨⟨jalv, .empty 4095, .empty 4095⟩, none⟩

theorem addressTestState_initial (backend : JalvBackend) (careful : Prop) (isInput : Bool) :
    (writeSystem backend careful).initial (addressTestState isInput) := by
  refine ⟨addressTestPlugin isInput, 1024, 0, fun _ _ => 0, fun _ => 0, lookupTestHost, 4095, rfl, ?_, rfl,
    by decide, rfl⟩
  cases isInput <;> rfl

def addressTestRing : ZixRing :=
  (jalvWriteEvent (.empty 4095) 0 emptyAtom).2

theorem addressTest_wrote (isInput : Bool) :
    jalvSendToPlugin (addressTestState isInput).jalv (.empty 4095) 0 8 lookupTestHost.urids.atomEventTransfer
      (fun _ => 0) = some ((addressTestState isInput).jalv, addressTestRing) := by
  cases isInput <;> rfl

/-- A write to an event input port is received, and the event is for this port. -/
theorem writes_addressed_test :
    (addressTestRing ≠ .empty 4095 →
      (addressTestState true).jalv.Receives 0 lookupTestHost.urids.atomEventTransfer) ∧
    ∃ state, state.uiToPlugin = addressTestRing ∧ WriteState.Addressed jackTestBackend state := by
  have receives : (addressTestState true).jalv.Receives 0 lookupTestHost.urids.atomEventTransfer :=
    Or.inr ⟨rfl, rfl⟩
  obtain ⟨calls, runs⟩ := writes_addressed jackTestBackend
  refine ⟨(calls _ _ _ _ _ _ _ _ (addressTest_wrote true)).mpr (Or.inl receives),
    { addressTestState true with uiToPlugin := addressTestRing }, rfl,
    runs _ ⟨_, addressTestState_initial _ _ true,
      .single (.write 0 8 _ (fun _ => 0) (fun _ => Or.inl receives) (addressTest_wrote true))⟩⟩

/-- An event for an event output port is put into the ring, and would be written to a buffer
that has been prepared for the plugin. -/
theorem writes_refuted :
    (∃ jalv ring portIndex bufferSize protocol buffer next after,
      jalvSendToPlugin jalv ring portIndex bufferSize protocol buffer = some (next, after) ∧ after ≠ ring ∧
        ¬ jalv.Receives portIndex protocol) ∧
    ∃ state, (writeSystem jackTestBackend False).Reachable state ∧ ¬ state.Addressed jackTestBackend := by
  have sent : addressTestRing ≠ .empty 4095 := fun same => absurd (congrArg Fifo.readSpace same) (by decide)
  refine ⟨⟨_, _, _, _, _, _, _, _, addressTest_wrote false, sent, ?_⟩, _,
    ⟨_, addressTestState_initial _ _ false, .single (.write 0 8 _ (fun _ => 0) False.elim (addressTest_wrote false))⟩,
      ?_⟩
  · rintro (⟨zero, _⟩ | ⟨_, kind⟩)
    · exact absurd zero (by decide)
    · cases kind
  · rintro ⟨messages, content, paused, _⟩
    have decodes := (paused 64).decodes
    cases messages with
    | nil => cases content
    | cons message rest =>
      have header : message.header.encode = addressTestRing.content.take sizeofHeader := by
        change addressTestRing.content = _ at content
        rw [content, stream_cons, UiMessage.encode_eq, List.append_assoc,
          List.take_left' message.header.length_encode]
      cases message with
      | controlPortChange | stateRequest | runStateChange => cases header
      | eventTransfer portIndex atom =>
        obtain ⟨port, evbuf, found, buffer, sequence⟩ := decodes.1
        have only : port ∈ (addressTestState false).jalv.process.ports := List.mem_of_getElem? found
        cases List.mem_singleton.mp only
        cases buffer
        cases sequence

end Jalv
