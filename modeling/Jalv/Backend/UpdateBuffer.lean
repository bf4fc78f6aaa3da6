import Jalv.Backend.Cycle
import Jalv.Backend.Host
import Jalv.Foundation.Transition
import Jalv.Host.Update

/-! The message buffer of the main thread, and what the process thread can send.

The buffer is allocated when the plugin is opened, as large as the largest output
buffer is then. A buffer size callback of JACK replaces the event buffers later on.
-/

set_option autoImplicit false

namespace Jalv

open Foundation

def PluginOutput.buffer (output : PluginOutput) (index : Nat) (evbuf : LV2Evbuf) : LV2Evbuf :=
  { evbuf with size := output.size index, type := output.type index, contents := output.contents index }

/-- A sequence lies inside the capacity that was announced, and each event inside the sequence. -/
def LV2Evbuf.Kept (evbuf : LV2Evbuf) : Prop :=
  evbuf.type = evbuf.atomSequence → evbuf.size.toNat ≤ evbuf.capacity.toNat ∧
    ∀ events, lv2EvbufEvents evbuf = some events → ∀ before event after, events = before ++ event :: after →
      8 + eventsSize before + (16 + event.atom.size.toNat) ≤ evbuf.size.toNat

def PluginOutput.Kept (output : PluginOutput) (ports : List JalvProcessPort) : Prop :=
  ∀ index port evbuf, ports[index]? = some port → port.type = .event → port.flow = .output →
    port.evbuf = some evbuf → (output.buffer index evbuf).Kept

/-- The message buffer has room for the value of a control, or no cycle sends one. -/
def JalvImpl.ControlsFit (jalv : JalvImpl) : Prop :=
  sizeofControlChange ≤ jalv.uiMsgSize ∨ ∀ port ∈ jalv.process.ports, port.isBpm = false

/-- A change of the MIDI buffer size that reaches an event buffer for output makes it at
most as large as the message buffer and the overhead of a sequence over a message. -/
def JalvImpl.SmallOutputs (jalv : JalvImpl) (midiBufSize : Nat) : Prop :=
  jalv.process.runState = .running → ∀ port ∈ jalv.process.ports, port.type = .event → port.flow = .output →
    port.bufSize = 0 → (UInt32.ofNat midiBufSize).toNat ≤ jalv.uiMsgSize + 12

/-- The callbacks of JACK and the calls of the main thread, which may write anything into
its own ring. If they are careful, changes of the MIDI buffer size meet a condition. -/
inductive UpdateStep (backend : JalvBackend) (careful : Prop) : JackHost → JackHost → Prop where
  | activate {state : JackHost} (runState : JalvRunState) :
      UpdateStep backend careful state
        { state with jalv := { state.jalv with process := { state.jalv.process with runState } } }
  | bufferSize {state : JackHost} (answer : Option Nat) (updateFrames : UInt32) (contents : Nat → Memory Byte)
      (message : Memory Byte)
      (met : careful → state.jalv.SmallOutputs (answer.getD state.jalv.settings.midiBufSize)) :
      UpdateStep backend careful state
        { state with jalv := bufferSizeCb state.jalv answer updateFrames contents message }
  | process {state : JackHost} {jack : JackProcess} {midi : List (Nat × JackMidiEvent)} (cycle : JackCycle)
      (output : PluginOutput) (kept : output.Kept state.jalv.process.ports)
      (done : processCb backend state.jack cycle output = some (jack, midi)) :
      UpdateStep backend careful state (state.processed jack)
  | update {state : JackHost} {status : UpdateStatus} {jalv : JalvImpl} {pluginToUi : ZixRing}
      (updated : jalvUpdate state.jalv state.pluginToUi = some (status, jalv, pluginToUi)) :
      UpdateStep backend careful state { state with jalv, pluginToUi }
  | write {state : JackHost} (uiToPlugin : ZixRing) :
      UpdateStep backend careful state { state with uiToPlugin }

-- Runs that begin when a plugin has been opened, with the values of control ports that a loaded
-- state had as messages in the ring.
def updateSystem (backend : JalvBackend) (careful : Prop) : TransitionSystem JackHost where
  initial state := ∃ plugin midiBufSize updateFrames contents message jalv,
    jalvOpen plugin midiBufSize updateFrames contents message jalv = some (.ok state.jalv) ∧
      state.pluginToUi.capacity < 2 ^ 32 ∧
      ∃ values : List (UInt32 × UInt32), state.pluginToUi.content =
          stream UiMessage.encode (values.map fun value => .controlPortChange value.1 value.2) ∧
        (careful → state.jalv.ControlsFit ∧ (sizeofControlChange ≤ state.jalv.uiMsgSize ∨ values = []))
  step := UpdateStep backend careful

def MessagesFit (ring : ZixRing) (size : Nat) : Prop :=
  ∃ messages : List FramedMessage, ring.content = stream FramedMessage.encode messages ∧
    ∀ message ∈ messages, message.header.size.toNat ≤ size

structure PortShape.Fits (size : Nat) (shape : PortShape) : Prop where
  output : shape.flow = .output → shape.bufSize.toNat ≤ size
  buffer : shape.type = .event → shape.flow = .output → ∀ evbuf, shape.evbuf = some evbuf →
    evbuf.capacity.toNat ≤ size + 12
  value : sizeofControlChange ≤ size ∨ shape.isBpm = false

structure JackHost.Sized (state : JackHost) : Prop where
  small : state.pluginToUi.capacity < 2 ^ 32
  ports : ∀ shape ∈ state.jalv.process.shapes, shape.Fits state.jalv.uiMsgSize
  fit : MessagesFit state.pluginToUi state.jalv.uiMsgSize

section

variable {ring next : ZixRing} {size : Nat}

def RingFits (capacity size : Nat) (ring : ZixRing) : Prop := ring.capacity = capacity ∧ MessagesFit ring size

theorem messagesFit_values {values : List (UInt32 × UInt32)} (room : sizeofControlChange ≤ size)
    (content : ring.content = stream UiMessage.encode (values.map fun value => .controlPortChange value.1 value.2)) :
    MessagesFit ring size := by
  let framed (value : UInt32 × UInt32) : FramedMessage :=
    ⟨JalvMessageType.controlPortChange.code, word value.1 ++ word value.2, by simp⟩
  refine ⟨values.map framed, ?_, ?_⟩
  · have same (value : UInt32 × UInt32) :
        (UiMessage.controlPortChange value.1 value.2).encode = (framed value).encode :=
      UiMessage.encode_eq _
    rw [content, stream, stream, List.map_map, List.map_map]
    exact congrArg List.flatten (List.map_congr_left fun value _ => same value)
  · intro message member
    obtain ⟨value, _, rfl⟩ := List.mem_map.mp member
    rw [FramedMessage.header_size]
    simpa [framed, sizeofControlChange] using room

theorem RingFits.sends {capacity : Nat} (fits : RingFits capacity size ring) (small : capacity < 2 ^ 32)
    {message : UiMessage} (sent : Sends ring next message) (bound : message.payload.length ≤ size) :
    RingFits capacity size next := by
  obtain ⟨same, messages, content, all⟩ := fits
  obtain ⟨framed, payload, _, kept, appended⟩ := sent.framed (by omega)
  refine ⟨kept.trans same, messages ++ [framed], ?_, ?_⟩
  · rw [appended, content, stream_concat]
  · refine forall_mem_concat all ?_
    rw [FramedMessage.header_size, payload]
    exact bound

end

section

variable {evbuf : LV2Evbuf} {events : List AtomEvent}

theorem lv2EvbufEvents_of_other (other : evbuf.type ≠ evbuf.atomSequence) :
    lv2EvbufEvents evbuf = some [] := by
  have size : lv2EvbufGetSize evbuf = 0 := by rw [lv2EvbufGetSize, if_neg other]
  have invalid : lv2EvbufIsValid (lv2EvbufBegin evbuf) = false := by
    simp [lv2EvbufIsValid, lv2EvbufBegin, size]
  obtain ⟨fuel, some⟩ : ∃ fuel, 2 ^ 32 = fuel + 1 := ⟨4294967295, rfl⟩
  rw [lv2EvbufEvents, some, lv2EvbufEventsFrom, lv2EvbufGet, if_neg (by rw [invalid]; exact Bool.false_ne_true)]

theorem LV2Evbuf.Sequence.kept (holds : evbuf.Sequence events) (inside : evbuf.size.toNat ≤ evbuf.capacity.toNat) :
    evbuf.Kept := by
  refine fun _ => ⟨inside, fun found read before event after parts => ?_⟩
  rw [holds.read, Option.some.injEq] at read
  have size := holds.size
  have bounds := paddedEventSize_bounds event.atom.size.toNat
  unfold sizeofAtomEvent at bounds
  rw [read, parts, eventsSize_append, eventsSize_cons] at size
  omega

theorem LV2Evbuf.Kept.event (kept : evbuf.Kept) (found : lv2EvbufEvents evbuf = some events) {event : AtomEvent}
    (member : event ∈ events) : 24 + event.atom.size.toNat ≤ evbuf.capacity.toNat := by
  by_cases sequence : evbuf.type = evbuf.atomSequence
  · obtain ⟨inside, each⟩ := kept sequence
    obtain ⟨before, after, parts⟩ := List.append_of_mem member
    have here := each events found before event after parts
    omega
  · rw [lv2EvbufEvents_of_other sequence, Option.some.injEq] at found
    subst found
    cases member

end

section

variable {backend : JalvBackend} {jack next : JackProcess} {cycle : JackCycle} {size capacity index : Nat}
  {port changed : JalvProcessPort}

theorem preProcessPort_ring {before after : PreState} {expected : JalvPosition} {bpm : UInt32}
    (prepared : preProcessPort backend (transportData backend expected cycle) bpm cycle.midi index port before =
      some (changed, after)) :
    after.pluginToUi = before.pluginToUi ∨ port.isBpm = true ∧
      Sends before.pluginToUi after.pluginToUi (.controlPortChange (UInt32.ofNat index) bpm) := by
  -- Only the tempo is sent from here, and an event input port sends nothing
  by_cases eventInput : port.type = .event ∧ port.flow = .input
  · obtain ⟨_, _, rfl, _⟩ := preProcessPort_eventInput eventInput.1 eventInput.2 prepared
    exact Or.inl rfl
  · unfold preProcessPort at prepared
    rw [if_neg eventInput] at prepared
    split at prepared
    · cases prepared
      exact Or.inl rfl
    · split at prepared
      · obtain ⟨_, _, same⟩ := Option.bind_eq_some_iff.mp prepared
        cases same
        exact Or.inl rfl
      · split at prepared
        · next tempo =>
          split at prepared
          · cases prepared
            exact (jalvWriteControl_cases before.pluginToUi (UInt32.ofNat index) bpm).imp_right fun sent =>
              ⟨tempo.1, sent⟩
          · cases prepared
        · cases prepared
          exact Or.inl rfl

theorem preProcess_fits {ports : List JalvProcessPort} {state : PreState} (small : capacity < 2 ^ 32)
    (fits : ∀ shape ∈ jack.proc.shapes, shape.Fits size) (ring : RingFits capacity size jack.pluginToUi)
    (prepared : preProcess backend jack cycle = some (ports, state)) : RingFits capacity size state.pluginToUi := by
  let holds (state : PreState) : Prop := RingFits capacity size state.pluginToUi
  have step (index : Nat) (port changed : JalvProcessPort) (before after : PreState)
      (member : port ∈ jack.proc.ports) (now : holds before)
      (prepared : preProcessPort backend (transportData backend jack.proc.transport cycle)
        (expectedTransport backend jack.proc.transport cycle).bpm cycle.midi index port before =
          some (changed, after)) : holds after := by
    rcases preProcessPort_ring prepared with same | ⟨tempo, sent⟩
    · simp only [holds, same]
      exact now
    · have value := (fits port.shape (List.mem_map_of_mem member)).value
      rcases value with enough | none
      · exact now.sends small sent (by simpa [UiMessage.payload, sizeofControlChange] using enough)
      · exact absurd tempo (by rw [show port.isBpm = false from none]; exact Bool.false_ne_true)
  have final : holds state := changeFrom_state step prepared ring
  exact final

theorem forwardEvents_fits {urids : JalvURIDs} {events : List AtomEvent} {state : PostState}
    (small : capacity < 2 ^ 32) (bound : ∀ event ∈ events, 12 + event.atom.size.toNat ≤ size)
    (ring : RingFits capacity size state.pluginToUi) :
    RingFits capacity size (events.foldl (forwardEvent urids index port) state).pluginToUi := by
  induction events generalizing state with
  | nil => exact ring
  | cons event rest ih =>
    obtain ⟨first, others⟩ := List.forall_mem_cons.mp bound
    refine ih others ?_
    -- A write for which the ring has no space changes nothing
    rcases jalvWriteEvent_cases state.pluginToUi (UInt32.ofNat index) event.atom with same | sent
    · simp only [forwardEvent, same]
      exact ring
    · refine ring.sends small sent ?_
      simp only [UiMessage.payload, List.length_append, length_word, event.atom.sized]
      omega

theorem finishPort_fits {before after : PostState} {controlsBuf : List UInt32} {sendUpdates : Bool}
    (small : capacity < 2 ^ 32)
    (bound : ∀ evbuf, port.type = .event → port.flow = .output → port.evbuf = some evbuf →
      evbuf.Kept ∧ evbuf.capacity.toNat ≤ size + 12)
    (ring : RingFits capacity size before.pluginToUi)
    (finished : finishPort backend controlsBuf sendUpdates index port before = some (changed, after)) :
    RingFits capacity size after.pluginToUi := by
  unfold finishPort at finished
  split at finished
  · obtain ⟨_, _, same⟩ := Option.bind_eq_some_iff.mp finished
    cases same
    exact ring
  · split at finished
    · next kind =>
      obtain ⟨state, processed, same⟩ := Option.map_eq_some_iff.mp finished
      cases same
      have event : ¬ (port.type = .control ∧ port.reportsLatency) := by simp [kind.2]
      rw [postProcessOutputPort, if_pos kind.1, if_neg event, if_pos kind.2] at processed
      obtain ⟨evbuf, buffer, rest⟩ := Option.bind_eq_some_iff.mp processed
      obtain ⟨events, found, same⟩ := Option.bind_eq_some_iff.mp rest
      cases same
      -- What is read behind the plugin lies within the capacity of its buffer
      obtain ⟨kept, most⟩ := bound evbuf kind.2 kind.1 buffer
      refine forwardEvents_fits small (fun event member => ?_) ring
      have inside := kept.event found member
      omega
    · cases finished
      exact ring

theorem PluginOutput.Kept.same_shapes {output : PluginOutput} {proc after : JalvProcess}
    (kept : output.Kept proc.ports) (same : after.shapes = proc.shapes) : output.Kept after.ports := by
  intro index port evbuf found event outward buffer
  obtain ⟨before, here, shape⟩ := JalvProcess.shape_at same found
  have parts := shape
  simp only [JalvProcessPort.shape, PortShape.mk.injEq, buffer, Option.map_some] at parts
  obtain ⟨type, flow, _, _, buffers⟩ := parts
  obtain ⟨old, held, same⟩ := Option.map_eq_some_iff.mp buffers.symm
  have equal : output.buffer index evbuf = output.buffer index old := by
    simp only [LV2Evbuf.shape, EvbufShape.mk.injEq] at same
    simp only [PluginOutput.buffer, same]
  rw [equal]
  exact kept index before old here (type ▸ event) (flow ▸ outward) held

theorem processCbEnd_fits {pst : JalvProcessStatus} {nframes : UInt32} {output : PluginOutput}
    {midi : List (Nat × JackMidiEvent)} (small : capacity < 2 ^ 32)
    (fits : ∀ shape ∈ jack.proc.shapes, shape.Fits size) (kept : output.Kept jack.proc.ports)
    (ring : RingFits capacity size jack.pluginToUi)
    (done : processCbEnd backend pst jack nframes output = some (next, midi)) :
    RingFits capacity size next.pluginToUi := by
  obtain ⟨sendUpdates, pendingFrames, ports, state, finished, rfl⟩ := processCbEnd_cases done
  let holds (state : PostState) : Prop := RingFits capacity size state.pluginToUi
  have step (index : Nat) (port changed : JalvProcessPort) (before after : PostState)
      (member : port ∈ (lilvInstanceRun jack.proc output).ports) (now : holds before)
      (finished : finishPort backend (lilvInstanceRun jack.proc output).controlsBuf sendUpdates index port before =
        some (changed, after)) : holds after := by
    -- The buffer that is read is the one that the plugin has written, of the same capacity
    refine finishPort_fits small (fun evbuf event outward buffer => ?_) now finished
    obtain ⟨place, inside, rfl⟩ := List.mem_mapIdx.mp member
    have found := List.getElem?_eq_getElem inside
    generalize jack.proc.ports[place] = port at found event outward buffer
    have here := fits port.shape (List.mem_map_of_mem (List.mem_of_getElem? found))
    by_cases kind : port.type = .event ∧ port.flow = .output
    · simp only [PluginOutput.writePort, if_pos kind] at buffer
      obtain ⟨old, held, rfl⟩ := Option.map_eq_some_iff.mp buffer
      refine ⟨kept place port old found kind.1 kind.2 held, ?_⟩
      exact here.buffer kind.1 kind.2 old.shape (by simp [JalvProcessPort.shape, held])
    · simp only [PluginOutput.writePort, if_neg kind] at event outward
      exact absurd ⟨event, outward⟩ kind
  have final : holds state := changeFrom_state step finished ring
  exact final

theorem processCb_fits {output : PluginOutput} {midi : List (Nat × JackMidiEvent)} (small : capacity < 2 ^ 32)
    (fits : ∀ shape ∈ jack.proc.shapes, shape.Fits size) (kept : output.Kept jack.proc.ports)
    (ring : RingFits capacity size jack.pluginToUi)
    (done : processCb backend jack cycle output = some (next, midi)) :
    next.proc.shapes = jack.proc.shapes ∧ RingFits capacity size next.pluginToUi := by
  unfold processCb at done
  split at done
  · obtain ⟨silent, applied, same⟩ := Option.map_eq_some_iff.mp done
    cases same
    obtain ⟨⟨proc, uiToPlugin⟩, bypassed, same⟩ := Option.bind_eq_some_iff.mp applied
    obtain ⟨⟨status, _⟩, applied, parts⟩ := Option.map_eq_some_iff.mp bypassed
    cases same
    cases parts
    exact ⟨applyUiEvents_shapes applied, ring⟩
  · obtain ⟨⟨pst, called⟩, begun, finished⟩ := Option.bind_eq_some_iff.mp done
    have same := processCbBegin_shapes begun
    obtain ⟨ports, state, prepared, _, sent⟩ := processCbBegin_eq_some_iff.mp begun
    have ready : RingFits capacity size called.pluginToUi := by
      rw [sent]
      exact preProcess_fits small fits ring prepared
    exact ⟨(processCbEnd_shapes finished).trans same,
      processCbEnd_fits small (same ▸ fits) (kept.same_shapes same) ready finished⟩

end

section

variable {jalv : JalvImpl} {midiBufSize : Nat} {updateFrames : UInt32} {contents : Nat → Memory Byte}
  {message : Memory Byte}

-- The event buffer of an activated port has the size that the port asks for, modulo `2 ^ 32`.
theorem activatePort_capacity {urids : JalvURIDs} {behind : Memory Byte} {port : JalvProcessPort} {evbuf : LV2Evbuf}
    (event : port.type = .event) (buffer : (activatePort urids midiBufSize behind port).evbuf = some evbuf) :
    evbuf.capacity = UInt32.ofNat (port.evbufSize midiBufSize) := by
  rw [activatePort, if_pos event] at buffer
  cases buffer
  rw [lv2EvbufReset_capacity]
  split
  · next old held =>
    split
    · rfl
    · next kept =>
      have same : (lv2EvbufGetCapacity old).toNat = port.evbufSize midiBufSize := not_not.mp kept
      rw [← same, UInt32.ofNat_toNat]
      rfl
  · rfl

structure JalvProcessPort.Activates (midiBufSize size : Nat) (port : JalvProcessPort) : Prop where
  output : port.flow = .output → port.bufSize.toNat ≤ size
  midi : port.type = .event → port.flow = .output → port.bufSize = 0 →
    (UInt32.ofNat midiBufSize).toNat ≤ size + 12
  value : sizeofControlChange ≤ size ∨ port.isBpm = false

theorem activate_fits
    (ready : ∀ port ∈ jalv.process.ports, port.Activates jalv.settings.midiBufSize jalv.uiMsgSize) :
    ∀ shape ∈ (jalv.activate updateFrames contents message).process.shapes, shape.Fits jalv.uiMsgSize := by
  intro shape member
  simp only [JalvProcess.shapes, JalvImpl.activate, jalvProcessActivate, List.mem_map, List.mem_mapIdx] at member
  obtain ⟨_, ⟨index, inside, rfl⟩, rfl⟩ := member
  have needs := ready _ (List.getElem_mem inside)
  generalize jalv.process.ports[index] = port at needs
  -- An activation replaces nothing of a port but its event buffer
  have same : (activatePort jalv.urids jalv.settings.midiBufSize (contents index) port).type = port.type ∧
      (activatePort jalv.urids jalv.settings.midiBufSize (contents index) port).flow = port.flow ∧
      (activatePort jalv.urids jalv.settings.midiBufSize (contents index) port).bufSize = port.bufSize ∧
      (activatePort jalv.urids jalv.settings.midiBufSize (contents index) port).isBpm = port.isBpm := by
    unfold activatePort
    split <;> exact ⟨rfl, rfl, rfl, rfl⟩
  obtain ⟨type, flow, bufSize, isBpm⟩ := same
  refine ⟨?_, ?_, ?_⟩
  · intro output
    rw [JalvProcessPort.shape, bufSize]
    exact needs.output (flow ▸ output)
  · intro event output evbuf buffer
    obtain ⟨held, found, rfl⟩ := Option.map_eq_some_iff.mp buffer
    have event := type.symm.trans event
    have output := flow.symm.trans output
    have capacity := activatePort_capacity event found
    change held.capacity.toNat ≤ jalv.uiMsgSize + 12
    rw [capacity, JalvProcessPort.evbufSize]
    by_cases own : port.bufSize = 0
    · rw [if_neg (not_not.mpr own)]
      exact needs.midi event output own
    · rw [if_pos own, UInt32.ofNat_toNat]
      exact (needs.output output).trans (Nat.le_add_right _ _)
  · rw [JalvProcessPort.shape, isBpm]
    exact needs.value

end

section

variable {backend : JalvBackend} {state next : JackHost}

theorem JackHost.sized_initial (initial : (updateSystem backend True).initial state) : state.Sized := by
  obtain ⟨plugin, midiBufSize, updateFrames, contents, message, jalv, opened, small, values, content, careful⟩ :=
    initial
  obtain ⟨controls, loaded⟩ := careful trivial
  obtain ⟨ported, proposal, held, created, same⟩ := jalvOpen_ok opened
  have outputs := jalvCreatePorts_outputsFit created
  have size : state.jalv.uiMsgSize = max ported.uiMsgSize midiBufSize := by rw [same]; rfl
  have bpm (port : JalvProcessPort) (member : port ∈ ported.process.ports) :
      sizeofControlChange ≤ max ported.uiMsgSize midiBufSize ∨ port.isBpm = false := by
    rcases controls with room | none
    · exact Or.inl (size ▸ room)
    · right
      obtain ⟨index, inside, rfl⟩ := List.getElem_of_mem member
      have activated := none (activatePort ported.urids midiBufSize (contents index) ported.process.ports[index]) (by
        rw [same]
        exact List.mem_mapIdx.mpr ⟨index, inside, rfl⟩)
      rw [← activated, activatePort]
      split <;> rfl
  refine ⟨small, ?_, ?_⟩
  · rw [same]
    refine activate_fits fun port member => ⟨fun output => ?_, fun _ _ _ => ?_, bpm port member⟩
    · exact (outputs port member output).trans (Nat.le_max_left _ _)
    · have less : (UInt32.ofNat midiBufSize).toNat ≤ midiBufSize := by
        rw [UInt32.toNat_ofNat']
        exact Nat.mod_le _ _
      exact less.trans ((Nat.le_max_right _ _).trans (Nat.le_add_right _ _))
  · rcases loaded with room | rfl
    · exact messagesFit_values room content
    · exact ⟨[], content, by simp⟩

theorem UpdateStep.sized (sized : state.Sized) (step : UpdateStep backend True state next) : next.Sized := by
  cases step with
  | activate runState => exact ⟨sized.small, sized.ports, sized.fit⟩
  | write uiToPlugin => exact ⟨sized.small, sized.ports, sized.fit⟩
  -- Only a running process is activated again with the new size
  | bufferSize answer updateFrames contents message met =>
    by_cases running : state.jalv.process.runState = .running
    · simp only [bufferSizeCb, if_pos running]
      refine ⟨sized.small, activate_fits fun port member => ?_, sized.fit⟩
      have fits := sized.ports port.shape (List.mem_map_of_mem member)
      exact ⟨fits.output, met trivial running port member, fits.value⟩
    · simp only [bufferSizeCb, if_neg running]
      exact ⟨sized.small, sized.ports, sized.fit⟩
  | process cycle output kept done =>
    obtain ⟨shapes, capacity, fit⟩ := processCb_fits sized.small sized.ports kept ⟨rfl, sized.fit⟩ done
    refine ⟨?_, ?_, fit⟩
    · simp only [JackHost.processed, capacity]
      exact sized.small
    · simp only [JackHost.processed, shapes]
      exact sized.ports
  | update updated =>
    obtain ⟨messages, content, all⟩ := sized.fit
    have setup := jalvUpdate_setup updated
    obtain ⟨capacity, left, rest, suffix⟩ := jalvUpdate_stream content updated
    refine ⟨capacity ▸ sized.small, ?_, left, rest, fun message member => ?_⟩
    · simp only [setup.process, setup.uiMsgSize]
      exact sized.ports
    · simp only [setup.uiMsgSize]
      exact all message (suffix.subset member)

end

/-- In runs in which no buffer size callback makes an output buffer larger than the message
buffer and the overhead of a sequence, every message fits into the message buffer. -/
theorem updates_fit (backend : JalvBackend) (state : JackHost)
    (reachable : (updateSystem backend True).Reachable state) :
    MessagesFit state.pluginToUi state.jalv.uiMsgSize := by
  have sized : state.Sized := TransitionSystem.invariant (fun _ => JackHost.sized_initial)
    (fun _ _ sized step => step.sized sized) reachable
  exact sized.fit

def updateTestPlugin : LilvPlugin where
  ports := [{
    node := .blank []
    symbol := []
    isInput := false
    isOutput := true
    isControl := false
    isAudio := false
    isCV := false
    isAtom := true
    connectionOptional := false
    minimumSize := none
    default := none
    designatedControl := false
    reportsLatency := false
    designatedLatency := false
    designatedBeatsPerMinute := false
    supportsMidi := true
    supportsPosition := false }]
  few := by decide
  defaults := [0]
  writable := []
  readable := []
  threadSafeRestore := false

def updateTestHost : JalvImpl :=
  match jalvOpen updateTestPlugin 1024 0 (fun _ _ => 0) (fun _ => 0) lookupTestHost with
  | some (.ok jalv) => jalv
  | _ => lookupTestHost

def updateTestEvent (length : Nat) (small : length < 2 ^ 32) : AtomEvent where
  frames := 0
  atom :=
    { size := UInt32.ofNat length
      type := 1
      body := List.replicate length 0
      sized := by rw [List.length_replicate, UInt32.toNat_ofNat', Nat.mod_eq_of_lt small] }

def updateTestOutput (event : AtomEvent) : PluginOutput where
  control := fun _ => 0
  size := fun _ => UInt32.ofNat (8 + eventsSize [event])
  type := fun _ => lookupTestHost.urids.atomSequence
  contents := fun _ => Memory.store (fun _ => 0) 0 event.encode

theorem updateTestHost_initial (backend : JalvBackend) (careful : Prop) :
    (updateSystem backend careful).initial ⟨updateTestHost, .empty 4095, .empty 4095⟩ :=
  ⟨updateTestPlugin, 1024, 0, fun _ _ => 0, fun _ => 0, lookupTestHost, rfl, by decide, [], rfl,
    fun _ => ⟨Or.inl (by decide), Or.inr rfl⟩⟩

theorem updateTestOutput_kept {ports : List JalvProcessPort} {event : AtomEvent}
    (room : ∀ port ∈ ports, ∀ evbuf, port.evbuf = some evbuf →
      evbuf.atomSequence = lookupTestHost.urids.atomSequence ∧ 8 + eventsSize [event] ≤ evbuf.capacity.toNat) :
    (updateTestOutput event).Kept ports := by
  intro index port evbuf found _ _ buffer
  obtain ⟨sequence, inside⟩ := room port (List.mem_of_getElem? found) evbuf buffer
  have bound := evbuf.capacity.toNat_lt
  have size : (UInt32.ofNat (8 + eventsSize [event])).toNat = 8 + eventsSize [event] := by
    rw [UInt32.toNat_ofNat', Nat.mod_eq_of_lt (by omega)]
  have holds : ((updateTestOutput event).buffer index evbuf).Sequence [event] :=
    { type := sequence.symm
      size
      held := by
        have begins : eventFormat.Holds (fun _ => 0) 0 [] 0 := .nil 0
        have appended := begins.snoc event
        rwa [Nat.zero_add] at appended }
  exact holds.kept (by rw [PluginOutput.buffer]; exact size.symm ▸ inside)

def updateTestRunning : JackHost :=
  ⟨{ updateTestHost with process := { updateTestHost.process with runState := .running } }, .empty 4095, .empty 4095⟩

def updateTestResized (midiBufSize : Nat) : JackHost :=
  { updateTestRunning with
    jalv := bufferSizeCb updateTestRunning.jalv (some midiBufSize) 0 (fun _ _ => 0) fun _ => 0 }

theorem updateTestResized_reachable {careful : Prop} {midiBufSize : Nat} (small : careful → midiBufSize ≤ 1036) :
    (updateSystem jackTestBackend careful).Reachable (updateTestResized midiBufSize) := by
  have met (care : careful) : updateTestRunning.jalv.SmallOutputs midiBufSize := by
    intro _ _ _ _ _ _
    have bound := small care
    change (UInt32.ofNat midiBufSize).toNat ≤ 1036
    rw [UInt32.toNat_ofNat']
    omega
  have activated : UpdateStep jackTestBackend careful ⟨updateTestHost, .empty 4095, .empty 4095⟩ updateTestRunning :=
    .activate .running
  have resized : UpdateStep jackTestBackend careful updateTestRunning (updateTestResized midiBufSize) :=
    .bufferSize (some midiBufSize) 0 (fun _ _ => 0) (fun _ => 0) met
  exact ⟨_, updateTestHost_initial _ _, (Relation.ReflTransGen.single activated).tail resized⟩

theorem updateTest_process {midiBufSize : Nat} {event : AtomEvent} (header : JalvMessageHeader) {careful : Prop}
    (small : careful → midiBufSize ≤ 1036)
    (room : ∀ port ∈ (updateTestResized midiBufSize).jalv.process.ports, ∀ evbuf, port.evbuf = some evbuf →
      evbuf.atomSequence = lookupTestHost.urids.atomSequence ∧ 8 + eventsSize [event] ≤ evbuf.capacity.toNat)
    (sent : (processCb jackTestBackend (updateTestResized midiBufSize).jack jackTestCycle
      (updateTestOutput event)).map (·.1.pluginToUi.content.take 8) = some header.encode) :
    ∃ state, (updateSystem jackTestBackend careful).Reachable state ∧
      state.jalv.uiMsgSize = (updateTestResized midiBufSize).jalv.uiMsgSize ∧
      state.pluginToUi.content.take 8 = header.encode := by
  obtain ⟨⟨jack, midi⟩, done, first⟩ := Option.map_eq_some_iff.mp sent
  exact ⟨_, (updateTestResized_reachable small).step (.process jackTestCycle (updateTestOutput event)
    (updateTestOutput_kept room) done), rfl, first⟩

/-- With a MIDI buffer of 1036 bytes, an event of 1000 bytes fits. -/
theorem updates_fit_test : ∃ state : JackHost,
    state.pluginToUi.content.take 8 = JalvMessageHeader.encode ⟨2, 1012⟩ ∧
      MessagesFit state.pluginToUi state.jalv.uiMsgSize := by
  have room : ∀ port ∈ (updateTestResized 1036).jalv.process.ports, ∀ evbuf, port.evbuf = some evbuf →
      evbuf.atomSequence = lookupTestHost.urids.atomSequence ∧
        8 + eventsSize [updateTestEvent 1000 (by decide)] ≤ evbuf.capacity.toNat := by
    intro port member evbuf buffer
    cases List.mem_singleton.mp member
    cases buffer
    exact ⟨rfl, by decide⟩
  obtain ⟨state, reachable, _, first⟩ := updateTest_process ⟨2, 1012⟩ (fun _ : True => Nat.le_refl 1036) room
    (by decide +kernel)
  exact ⟨state, first, updates_fit jackTestBackend state reachable⟩

/-- A callback that makes the output buffer larger lets a plugin send an event of 1016 bytes,
which does not fit into the message buffer of 1024 bytes. -/
theorem updates_refuted : ∃ state, (updateSystem jackTestBackend False).Reachable state ∧
    ¬ MessagesFit state.pluginToUi state.jalv.uiMsgSize := by
  have room : ∀ port ∈ (updateTestResized 2048).jalv.process.ports, ∀ evbuf, port.evbuf = some evbuf →
      evbuf.atomSequence = lookupTestHost.urids.atomSequence ∧
        8 + eventsSize [updateTestEvent 1016 (by decide)] ≤ evbuf.capacity.toNat := by
    intro port member evbuf buffer
    cases List.mem_singleton.mp member
    cases buffer
    exact ⟨rfl, by decide⟩
  obtain ⟨state, reachable, size, first⟩ := updateTest_process ⟨2, 1028⟩ (fun no : False => no.elim) room
    (by decide +kernel)
  refine ⟨state, reachable, ?_⟩
  rintro ⟨messages, content, all⟩
  have some : state.pluginToUi.content ≠ [] := by
    intro none
    rw [none] at first
    cases first
  obtain ⟨message, member, header⟩ := FramedMessage.header_of_stream content some
  have fits := all message member
  have large : message.header = ⟨2, 1028⟩ := by
    rw [header, sizeofHeader, first, JalvMessageHeader.decode_encode]
  rw [large, size] at fits
  exact absurd fits (by decide)

end Jalv
