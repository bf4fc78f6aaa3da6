import Jalv.Backend.Transport
import Jalv.Process.Shape

/-! What a process cycle of the JACK backend does to the process state.

A cycle keeps the layout. Before the plugin runs, the buffer of an event input
port is written to from its beginning, and behind the cycle it is empty.
-/

set_option autoImplicit false

namespace Jalv

open Foundation

/-- The events that a running cycle has for an event input port, apart from messages. -/
def portEvents (backend : JalvBackend) (expected : JalvPosition) (cycle : JackCycle) (index : Nat)
    (port : JalvProcessPort) : List AtomEvent :=
  (if port.supportsPos ∧ transportChanged backend expected cycle.second then
    [⟨0, positionAtom backend cycle.second⟩] else []) ++
  (if port.sysPort then (cycle.midi index).map (·.event backend.urids) else [])

section

variable {backend : JalvBackend} {jack next : JackProcess} {cycle : JackCycle} {pst : JalvProcessStatus}
  {index : Nat} {port changed : JalvProcessPort}

def preProcess (backend : JalvBackend) (jack : JackProcess) (cycle : JackCycle) :
    Option (List JalvProcessPort × PreState) :=
  changeFrom (preProcessPort backend (transportData backend jack.proc.transport cycle)
    (expectedTransport backend jack.proc.transport cycle).bpm cycle.midi) 0 jack.proc.ports
    ⟨jack.proc.controlsBuf, jack.pluginToUi⟩

def JackProcess.prepared (backend : JalvBackend) (jack : JackProcess) (cycle : JackCycle)
    (ports : List JalvProcessPort) (state : PreState) : JalvProcess :=
  { jack.proc with
    transport := expectedTransport backend jack.proc.transport cycle
    ports
    controlsBuf := state.controlsBuf }

theorem processCbPrepare_eq_some_iff : processCbPrepare backend jack cycle = some next ↔
    ∃ ports state, preProcess backend jack cycle = some (ports, state) ∧
      next = ⟨jack.prepared backend cycle ports state, jack.uiToPlugin, state.pluginToUi⟩ := by
  simp only [processCbPrepare, processTransport_eq, Option.bind_eq_bind, Option.bind_some,
    Option.bind_eq_some_iff, Option.pure_def]
  constructor
  · rintro ⟨⟨ports, state⟩, prepared, same⟩
    cases same
    exact ⟨ports, state, prepared, rfl⟩
  · rintro ⟨ports, state, prepared, rfl⟩
    exact ⟨(ports, state), prepared, rfl⟩

theorem processCbBegin_eq_some_iff : processCbBegin backend jack cycle = some (pst, next) ↔
    ∃ ports state, preProcess backend jack cycle = some (ports, state) ∧
      applyUiEvents (jack.prepared backend cycle ports state) jack.uiToPlugin cycle.nframes =
        some (pst, next.proc, next.uiToPlugin) ∧ next.pluginToUi = state.pluginToUi := by
  simp only [processCbBegin, Option.bind_eq_bind, Option.bind_eq_some_iff, processCbPrepare_eq_some_iff,
    Option.pure_def]
  constructor
  · rintro ⟨_, ⟨ports, state, prepared, rfl⟩, ⟨status, proc, uiToPlugin⟩, applied, same⟩
    cases same
    exact ⟨ports, state, prepared, applied, rfl⟩
  · rintro ⟨ports, state, prepared, applied, same⟩
    refine ⟨_, ⟨ports, state, prepared, rfl⟩, (pst, next.proc, next.uiToPlugin), applied, ?_⟩
    rw [← same]

theorem preProcessPort_eventInput {before after : PreState} {expected : JalvPosition} {bpm : UInt32}
    (event : port.type = .event) (input : port.flow = .input)
    (prepared : preProcessPort backend (transportData backend expected cycle) bpm cycle.midi index port before =
      some (changed, after)) :
    ∃ evbuf, port.evbuf = some evbuf ∧ after = before ∧ changed = { port with
      evbuf := some (writeEvents (lv2EvbufBegin evbuf) (portEvents backend expected cycle index port)).evbuf } := by
  have other : ¬ (port.sysPort ∧ (port.type = .audio ∨ port.type = .cv)) := by simp [event]
  rw [preProcessPort, if_neg other, if_pos ⟨event, input⟩] at prepared
  obtain ⟨evbuf, buffer, same⟩ := Option.bind_eq_some_iff.mp prepared
  have written : (writeEvents (lv2EvbufBegin evbuf) (portEvents backend expected cycle index port)) =
      (let iter := if port.supportsPos ∧ (transportData backend expected cycle).changed then
          (lv2EvbufWrite (lv2EvbufBegin evbuf) 0 (transportData backend expected cycle).posBuf).2
        else lv2EvbufBegin evbuf
      if port.sysPort then (cycle.midi index).foldl (fun iter event =>
        (lv2EvbufWrite iter event.time (event.event backend.urids).atom).2) iter else iter) := by
    rw [portEvents, writeEvents_append]
    by_cases moved : port.supportsPos ∧ transportChanged backend expected cycle.second <;>
      cases port.sysPort <;>
      simp [transportData, moved, writeEvents, List.foldl_map, JackMidiEvent.event]
  cases same
  exact ⟨evbuf, buffer, rfl, by rw [written]⟩

theorem preProcessPort_shape {before after : PreState} {expected : JalvPosition} {bpm : UInt32}
    (prepared : preProcessPort backend (transportData backend expected cycle) bpm cycle.midi index port before =
      some (changed, after)) :
    changed.shape = port.shape ∧ after.controlsBuf.length = before.controlsBuf.length := by
  -- The branches of the source, of which the one for event inputs is stated on its own
  by_cases eventInput : port.type = .event ∧ port.flow = .input
  · obtain ⟨evbuf, buffer, rfl, rfl⟩ := preProcessPort_eventInput eventInput.1 eventInput.2 prepared
    exact ⟨JalvProcessPort.shape_evbuf buffer (writeEvents_shape _ _), rfl⟩
  · unfold preProcessPort at prepared
    rw [if_neg eventInput] at prepared
    split at prepared
    · cases prepared
      exact ⟨rfl, rfl⟩
    · split at prepared
      · obtain ⟨evbuf, buffer, same⟩ := Option.bind_eq_some_iff.mp prepared
        cases same
        exact ⟨JalvProcessPort.shape_evbuf buffer (lv2EvbufReset_shape _ _), rfl⟩
      · split at prepared
        · split at prepared
          · cases prepared
            exact ⟨rfl, List.length_set⟩
          · cases prepared
        · cases prepared
          exact ⟨rfl, rfl⟩

theorem preProcessPort_isSome {before : PreState} (xport : TransportData) (bpm : UInt32)
    (midi : Nat → List JackMidiEvent) (buffered : port.type = .event → port.evbuf.isSome)
    (inside : index < before.controlsBuf.length) :
    ∃ changed after, preProcessPort backend xport bpm midi index port before = some (changed, after) := by
  unfold preProcessPort
  split
  · exact ⟨_, _, rfl⟩
  · split
    · next event =>
      obtain ⟨evbuf, buffer⟩ := Option.isSome_iff_exists.mp (buffered event.1)
      exact ⟨_, _, by rw [buffer]; rfl⟩
    · split
      · next event =>
        obtain ⟨evbuf, buffer⟩ := Option.isSome_iff_exists.mp (buffered event)
        exact ⟨_, _, by rw [buffer]; rfl⟩
      · -- the bound has already decided whether the value can be set
        split <;> exact ⟨_, _, rfl⟩

theorem preProcess_isSome (backend : JalvBackend) (jack : JackProcess) (cycle : JackCycle)
    (values : jack.proc.layout.Prepared) (buffered : jack.proc.layout.Buffered) :
    ∃ ports state, preProcess backend jack cycle = some (ports, state) := by
  let kept (state : PreState) : Prop := state.controlsBuf.length = jack.proc.controlsBuf.length
  refine changeFrom_isSome (fun index port before found (same : kept before) => ?_) (rfl : kept ⟨_, _⟩)
  obtain ⟨inside, here⟩ := List.getElem?_eq_some_iff.mp found
  have count : jack.proc.controlsBuf.length = jack.proc.ports.length := by
    have counts := values.values
    simpa only [JalvProcess.layout, List.length_map] using counts
  have buffer (event : port.type = .event) : port.evbuf.isSome :=
    buffered port.layout (List.mem_map_of_mem (here ▸ List.getElem_mem inside)) event
  obtain ⟨changed, after, prepared⟩ := preProcessPort_isSome (transportData backend jack.proc.transport cycle)
    (expectedTransport backend jack.proc.transport cycle).bpm cycle.midi buffer
    (show 0 + index < before.controlsBuf.length by rw [same, count]; omega)
  exact ⟨changed, after, prepared, (preProcessPort_shape prepared).2.trans same⟩

theorem preProcess_shapes {ports : List JalvProcessPort} {state : PreState}
    (prepared : preProcess backend jack cycle = some (ports, state)) :
    (jack.prepared backend cycle ports state).shapes = jack.proc.shapes :=
  changeFrom_map JalvProcessPort.shape (fun _ _ _ _ _ prepared => (preProcessPort_shape prepared).1) prepared

theorem preProcess_layout {ports : List JalvProcessPort} {state : PreState}
    (prepared : preProcess backend jack cycle = some (ports, state)) :
    (jack.prepared backend cycle ports state).layout = jack.proc.layout := by
  have layouts := JalvProcess.ports_layout (preProcess_shapes prepared)
  let kept (state : PreState) : Prop := state.controlsBuf.length = jack.proc.controlsBuf.length
  have keeps (index : Nat) (port changed : JalvProcessPort) (before after : PreState) (_ : port ∈ jack.proc.ports)
      (same : kept before) (prepared : preProcessPort backend (transportData backend jack.proc.transport cycle)
        (expectedTransport backend jack.proc.transport cycle).bpm cycle.midi index port before =
          some (changed, after)) : kept after :=
    (preProcessPort_shape prepared).2.trans same
  have values : kept state := changeFrom_state keeps prepared rfl
  simp only [kept] at values
  simp only [JalvProcess.layout, layouts]
  simp only [JackProcess.prepared, values]

theorem jalvRunEnd_frame (pst : JalvProcessStatus) (proc : JalvProcess) (nframes : UInt32) (output : PluginOutput) :
    ∃ pendingFrames, (jalvRunEnd pst proc nframes output).2 =
      { lilvInstanceRun proc output with pendingFrames } := by
  by_cases updates : (lilvInstanceRun proc output).updateFrames ≠ 0
  · by_cases due : (lilvInstanceRun proc output).pendingFrames + nframes > (lilvInstanceRun proc output).updateFrames
    · exact ⟨0, by simp only [jalvRunEnd, if_pos updates, if_pos due]⟩
    · exact ⟨_, by simp only [jalvRunEnd, if_pos updates, if_neg due]; rfl⟩
  · exact ⟨(lilvInstanceRun proc output).pendingFrames, by simp only [jalvRunEnd, if_neg updates]⟩

theorem finishPort_shape {before after : PostState} {controlsBuf : List UInt32} {sendUpdates : Bool}
    (finished : finishPort backend controlsBuf sendUpdates index port before = some (changed, after)) :
    changed.shape = port.shape := by
  unfold finishPort at finished
  split at finished
  · obtain ⟨evbuf, buffer, same⟩ := Option.bind_eq_some_iff.mp finished
    cases same
    exact JalvProcessPort.shape_evbuf buffer (lv2EvbufReset_shape _ _)
  · split at finished
    · obtain ⟨state, _, same⟩ := Option.map_eq_some_iff.mp finished
      cases same
      rfl
    · cases finished
      rfl

theorem finishPort_eventInput {before after : PostState} {controlsBuf : List UInt32} {sendUpdates : Bool}
    (event : port.type = .event) (input : port.flow = .input)
    (finished : finishPort backend controlsBuf sendUpdates index port before = some (changed, after)) :
    ∃ evbuf, changed = { port with evbuf := some (lv2EvbufReset evbuf true) } := by
  rw [finishPort, if_pos ⟨input, event⟩] at finished
  obtain ⟨evbuf, _, same⟩ := Option.bind_eq_some_iff.mp finished
  cases same
  exact ⟨evbuf, rfl⟩

theorem processCbEnd_cases {nframes : UInt32} {output : PluginOutput} {midi : List (Nat × JackMidiEvent)}
    (done : processCbEnd backend pst jack nframes output = some (next, midi)) :
    ∃ sendUpdates pendingFrames ports state,
      let proc := { lilvInstanceRun jack.proc output with pendingFrames }
      changeFrom (finishPort backend proc.controlsBuf sendUpdates) 0 proc.ports
          ⟨proc.pluginLatency, jack.pluginToUi, []⟩ = some (ports, state) ∧
        next = { jack with
          proc := { proc with ports, pluginLatency := state.pluginLatency }, pluginToUi := state.pluginToUi } := by
  obtain ⟨pendingFrames, frame⟩ := jalvRunEnd_frame pst jack.proc nframes output
  rw [processCbEnd] at done
  cases ran : jalvRunEnd pst jack.proc nframes output with
  | mk status proc =>
    rw [ran] at done frame
    simp only at frame
    subst frame
    obtain ⟨⟨ports, state⟩, finished, same⟩ := Option.bind_eq_some_iff.mp done
    cases same
    exact ⟨_, pendingFrames, ports, state, finished, rfl⟩

section

variable {nframes : UInt32} {output : PluginOutput} {midi : List (Nat × JackMidiEvent)}

theorem processCbEnd_shapes (done : processCbEnd backend pst jack nframes output = some (next, midi)) :
    next.proc.shapes = jack.proc.shapes := by
  obtain ⟨_, _, ports, state, finished, rfl⟩ := processCbEnd_cases done
  exact (changeFrom_map JalvProcessPort.shape (fun _ _ _ _ _ finished => finishPort_shape finished) finished).trans
    (lilvInstanceRun_shapes jack.proc output)

theorem processCbEnd_layout (done : processCbEnd backend pst jack nframes output = some (next, midi)) :
    next.proc.layout = jack.proc.layout ∧ next.uiToPlugin = jack.uiToPlugin := by
  have layouts := JalvProcess.ports_layout (processCbEnd_shapes done)
  obtain ⟨_, _, ports, state, finished, rfl⟩ := processCbEnd_cases done
  refine ⟨?_, rfl⟩
  simp only [JalvProcess.layout, layouts]
  simp only [lilvInstanceRun, List.length_mapIdx]

theorem processCbEnd_queues (done : processCbEnd backend pst jack nframes output = some (next, midi)) :
    next.proc.Queues (fun _ => []) fun _ => [] := by
  obtain ⟨_, _, ports, state, finished, rfl⟩ := processCbEnd_cases done
  intro index port found event input
  obtain ⟨before, _, _, _, finish⟩ := changeFrom_getElem? finished found
  have same := JalvProcessPort.layout_of_shape (finishPort_shape finish)
  simp only [JalvProcessPort.layout, PortLayout.mk.injEq] at same
  obtain ⟨evbuf, rfl⟩ := finishPort_eventInput (same.1 ▸ event) (same.2.1 ▸ input) finish
  exact ⟨_, rfl, lv2EvbufReset_sequence evbuf, trivial⟩

theorem processCbBegin_shapes (begun : processCbBegin backend jack cycle = some (pst, next)) :
    next.proc.shapes = jack.proc.shapes := by
  obtain ⟨ports, state, prepared, applied, _⟩ := processCbBegin_eq_some_iff.mp begun
  exact (applyUiEvents_shapes applied).trans (preProcess_shapes prepared)

end

end

end Jalv
