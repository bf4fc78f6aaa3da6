import Jalv.Backend.Delivery
import Jalv.Backend.PortAudio
import Jalv.Foundation.Machine

/-! What a plugin does with events becomes what the program writes to JACK.

A plugin that plays events is a machine which answers the events at its inputs with
events at its outputs. Around it are buffers, rings and the callbacks. The writes are
calls of `jack_midi_event_write`, each of which JACK may refuse.
-/

set_option autoImplicit false

namespace Jalv

open Foundation

def JalvProcess.inputEvents (proc : JalvProcess) (events : Nat → List AtomEvent) (index : Nat) : List AtomEvent :=
  match proc.ports[index]? with
  | some port => if port.type = .event ∧ port.flow = .input then events index else []
  | none => []

def JalvProcess.bufferEvents (proc : JalvProcess) (index : Nat) : Option (List AtomEvent) :=
  proc.ports[index]?.bind fun port => port.evbuf.bind lv2EvbufEvents

def JalvProcess.readEvents (proc : JalvProcess) : Nat → List AtomEvent :=
  proc.inputEvents fun index => (proc.bufferEvents index).getD []

/-- The plugin leaves these events in the buffers of its event output ports. -/
def PluginOutput.Plays (output : PluginOutput) (proc : JalvProcess) (events : Nat → List AtomEvent) : Prop :=
  ∀ index port, proc.ports[index]? = some port → port.type = .event → port.flow = .output →
    (lilvInstanceRun proc output).bufferEvents index = some (events index)

def JalvProcessPort.midiEvents (urids : JalvURIDs) (index : Nat) (port : JalvProcessPort) (events : List AtomEvent) :
    List (Nat × JackMidiEvent) :=
  if port.type = .event ∧ port.flow = .output ∧ port.sysPort then
    (events.filter fun event => event.atom.type = urids.midiMidiEvent).map fun event =>
      (index, ⟨event.frames, event.atom.body⟩)
  else []

/-- The writes of a cycle: the MIDI events of each output, in the order of the ports. -/
def JalvProcess.midiOutput (proc : JalvProcess) (urids : JalvURIDs) (events : Nat → List AtomEvent) :
    List (Nat × JackMidiEvent) :=
  (proc.ports.mapIdx fun index port => port.midiEvents urids index (events index)).flatten

abbrev EventPlugin (σ : Type) := Machine σ (Nat → List AtomEvent) (Nat → List AtomEvent)

structure HostedState (σ : Type) extends DeliveryState where
  plugin : σ
  played : List (List (Nat × JackMidiEvent))

/-- Around calls of the plugin everything is as before. In a call it reads the buffers and then writes to them. -/
inductive HostedStep {σ : Type} (backend : JalvBackend) (plugin : EventPlugin σ) :
    HostedState σ → HostedState σ → Prop where
  | outside {state : HostedState σ} {next : DeliveryState}
      (step : DeliveryStep backend (DeliveryState.Separate backend) state.toDeliveryState next)
      (calls : next.calls = state.calls) (running : next.running = state.running) :
      HostedStep backend plugin state { state with toDeliveryState := next }
  | run {state : HostedState σ} {jack : JackProcess} {pst : JalvProcessStatus} (cycle : JackCycle)
      (idle : state.running = none) (running : state.jack.proc.runState = .running)
      (room : state.jack.proc.Room (state.expected backend cycle)) (separate : state.Separate backend cycle)
      (begun : processCbBegin backend state.jack cycle = some (pst, jack)) :
      HostedStep backend plugin state
        { state with
          jack, waiting := [], left := fun _ => [], running := some (pst, cycle.nframes)
          calls := state.calls ++ [(jack.proc, state.expected backend cycle)] }
  | finish {state : HostedState σ} {jack : JackProcess} {pst : JalvProcessStatus} {nframes : UInt32}
      {midi : List (Nat × JackMidiEvent)} (output : PluginOutput) (inside : state.running = some (pst, nframes))
      (plays : output.Plays state.jack.proc (plugin.step state.plugin state.jack.proc.readEvents).2)
      (done : processCbEnd backend pst state.jack nframes output = some (jack, midi)) :
      HostedStep backend plugin state
        { state with
          jack, running := none, plugin := (plugin.step state.plugin state.jack.proc.readEvents).1
          played := state.played ++ [midi] }

def hostedSystem {σ : Type} (backend : JalvBackend) (plugin : EventPlugin σ) : TransitionSystem (HostedState σ) where
  initial state := (deliverySystem backend (DeliveryState.Separate backend)).initial state.toDeliveryState ∧
    state.plugin = plugin.start ∧ state.played = []
  step := HostedStep backend plugin

def HostedState.finished {σ : Type} (state : HostedState σ) : List (JalvProcess × (Nat → List AtomEvent)) :=
  if state.running.isSome then state.calls.dropLast else state.calls

structure HostedState.Transparent {σ : Type} (backend : JalvBackend) (plugin : EventPlugin σ) (state : HostedState σ) :
    Prop where
  current : state.plugin = plugin.state (state.finished.map fun call => call.1.inputEvents call.2)
  played : state.played = List.zipWith (fun call events => call.1.midiOutput backend.urids events) state.finished
    (plugin.outputs (state.finished.map fun call => call.1.inputEvents call.2))

section

variable {backend : JalvBackend} {jack next : JackProcess} {pst : JalvProcessStatus} {nframes : UInt32}
  {output : PluginOutput} {proc : JalvProcess} {events : Nat → List AtomEvent}

theorem JalvProcess.inputEvents_congr {other : Nat → List AtomEvent}
    (same : ∀ index port, proc.ports[index]? = some port → port.type = .event → port.flow = .input →
      other index = events index) : proc.inputEvents other = proc.inputEvents events := by
  funext index
  unfold inputEvents
  cases found : proc.ports[index]? with
  | none => rfl
  | some port =>
    by_cases input : port.type = .event ∧ port.flow = .input
    · simp only [if_pos input, same index port found input.1 input.2]
    · simp only [if_neg input]

theorem JalvProcess.Queues.readEvents {awaited : Nat → List AtomEvent} (queues : proc.Queues events awaited) :
    proc.readEvents = proc.inputEvents events := by
  refine inputEvents_congr fun index port found event input => ?_
  obtain ⟨evbuf, buffer, sequence, _⟩ := queues index port found event input
  rw [bufferEvents, found, Option.bind_some, buffer, Option.bind_some, sequence.read, Option.getD_some]

-- What the last loop of the callback writes to MIDI outputs for a port.
def finishedMidi (urids : JalvURIDs) (index : Nat) (port : JalvProcessPort) : Option (List (Nat × JackMidiEvent)) :=
  if port.flow = .input ∧ port.type = .event then port.evbuf.map fun _ => []
  else if port.flow = .output ∧ port.type = .event then
    (port.evbuf.bind lv2EvbufEvents).map (port.midiEvents urids index)
  else some []

theorem forwardEvents_midi {port : JalvProcessPort} (event : port.type = .event) (outgoing : port.flow = .output)
    (urids : JalvURIDs) (index : Nat) (events : List AtomEvent) (state : PostState) :
    (events.foldl (forwardEvent urids index port) state).midi = state.midi ++ port.midiEvents urids index events := by
  induction events generalizing state with
  | nil => simp [JalvProcessPort.midiEvents]
  | cons first rest ih =>
    rw [List.foldl_cons, ih]
    by_cases registered : port.sysPort
    · by_cases midi : first.atom.type = urids.midiMidiEvent <;>
        simp [forwardEvent, JalvProcessPort.midiEvents, event, outgoing, registered, midi]
    · simp [forwardEvent, JalvProcessPort.midiEvents, registered]

theorem finishPort_midi {controlsBuf : List UInt32} {sendUpdates : Bool} {index : Nat} {port : JalvProcessPort}
    (state : PostState) :
    (finishPort backend controlsBuf sendUpdates index port state).map (·.2.midi) =
      (finishedMidi backend.urids index port).map (·.foldl (fun midi event => midi ++ [event]) state.midi) := by
  unfold finishPort finishedMidi
  split
  · cases port.evbuf <;> rfl
  · split
    · next kind =>
      have control : ¬ (port.type = .control ∧ port.reportsLatency) := by simp [kind.2]
      rw [postProcessOutputPort, if_pos kind.1, if_neg control, if_pos kind.2]
      cases port.evbuf with
      | none => rfl
      | some evbuf =>
        simp only [Option.bind_eq_bind, Option.bind_some]
        cases lv2EvbufEvents evbuf with
        | none => rfl
        | some events =>
          have written := forwardEvents_midi kind.2 kind.1 backend.urids index events state
          exact congrArg some (written.trans (foldl_snoc _ _).symm)
    · rfl

theorem PluginOutput.writePort_midiEvents (output : PluginOutput) (urids : JalvURIDs) (index : Nat)
    (port : JalvProcessPort) (events : List AtomEvent) :
    (output.writePort index port).midiEvents urids index events = port.midiEvents urids index events := by
  unfold writePort
  split <;> rfl

theorem finishedMidi_collected {midi : List (Nat × JackMidiEvent)} (plays : output.Plays proc events)
    (done : collectFrom (finishedMidi backend.urids) 0 (lilvInstanceRun proc output).ports = some midi) :
    midi = proc.midiOutput backend.urids events := by
  have each (index : Nat) (port : JalvProcessPort) (traced : List (Nat × JackMidiEvent))
      (found : (lilvInstanceRun proc output).ports[index]? = some port)
      (traces : finishedMidi backend.urids (0 + index) port = some traced) :
      traced = port.midiEvents backend.urids (0 + index) (events (0 + index)) := by
    rw [Nat.zero_add] at traces ⊢
    unfold finishedMidi at traces
    split at traces
    · next kind =>
      obtain ⟨_, _, rfl⟩ := Option.map_eq_some_iff.mp traces
      simp [JalvProcessPort.midiEvents, kind.1]
    · split at traces
      · next kind =>
        obtain ⟨before, here, shape⟩ := JalvProcess.shape_at (lilvInstanceRun_shapes proc output) found
        have type : before.type = .event := (congrArg PortShape.type shape).symm.trans kind.2
        have flow : before.flow = .output := (congrArg PortShape.flow shape).symm.trans kind.1
        have read := plays index before here type flow
        rw [JalvProcess.bufferEvents, found, Option.bind_some] at read
        rw [read, Option.map_some, Option.some.injEq] at traces
        exact traces.symm
      · next other =>
        cases traces
        have silent : ¬ (port.type = .event ∧ port.flow = .output ∧ port.sysPort) := fun kind => other ⟨kind.2.1, kind.1⟩
        rw [JalvProcessPort.midiEvents, if_neg silent]
  rw [collectFrom_eq_flatten (fun index port => port.midiEvents backend.urids index (events index)) each done,
    lilvInstanceRun, List.mapIdx_mapIdx, JalvProcess.midiOutput]
  simp only [Nat.zero_add, Function.comp_def, PluginOutput.writePort_midiEvents]

theorem processCbEnd_midi {midi : List (Nat × JackMidiEvent)} (plays : output.Plays jack.proc events)
    (done : processCbEnd backend pst jack nframes output = some (next, midi)) :
    midi = jack.proc.midiOutput backend.urids events := by
  obtain ⟨pendingFrames, frame⟩ := jalvRunEnd_frame pst jack.proc nframes output
  rw [processCbEnd] at done
  cases ran : jalvRunEnd pst jack.proc nframes output with
  | mk status proc =>
    rw [ran] at done frame
    simp only at frame
    subst frame
    obtain ⟨⟨ports, state⟩, finished, same⟩ := Option.bind_eq_some_iff.mp done
    cases same
    have loop : (changeFrom (finishPort backend (lilvInstanceRun jack.proc output).controlsBuf (status = .sendUpdates)) 0
        (lilvInstanceRun jack.proc output).ports ⟨jack.proc.pluginLatency, jack.pluginToUi, []⟩).map (·.2.midi) =
          (collectFrom (finishedMidi backend.urids) 0 (lilvInstanceRun jack.proc output).ports).map
            (·.foldl (fun midi event => midi ++ [event]) []) :=
      changeFrom_collectFrom PostState.midi fun _ _ => finishPort_midi
    obtain ⟨collected, gathered, written⟩ := Option.map_eq_some_iff.mp
      (loop.symm.trans (congrArg (Option.map (·.2.midi)) finished))
    rw [foldl_snoc, List.nil_append] at written
    subst written
    exact finishedMidi_collected plays gathered

end

section

variable {σ : Type} {backend : JalvBackend} {plugin : EventPlugin σ} {state next : HostedState σ}

/-- A call begins with exactly its events, in the order in which they came. -/
theorem DeliveryState.Served.called {state : DeliveryState} {jack : JackProcess} {pst : JalvProcessStatus}
    {cycle : JackCycle} (served : state.Served) (idle : state.running = none)
    (room : state.jack.proc.Room (state.expected backend cycle)) (separate : state.Separate backend cycle)
    (begun : processCbBegin backend state.jack cycle = some (pst, jack)) :
    jack.proc.Queues (state.expected backend cycle) fun _ => [] := by
  obtain ⟨ports, pre, prepared, applies, _⟩ := processCbBegin_eq_some_iff.mp begun
  have layout := preProcess_layout prepared
  obtain ⟨next, applied, delivered, _⟩ := applyUiEvents_deliverable (layout ▸ served.prepared) served.small
    served.content (layout ▸ served.deliverable) cycle.nframes
  rw [applied, Option.some.injEq, Prod.mk.injEq, Prod.mk.injEq] at applies
  obtain ⟨_, same, _⟩ := applies
  have awaits : state.jack.proc.Queues state.left fun index => cycleEvents backend state.jack.proc cycle index ++
      (uiEvents state.jack.proc cycle.nframes state.waiting index ++ []) := by
    refine (served.queues idle).await fun index port evbuf found event input buffer => ?_
    have all := room index port evbuf found event input buffer
    simp only [List.append_nil]
    rwa [DeliveryState.expected, List.append_assoc] at all
  have queues := deliverAll_queues (preProcess_queues awaits separate prepared) delivered
  rwa [same] at queues

structure DeliveryState.Calling (state : DeliveryState) : Prop where
  served : state.Served
  called : state.running ≠ none → ∃ earlier events, state.calls = earlier ++ [(state.jack.proc, events)] ∧
    state.jack.proc.Queues events fun _ => []

theorem DeliveryStep.calling {state next : DeliveryState} (calling : state.Calling)
    (step : DeliveryStep backend (DeliveryState.Separate backend) state next) : next.Calling where
  served := step.served calling.served
  called := by
    cases step with
    | send | update => exact calling.called
    | paused nframes idle => exact fun inside => absurd idle inside
    | run cycle idle _ room separate begun =>
      exact fun _ => ⟨state.calls, _, rfl, calling.served.called idle room separate begun⟩
    | finish => exact fun inside => absurd rfl inside

structure HostedState.Sound (backend : JalvBackend) (plugin : EventPlugin σ) (state : HostedState σ) : Prop where
  served : state.toDeliveryState.Served
  called : state.running ≠ none → ∃ earlier events, state.calls = earlier ++ [(state.jack.proc, events)] ∧
    state.jack.proc.Queues events fun _ => []
  transparent : state.Transparent backend plugin

theorem HostedState.Sound.outside {next : DeliveryState} (sound : state.Sound backend plugin)
    (step : DeliveryStep backend (DeliveryState.Separate backend) state.toDeliveryState next)
    (calls : next.calls = state.calls) (running : next.running = state.running) :
    HostedState.Sound backend plugin { state with toDeliveryState := next } where
  served := (step.calling ⟨sound.served, sound.called⟩).served
  called := (step.calling ⟨sound.served, sound.called⟩).called
  transparent := by
    have same : HostedState.finished { state with toDeliveryState := next } = state.finished := by
      simp only [finished, calls, running]
    exact ⟨same ▸ sound.transparent.current, same ▸ sound.transparent.played⟩

theorem HostedState.Sound.run {jack : JackProcess} {pst : JalvProcessStatus} {cycle : JackCycle}
    (sound : state.Sound backend plugin) (idle : state.running = none)
    (room : state.jack.proc.Room (state.expected backend cycle)) (separate : state.Separate backend cycle)
    (begun : processCbBegin backend state.jack cycle = some (pst, jack)) :
    HostedState.Sound backend plugin { state with
      jack, waiting := [], left := fun _ => [], running := some (pst, cycle.nframes)
      calls := state.calls ++ [(jack.proc, state.expected backend cycle)] } where
  served := sound.served.run idle room separate begun
  called _ := ⟨state.calls, _, rfl, sound.served.called idle room separate begun⟩
  transparent := by
    have before : state.finished = state.calls := by simp [finished, idle]
    constructor
    · change state.plugin = plugin.state ((state.calls ++ [_]).dropLast.map _)
      rw [List.dropLast_concat, ← before]
      exact sound.transparent.current
    · change state.played = List.zipWith _ (state.calls ++ [_]).dropLast
        (plugin.outputs ((state.calls ++ [_]).dropLast.map _))
      rw [List.dropLast_concat, ← before]
      exact sound.transparent.played

theorem HostedState.Sound.finish {jack : JackProcess} {pst : JalvProcessStatus} {nframes : UInt32}
    {midi : List (Nat × JackMidiEvent)} {output : PluginOutput} (sound : state.Sound backend plugin)
    (inside : state.running = some (pst, nframes))
    (plays : output.Plays state.jack.proc (plugin.step state.plugin state.jack.proc.readEvents).2)
    (done : processCbEnd backend pst state.jack nframes output = some (jack, midi)) :
    HostedState.Sound backend plugin { state with
      jack, running := none, plugin := (plugin.step state.plugin state.jack.proc.readEvents).1
      played := state.played ++ [midi] } := by
  have running : state.running ≠ none := by simp [inside]
  obtain ⟨earlier, events, split, queues⟩ := sound.called running
  have before : state.finished = earlier := by
    rw [finished, inside, Option.isSome_some, if_pos rfl, split, List.dropLast_concat]
  obtain ⟨current, played⟩ := sound.transparent
  rw [before] at current played
  have written := processCbEnd_midi plays done
  rw [queues.readEvents, current] at written
  have step : DeliveryStep backend (DeliveryState.Separate backend) state.toDeliveryState
      { state.toDeliveryState with jack, running := none } := .finish output inside done
  have answers := plugin.length_outputs (earlier.map fun call => call.1.inputEvents call.2)
  rw [List.length_map] at answers
  refine ⟨step.served sound.served, fun other => absurd rfl other, ?_, ?_⟩
  · change (plugin.step state.plugin state.jack.proc.readEvents).1 = plugin.state (state.calls.map _)
    rw [split, List.map_append, List.map_singleton, plugin.state_concat, queues.readEvents, current]
  · change state.played ++ [midi] = List.zipWith _ state.calls (plugin.outputs (state.calls.map _))
    rw [split, List.map_append, List.map_singleton, plugin.outputs_concat, List.zipWith_append answers.symm, played,
      written]
    rfl

theorem HostedStep.sound (sound : state.Sound backend plugin) (step : HostedStep backend plugin state next) :
    next.Sound backend plugin := by
  cases step with
  | outside step calls running => exact sound.outside step calls running
  | run cycle idle running room separate begun => exact sound.run idle room separate begun
  | finish output inside plays done => exact sound.finish inside plays done

theorem HostedState.sound_initial (initial : (hostedSystem backend plugin).initial state) :
    state.Sound backend plugin := by
  obtain ⟨delivery, current, played⟩ := initial
  obtain ⟨proc, midiBufSize, updateFrames, contents, message, uiToPlugin, pluginToUi, same, prepared⟩ := delivery
  have none : state.calls = [] := congrArg DeliveryState.calls same
  have idle : state.running = Option.none := congrArg DeliveryState.running same
  have nothing : state.finished = [] := by simp [finished, none]
  refine ⟨DeliveryState.served_initial ⟨proc, midiBufSize, updateFrames, contents, message, uiToPlugin, pluginToUi, same,
    prepared⟩, fun inside => absurd idle inside, ?_, ?_⟩
  · rw [nothing, current]
    rfl
  · rw [nothing, played]
    rfl

/-- Whatever a plugin does with events, in any run the program writes the MIDI of what it answers to the
position, the MIDI and the messages that came for each cycle. -/
theorem plugin_transparent (reachable : (hostedSystem backend plugin).Reachable state) :
    state.Transparent backend plugin := by
  have sound : state.Sound backend plugin := TransitionSystem.invariant (fun _ => HostedState.sound_initial)
    (fun _ _ sound step => step.sound sound) reachable
  exact sound.transparent

end

def hostingTestPlugin : EventPlugin Unit where
  start := ()
  step _ events := ((), fun index => if index = 1 then events 0 else [])

def hostingTestStart : HostedState Unit where
  toDeliveryState := .start (jalvProcessActivate
    { jalvProcessInit jackTestBackend.urids with
      ports := [⟨.event, .input, true, [], none, 0, false, true, false, true, false⟩,
        ⟨.event, .output, true, [], none, 0, false, false, false, true, false⟩]
      controlsBuf := [0, 0]
      controlIn := 0 } jackTestBackend.urids 4096 0 (fun _ _ => 0) fun _ => 0) 4095 4095
  plugin := ()
  played := []

def hostingTestOutput (proc : JalvProcess) : PluginOutput :=
  match proc.ports[0]?.bind JalvProcessPort.evbuf with
  | some evbuf => ⟨fun _ => 0, fun _ => evbuf.size, fun _ => evbuf.type, fun _ => evbuf.contents⟩
  | none => ⟨fun _ => 0, fun _ => 0, fun _ => 0, fun _ _ => 0⟩

theorem hostingTest_finish {state : HostedState Unit} {jack : JackProcess} {pst : JalvProcessStatus} {nframes : UInt32}
    {midi : List (Nat × JackMidiEvent)} (inside : state.running = some (pst, nframes))
    (plays : (hostingTestOutput state.jack.proc).Plays state.jack.proc
      (hostingTestPlugin.step state.plugin state.jack.proc.readEvents).2)
    (done : processCbEnd jackTestBackend pst state.jack nframes (hostingTestOutput state.jack.proc) = some (jack, midi)) :
    HostedStep jackTestBackend hostingTestPlugin state { state with
      jack, running := none, plugin := (), played := state.played ++ [midi] } :=
  .finish _ inside plays done

theorem hostingTest_room {proc : JalvProcess} {events : Nat → List AtomEvent} {first second : JalvProcessPort}
    {evbuf : LV2Evbuf} (ports : proc.ports = [first, second]) (other : second.flow = .output)
    (buffer : first.evbuf = some evbuf) (room : EventsRoom evbuf.capacity.toNat 0 (events 0)) : proc.Room events := by
  intro index port evbuf found _ input held
  rw [ports] at found
  match index, found with
  | 0, found =>
    cases found
    cases buffer.symm.trans held
    exact room
  | 1, found =>
    cases found
    cases other.symm.trans input

/-- A note that JACK gives to the input is given back by the output. -/
theorem plugin_transparent_test : ∃ state : HostedState Unit,
    state.played = [[(1, ⟨0, [0x90, 60, 100]⟩)]] ∧ state.Transparent jackTestBackend hostingTestPlugin := by
  have start : (hostedSystem jackTestBackend hostingTestPlugin).Reachable hostingTestStart :=
    ⟨hostingTestStart, ⟨⟨_, _, _, _, _, _, _, rfl, rfl, fun _ => rfl⟩, rfl, rfl⟩, .refl⟩
  have sent := start.step (.outside (.send (.runStateChange .running) trivial rfl) rfl rfl)
  have paused := sent.step (.outside (.paused 64 rfl rfl (hostingTest_room rfl rfl rfl trivial) rfl) rfl rfl)
  have begun := paused.step (.run deliveryTestCycle rfl rfl (hostingTest_room rfl rfl rfl ⟨by decide, trivial⟩)
    (fun _ _ _ _ _ => Or.inl rfl) rfl)
  have ended := begun.step (hostingTest_finish rfl (fun index _ found _ output => by
    match index, found with
    | 0, found =>
      cases found
      cases output
    | 1, found => rfl
    | _ + 2, found => cases found) rfl)
  exact ⟨_, rfl, plugin_transparent ended⟩

end Jalv
