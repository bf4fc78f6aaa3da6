import Jalv.Backend.Cycle
import Jalv.Backend.Host
import Jalv.Foundation.Transition
import Jalv.Host.Update

/-! Changes of the latency that a plugin reports, under JACK.

The process thread caches the latency and sends a message when it changes. When
`jalv_update` handles the message, JACK is asked to recompute all latencies, and
then `latency_cb` adds the cached latency to those of the ports.
-/

set_option autoImplicit false

namespace Jalv

open Foundation

/-- The main thread: outside of `jalv_update`, at the head of its loop, or behind a header. In
the last place the behavior is undefined. -/
inductive LatencyReader where
  | idle
  | scanning (i space : Nat)
  | reading (i space : Nat) (header : JalvMessageHeader)
  | undefined

/-- Both threads, with the status and the length of a cycle that has yet to call
`lilv_instance_run`, and the latency that JACK was told about last. -/
structure LatencyState where
  host : JackHost
  cycle : Option (JalvProcessStatus × UInt32)
  reader : LatencyReader
  inForce : UInt32

def LatencyState.recomputeLatencies (state : LatencyState) : LatencyState :=
  { state with inForce := state.host.jalv.process.pluginLatency }

def LatencyState.finish (state : LatencyState) : LatencyState :=
  { state with
    host := { state.host with jalv := { state.host.jalv with updating := false } }
    reader := .idle }

def LatencyState.scan (state : LatencyState) (i space : Nat) : LatencyState :=
  if i < space then
    let (bytes, pluginToUi) := state.host.pluginToUi.read sizeofHeader
    let state := { state with host := { state.host with pluginToUi } }
    if bytes.length = sizeofHeader then { state with reader := .reading i space (.decode bytes) } else state.finish
  else state.finish

def LatencyState.handle (state : LatencyState) (i space : Nat) (header : JalvMessageHeader) : LatencyState :=
  let (body, pluginToUi) := state.host.pluginToUi.read header.size.toNat
  let state := { state with host := { state.host with pluginToUi } }
  if body.length = header.size.toNat then
    let jalv := state.host.jalv
    if body.length ≤ jalv.uiMsgSize then
      let jalv := { jalv with uiMsg := jalv.uiMsg.store 0 body }
      match updateMessage jalv header.type with
      | none => { state with reader := .undefined }
      | some none => { state with host := { state.host with jalv } }.finish
      | some (some jalv) =>
        let state :=
          { state with
            host := { state.host with jalv }
            reader := .scanning (i + (sizeofHeader + header.size.toNat)) space }
        if header.type = JalvMessageType.latencyChange.code then state.recomputeLatencies else state
    else { state with reader := .undefined }
  else state.finish

def LatencyState.readerStep (state : LatencyState) : LatencyState :=
  match state.reader with
  | .idle | .undefined => state
  | .scanning i space => state.scan i space
  | .reading i space header => state.handle i space header

/-- The parts of process cycles, the iterations of `jalv_update`, and writes to the process
thread, of any messages. -/
inductive LatencyStep (backend : JalvBackend) : LatencyState → LatencyState → Prop where
  | silent {state : LatencyState} {jack : JackProcess} (nframes : UInt32) (between : state.cycle = none)
      (paused : state.host.jalv.process.runState = .paused)
      (done : processSilent state.host.jack nframes = some jack) :
      LatencyStep backend state { state with host := state.host.processed jack }
  | begin {state : LatencyState} {pst : JalvProcessStatus} {jack : JackProcess} (cycle : JackCycle)
      (between : state.cycle = none) (running : state.host.jalv.process.runState = .running)
      (begun : processCbBegin backend state.host.jack cycle = some (pst, jack)) :
      LatencyStep backend state
        { state with host := state.host.processed jack, cycle := some (pst, cycle.nframes) }
  | finish {state : LatencyState} {pst : JalvProcessStatus} {nframes : UInt32} {jack : JackProcess}
      {midi : List (Nat × JackMidiEvent)} (output : PluginOutput) (during : state.cycle = some (pst, nframes))
      (done : processCbEnd backend pst state.host.jack nframes output = some (jack, midi)) :
      LatencyStep backend state { state with host := state.host.processed jack, cycle := none }
  | call {state : LatencyState} (idle : state.reader = .idle) :
      LatencyStep backend state
        { state with
          host := { state.host with jalv := { state.host.jalv with updating := true } }
          reader := .scanning 0 state.host.pluginToUi.readSpace }
  | read {state : LatencyState} : LatencyStep backend state state.readerStep
  | write {state : LatencyState} (uiToPlugin : ZixRing) :
      LatencyStep backend state { state with host := { state.host with uiToPlugin } }

def latencySystem (backend : JalvBackend) : TransitionSystem LatencyState where
  initial state := state.host.pluginToUi.content = [] ∧ state.cycle = none ∧ state.reader = .idle ∧
    state.host.jalv.process.pluginLatency = 0 ∧ state.inForce = 0
  step := LatencyStep backend

/-- No cycle is in progress, and the ring to the main thread has been drained. -/
def LatencyState.Settled (state : LatencyState) : Prop :=
  state.cycle = none ∧ state.host.pluginToUi.content = []

def LatencyState.Reports (backend : JalvBackend) (state : LatencyState) (frames : UInt32) : Prop :=
  ∃ (index : Nat) (port : JalvProcessPort) (value : UInt32), state.host.jalv.process.ports[index]? = some port ∧
    (port.flow = .output ∧ port.type = .control ∧ port.reportsLatency) ∧
    state.host.jalv.process.controlsBuf[index]? = some value ∧ latencyFrames backend.floats value = frames

/-- Once things have settled, the latency in force is the one that the plugin reports. -/
def LatencyState.UpToDate (backend : JalvBackend) (state : LatencyState) : Prop :=
  state.Settled → ∀ frames, state.Reports backend frames → state.inForce = frames

section

variable {proc next : JalvProcess} {ring rest : ZixRing} {nframes : UInt32} {status : JalvProcessStatus}

theorem MessageEffect.pluginLatency {message : UiMessage} (effect : MessageEffect proc nframes next message) :
    next.pluginLatency = proc.pluginLatency := by
  cases effect with
  | controlPortChange _ same => rw [same]
  | runStateChange same => rw [same]
  | eventTransfer appended =>
    obtain ⟨_, _, _, _, rfl⟩ := appendEvent_cases appended
    rfl
  | stateRequest _ _ _ appended =>
    obtain ⟨_, _, _, _, rfl⟩ := appendEvent_cases appended
    rfl

theorem applyUiEvents_pluginLatency (applied : applyUiEvents proc ring nframes = some (status, next, rest)) :
    next.pluginLatency = proc.pluginLatency :=
  applyUiEvents_invariant (fun _ _ same => same) (fun _ _ _ same effect => effect.pluginLatency.trans same) applied rfl

end

section

variable {backend : JalvBackend} {jack next : JackProcess} {cycle : JackCycle} {pst : JalvProcessStatus}

-- The last loop of a cycle only passes event ports on, so the latency of none is looked at.
theorem finishPort_pluginLatency {before after : PostState} {controlsBuf : List UInt32} {sendUpdates : Bool}
    {index : Nat} {port changed : JalvProcessPort}
    (finished : finishPort backend controlsBuf sendUpdates index port before = some (changed, after)) :
    after.pluginLatency = before.pluginLatency := by
  unfold finishPort at finished
  split at finished
  · obtain ⟨_, _, same⟩ := Option.bind_eq_some_iff.mp finished
    cases same
    rfl
  · split at finished
    · next kind =>
      have other : ¬ (port.type = .control ∧ port.reportsLatency) := by simp [kind.2]
      obtain ⟨state, posted, same⟩ := Option.map_eq_some_iff.mp finished
      cases same
      rw [postProcessOutputPort, if_pos kind.1, if_neg other, if_pos kind.2] at posted
      obtain ⟨_, _, more⟩ := Option.bind_eq_some_iff.mp posted
      obtain ⟨events, _, forwarded⟩ := Option.bind_eq_some_iff.mp more
      cases forwarded
      let kept (state : PostState) : Prop := state.pluginLatency = before.pluginLatency
      exact List.foldlRecOn (motive := kept) events (forwardEvent backend.urids index port) rfl fun _ same _ _ => same
    · cases finished
      rfl

theorem processSilent_pluginLatency {nframes : UInt32} (done : processSilent jack nframes = some next) :
    next.proc.pluginLatency = jack.proc.pluginLatency := by
  obtain ⟨⟨proc, ring⟩, bypassed, same⟩ := Option.bind_eq_some_iff.mp done
  obtain ⟨⟨status, _, _⟩, applied, bypass⟩ := Option.map_eq_some_iff.mp bypassed
  cases bypass
  cases same
  exact applyUiEvents_pluginLatency applied

theorem processCbBegin_pluginLatency (begun : processCbBegin backend jack cycle = some (pst, next)) :
    next.proc.pluginLatency = jack.proc.pluginLatency := by
  obtain ⟨ports, state, _, applied, _⟩ := processCbBegin_eq_some_iff.mp begun
  exact (applyUiEvents_pluginLatency applied).trans rfl

theorem processCbEnd_pluginLatency {nframes : UInt32} {output : PluginOutput} {midi : List (Nat × JackMidiEvent)}
    (done : processCbEnd backend pst jack nframes output = some (next, midi)) :
    next.proc.pluginLatency = jack.proc.pluginLatency := by
  obtain ⟨_, _, ports, state, finished, rfl⟩ := processCbEnd_cases done
  let kept (state : PostState) : Prop := state.pluginLatency = jack.proc.pluginLatency
  have same : kept state := changeFrom_state
    (fun _ _ _ _ _ _ same finished => (finishPort_pluginLatency finished).trans same) finished rfl
  exact same

end

structure LatencyState.Unchanged (state : LatencyState) : Prop where
  cached : state.host.jalv.process.pluginLatency = 0
  told : state.inForce = 0

section

variable {state : LatencyState} {i space : Nat}

theorem LatencyState.Unchanged.scan (unchanged : state.Unchanged) : (state.scan i space).Unchanged := by
  unfold LatencyState.scan
  split
  · dsimp only
    split <;> exact ⟨unchanged.cached, unchanged.told⟩
  · exact ⟨unchanged.cached, unchanged.told⟩

theorem LatencyState.Unchanged.handle {header : JalvMessageHeader} (unchanged : state.Unchanged) :
    (state.handle i space header).Unchanged := by
  unfold LatencyState.handle
  dsimp only
  split
  · split
    · split
      · exact ⟨unchanged.cached, unchanged.told⟩
      · exact ⟨unchanged.cached, unchanged.told⟩
      · next jalv handled =>
        have setup := updateMessage_setup handled
        have cached : jalv.process.pluginLatency = 0 := by
          rw [setup.process]
          exact unchanged.cached
        split
        -- What JACK is told is what was cached
        · exact ⟨cached, cached⟩
        · exact ⟨cached, unchanged.told⟩
    · exact ⟨unchanged.cached, unchanged.told⟩
  · exact ⟨unchanged.cached, unchanged.told⟩

theorem LatencyState.Unchanged.readerStep (unchanged : state.Unchanged) : state.readerStep.Unchanged := by
  unfold LatencyState.readerStep
  split
  · exact unchanged
  · exact unchanged
  · exact unchanged.scan
  · exact unchanged.handle

end

theorem LatencyStep.unchanged {backend : JalvBackend} {state next : LatencyState} (unchanged : state.Unchanged)
    (step : LatencyStep backend state next) : next.Unchanged := by
  cases step with
  | silent nframes _ _ done => exact ⟨(processSilent_pluginLatency done).trans unchanged.cached, unchanged.told⟩
  | begin cycle _ _ begun => exact ⟨(processCbBegin_pluginLatency begun).trans unchanged.cached, unchanged.told⟩
  | finish output _ done => exact ⟨(processCbEnd_pluginLatency done).trans unchanged.cached, unchanged.told⟩
  | call _ => exact ⟨unchanged.cached, unchanged.told⟩
  | read => exact unchanged.readerStep
  | write _ => exact ⟨unchanged.cached, unchanged.told⟩

/-- No latency ever gets to JACK, so what is in force is what the plugin reports only while that
is no latency at all. -/
theorem latency_upToDate_iff (backend : JalvBackend) (state : LatencyState)
    (reachable : (latencySystem backend).Reachable state) :
    state.UpToDate backend ↔ (state.Settled → ∀ frames, state.Reports backend frames → frames = 0) := by
  have unchanged : state.Unchanged := by
    refine TransitionSystem.invariant (fun start initial => ?_) (fun _ _ unchanged step => ?_) reachable
    · exact ⟨initial.2.2.2.1, initial.2.2.2.2⟩
    · exact LatencyStep.unchanged unchanged step
  unfold LatencyState.UpToDate
  rw [unchanged.told]
  constructor
  · intro kept settled frames reports
    exact (kept settled frames reports).symm
  · intro none settled frames reports
    exact (none settled frames reports).symm

def latencyTestBackend : JalvBackend where
  urids := jackTestBackend.urids
  forge := jackTestBackend.forge
  floats := { jackTestBackend.floats with toUInt := fun bits => if bits = floatOne then 1 else 0 }

def latencyTestStart : LatencyState where
  host := {
    jalv := { lookupTestHost with
      process := { jalvProcessInit latencyTestBackend.urids with
        ports := [⟨.control, .output, false, [], none, 0, true, false, false, false, false⟩]
        controlsBuf := [0]
        runState := .running } }
    uiToPlugin := .empty 4095
    pluginToUi := .empty 4095 }
  cycle := none
  reader := .idle
  inForce := 0

def latencyTestOutput : PluginOutput := ⟨fun _ => floatOne, fun _ => 0, fun _ => 0, fun _ _ => 0⟩

theorem latencyTestStart_reachable : (latencySystem latencyTestBackend).Reachable latencyTestStart :=
  ⟨_, ⟨rfl, rfl, rfl, rfl, rfl⟩, .refl⟩

theorem latency_upToDate_iff_test : latencyTestStart.Settled ∧ latencyTestStart.Reports latencyTestBackend 0 ∧
    latencyTestStart.UpToDate latencyTestBackend := by
  refine ⟨⟨rfl, rfl⟩, ⟨0, _, 0, rfl, ⟨rfl, rfl, rfl⟩, rfl, rfl⟩,
    (latency_upToDate_iff _ _ latencyTestStart_reachable).mpr ?_⟩
  rintro _ frames ⟨index, port, value, _, _, found, rfl⟩
  cases index with
  | zero =>
    cases found
    rfl
  | succ index => cases found

/-- A plugin reports a latency of one frame in a cycle, and JACK is not told. -/
theorem latency_refuted : ∃ state, (latencySystem latencyTestBackend).Reachable state ∧
    state.Settled ∧ state.Reports latencyTestBackend 1 ∧ ¬ state.UpToDate latencyTestBackend := by
  have first := latencyTestStart_reachable.step (.begin jackTestCycle rfl rfl rfl)
  have second := first.step (.finish latencyTestOutput rfl rfl)
  refine ⟨_, second, ⟨rfl, rfl⟩, ⟨0, _, floatOne, rfl, ⟨rfl, rfl, rfl⟩, rfl, rfl⟩, fun kept => ?_⟩
  cases kept ⟨rfl, rfl⟩ 1 ⟨0, _, floatOne, rfl, ⟨rfl, rfl, rfl⟩, rfl, rfl⟩

end Jalv
