import Jalv.Backend.Addressing
import Jalv.Backend.Playback
import Jalv.Process.Values

/-! What process cycles do to the values of ports, and what they tell the main thread.

Both backends prepare the ports, apply the messages and run the plugin. They send events,
and the values of control ports that the user interface does not drive.
-/

set_option autoImplicit false

namespace Jalv

open Foundation

def UiMessage.FromProcess (proc : JalvProcess) : UiMessage → Prop
  | .controlPortChange portIndex _ => ¬proc.Driven portIndex.toNat
  | .eventTransfer _ _ => True
  | .stateRequest | .runStateChange _ => False

def Notices (proc : JalvProcess) (ring : ZixRing) : Prop :=
  ring.capacity < 2 ^ 32 ∧ ∃ messages, ring.content = stream UiMessage.encode messages ∧
    ∀ message ∈ messages, message.FromProcess proc

def JalvProcess.Indexed (proc : JalvProcess) : Prop := proc.ports.length ≤ 2 ^ 32

/-- A cycle up to the call of the plugin: the ports are prepared, and then the messages are applied. -/
structure Begins (jack next : JackProcess) : Prop where
  applied : ∃ (prepared : JalvProcess) (nframes : UInt32) (status : JalvProcessStatus),
    prepared.shapes = jack.proc.shapes ∧
      (∀ index, jack.proc.Driven index → prepared.controlsBuf[index]? = jack.proc.controlsBuf[index]?) ∧
      prepared.controlsBuf.length = jack.proc.controlsBuf.length ∧
      applyUiEvents prepared jack.uiToPlugin nframes = some (status, next.proc, next.uiToPlugin)
  notices : Notices jack.proc jack.pluginToUi → Notices jack.proc next.pluginToUi

/-- A cycle from the call of the plugin on, which leaves the messages to the process alone. -/
structure Ends (jack next : JackProcess) : Prop where
  shapes : next.proc.shapes = jack.proc.shapes
  values : ∀ index, jack.proc.Driven index → next.proc.controlsBuf[index]? = jack.proc.controlsBuf[index]?
  length : next.proc.controlsBuf.length = jack.proc.controlsBuf.length
  ring : next.uiToPlugin = jack.uiToPlugin
  notices : Notices jack.proc jack.pluginToUi → Notices jack.proc next.pluginToUi

section

variable {proc after : JalvProcess} {ring next : ZixRing}

theorem UiMessage.FromProcess.of_shapes (same : after.shapes = proc.shapes) {message : UiMessage}
    (sent : message.FromProcess proc) : message.FromProcess after := by
  cases message with
  | controlPortChange portIndex value => exact fun driven => sent (JalvProcess.driven_of_shapes same driven)
  | eventTransfer => trivial
  | stateRequest | runStateChange => exact sent

theorem Notices.of_shapes (same : after.shapes = proc.shapes) (notices : Notices proc ring) : Notices after ring := by
  obtain ⟨small, messages, content, sent⟩ := notices
  exact ⟨small, messages, content, fun message member => (sent message member).of_shapes same⟩

theorem Notices.sends {message : UiMessage} (notices : Notices proc ring) (sent : Sends ring next message)
    (from' : message.FromProcess proc) : Notices proc next := by
  obtain ⟨small, messages, content, all⟩ := notices
  refine ⟨?_, messages ++ [message], sent.stream content, forall_mem_concat all from'⟩
  rw [sent.content.1]
  exact small

theorem JalvProcess.Indexed.fromProcess {index : Nat} {port : JalvProcessPort} (indexed : proc.Indexed)
    (found : proc.ports[index]? = some port) (free : port.flow = .output ∨ port.isBpm = true) (value : UInt32) :
    (UiMessage.controlPortChange (UInt32.ofNat index) value).FromProcess proc := by
  obtain ⟨inside, _⟩ := List.getElem?_eq_some_iff.mp found
  have place : (UInt32.ofNat index).toNat = index := by
    rw [UInt32.toNat_ofNat']
    exact Nat.mod_eq_of_lt (lt_of_lt_of_le inside indexed)
  rintro ⟨other, here, _, flow, tempo⟩
  rw [place, found, Option.some.injEq] at here
  subst here
  rcases free with output | own
  · exact PortFlow.noConfusion (flow.symm.trans output)
  · exact Bool.noConfusion (tempo.symm.trans own)

theorem Notices.event (notices : Notices proc ring) (index : UInt32) (atom : Atom) :
    Notices proc (jalvWriteEvent ring index atom).2 := by
  rcases jalvWriteEvent_cases ring index atom with kept | sent
  · rw [kept]
    exact notices
  · exact notices.sends sent trivial

theorem Notices.events (notices : Notices proc ring) (index : UInt32) (events : List AtomEvent) :
    Notices proc (events.foldl (fun ring event => (jalvWriteEvent ring index event.atom).2) ring) := by
  induction events generalizing ring with
  | nil => exact notices
  | cons event rest ih => exact ih (notices.event index event.atom)

end

section

variable {backend : JalvBackend} {jack next : JackProcess} {cycle : JackCycle} {pst : JalvProcessStatus}
  {nframes : UInt32} {output : PluginOutput}

theorem preProcessPort_values {before after : PreState} {expected : JalvPosition} {bpm : UInt32} {index : Nat}
    {port changed : JalvProcessPort}
    (prepared : preProcessPort backend (transportData backend expected cycle) bpm cycle.midi index port before =
      some (changed, after)) :
    after.controlsBuf = before.controlsBuf ∨
      port.isBpm = true ∧ after.controlsBuf = before.controlsBuf.set index bpm := by
  by_cases eventInput : port.type = .event ∧ port.flow = .input
  · obtain ⟨_, _, rfl, _⟩ := preProcessPort_eventInput eventInput.1 eventInput.2 prepared
    exact Or.inl rfl
  · unfold preProcessPort at prepared
    rw [if_neg eventInput] at prepared
    split at prepared
    · cases prepared
      exact Or.inl rfl
    · split at prepared
      · obtain ⟨_, _, same⟩ := Option.bind_eq_some_iff.mp prepared
        cases same
        exact Or.inl rfl
      · split at prepared
        · next tempo =>
          split at prepared
          · cases prepared
            exact Or.inr ⟨tempo.1, rfl⟩
          · cases prepared
        · cases prepared
          exact Or.inl rfl

theorem preProcess_values {ports : List JalvProcessPort} {state : PreState}
    (prepared : preProcess backend jack cycle = some (ports, state)) {index : Nat} (driven : jack.proc.Driven index) :
    state.controlsBuf[index]? = jack.proc.controlsBuf[index]? := by
  let holds (state : PreState) : Prop := state.controlsBuf[index]? = jack.proc.controlsBuf[index]?
  have final : holds state := changeFrom_state_at (fun position port changed before after found now changes => by
    rcases preProcessPort_values changes with kept | ⟨tempo, set⟩
    · exact (congrArg (·[index]?) kept).trans now
    · -- The port with the tempo is not driven by the user interface
      have apart : 0 + position ≠ index := by
        rintro rfl
        obtain ⟨other, here, _, _, plain⟩ := driven
        rw [Nat.zero_add, found, Option.some.injEq] at here
        subst here
        exact Bool.noConfusion (plain.symm.trans tempo)
      simp only [holds, set, List.getElem?_set_ne apart]
      exact now) prepared rfl
  exact final

theorem preProcess_notices {ports : List JalvProcessPort} {state : PreState} (indexed : jack.proc.Indexed)
    (prepared : preProcess backend jack cycle = some (ports, state)) (notices : Notices jack.proc jack.pluginToUi) :
    Notices jack.proc state.pluginToUi := by
  let holds (state : PreState) : Prop := Notices jack.proc state.pluginToUi
  have final : holds state := changeFrom_state_at (fun position port changed before after found now changes => by
    rw [Nat.zero_add] at changes
    rcases preProcessPort_ring changes with kept | ⟨tempo, sent⟩
    · simp only [holds, kept]
      exact now
    · exact Notices.sends now sent (indexed.fromProcess found (Or.inr tempo) _)) prepared notices
  exact final

theorem processCbBegin_begins (indexed : jack.proc.Indexed)
    (begun : processCbBegin backend jack cycle = some (pst, next)) : Begins jack next := by
  obtain ⟨ports, state, prepared, applied, ring⟩ := processCbBegin_eq_some_iff.mp begun
  have layout := congrArg ProcessLayout.controls (preProcess_layout prepared)
  refine ⟨⟨_, _, _, preProcess_shapes prepared, fun index driven => preProcess_values prepared driven, layout, applied⟩,
    fun notices => ?_⟩
  rw [ring]
  exact preProcess_notices indexed prepared notices

theorem processSilent_begins (done : processSilent jack nframes = some next) : Begins jack next := by
  obtain ⟨⟨proc, uiToPlugin⟩, bypassed, same⟩ := Option.bind_eq_some_iff.mp done
  obtain ⟨⟨status, after, left⟩, applied, parts⟩ := Option.map_eq_some_iff.mp bypassed
  cases same
  cases parts
  exact ⟨⟨_, _, _, rfl, fun _ _ => rfl, rfl, applied⟩, id⟩

theorem PortAudio.processCbBegin_begins (begun : PortAudio.processCbBegin jack nframes = some (pst, next)) :
    Begins jack next := by
  obtain ⟨ports, prepared, rest⟩ := Option.bind_eq_some_iff.mp begun
  obtain ⟨⟨status, proc, uiToPlugin⟩, applied, same⟩ := Option.bind_eq_some_iff.mp rest
  cases same
  have shapes : ports.map JalvProcessPort.shape = jack.proc.ports.map JalvProcessPort.shape :=
    mapM_map JalvProcessPort.shape (fun _ _ prepared => PortAudio.preProcessPort_shape prepared) prepared
  exact ⟨⟨{ jack.proc with ports }, nframes, pst, shapes, fun _ _ => rfl, rfl, applied⟩, id⟩

end

section

variable {backend : JalvBackend} {jack next : JackProcess} {pst : JalvProcessStatus} {nframes : UInt32}
  {output : PluginOutput}

theorem lilvInstanceRun_length (proc : JalvProcess) (output : PluginOutput) :
    (lilvInstanceRun proc output).controlsBuf.length = proc.controlsBuf.length := List.length_mapIdx

theorem forwardEvents_notices {urids : JalvURIDs} {index : Nat} {port : JalvProcessPort} {events : List AtomEvent}
    {proc : JalvProcess} {state : PostState} (notices : Notices proc state.pluginToUi) :
    Notices proc (events.foldl (forwardEvent urids index port) state).pluginToUi := by
  rw [forwardEvents_attempt, ← writeEvents_attempt]
  exact notices.events _ _

theorem finishPort_notices {before after : PostState} {controlsBuf : List UInt32} {sendUpdates : Bool} {index : Nat}
    {port changed : JalvProcessPort} {proc : JalvProcess} (notices : Notices proc before.pluginToUi)
    (finished : finishPort backend controlsBuf sendUpdates index port before = some (changed, after)) :
    Notices proc after.pluginToUi := by
  unfold finishPort at finished
  split at finished
  · obtain ⟨_, _, same⟩ := Option.bind_eq_some_iff.mp finished
    cases same
    exact notices
  · split at finished
    · next kind =>
      obtain ⟨state, processed, same⟩ := Option.map_eq_some_iff.mp finished
      cases same
      have event : ¬ (port.type = .control ∧ port.reportsLatency) := by simp [kind.2]
      rw [postProcessOutputPort, if_pos kind.1, if_neg event, if_pos kind.2] at processed
      obtain ⟨evbuf, _, rest⟩ := Option.bind_eq_some_iff.mp processed
      obtain ⟨events, _, same⟩ := Option.bind_eq_some_iff.mp rest
      cases same
      exact forwardEvents_notices notices
    · cases finished
      exact notices

theorem processCbEnd_ends {midi : List (Nat × JackMidiEvent)}
    (done : processCbEnd backend pst jack nframes output = some (next, midi)) : Ends jack next := by
  have shapes := processCbEnd_shapes done
  obtain ⟨sendUpdates, pendingFrames, ports, state, finished, rfl⟩ := processCbEnd_cases done
  refine ⟨shapes, fun index driven => lilvInstanceRun_value output driven, lilvInstanceRun_length _ _, rfl,
    fun notices => ?_⟩
  let holds (state : PostState) : Prop := Notices jack.proc state.pluginToUi
  have final : holds state :=
    changeFrom_state (fun _ _ _ _ _ _ now finished => finishPort_notices now finished) finished notices
  exact final

theorem PortAudio.finishPort_notices {controlsBuf : List UInt32} {sendUpdates : Bool} {index : Nat}
    {port changed : JalvProcessPort} {proc : JalvProcess} {before after : ZixRing} (indexed : proc.Indexed)
    (found : proc.ports[index]? = some port) (notices : Notices proc before)
    (finished : PortAudio.finishPort controlsBuf sendUpdates index port before = some (changed, after)) :
    Notices proc after := by
  unfold PortAudio.finishPort at finished
  split at finished
  · obtain ⟨_, _, same⟩ := Option.bind_eq_some_iff.mp finished
    cases same
    exact notices
  · split at finished
    · obtain ⟨_, _, rest⟩ := Option.bind_eq_some_iff.mp finished
      obtain ⟨events, _, same⟩ := Option.bind_eq_some_iff.mp rest
      cases same
      exact notices.events _ _
    · split at finished
      · next kind =>
        obtain ⟨value, _, same⟩ := Option.bind_eq_some_iff.mp finished
        cases same
        rcases jalvWriteControl_cases before (UInt32.ofNat index) value with kept | sent
        · rw [kept]
          exact notices
        · exact notices.sends sent (indexed.fromProcess found (Or.inl kind.2.1) value)
      · cases finished
        exact notices

theorem PortAudio.processCbEnd_ends (indexed : jack.proc.Indexed)
    (done : PortAudio.processCbEnd pst jack nframes output = some next) : Ends jack next := by
  obtain ⟨pendingFrames, frame⟩ := jalvRunEnd_frame pst jack.proc nframes output
  rw [PortAudio.processCbEnd] at done
  cases ran : jalvRunEnd pst jack.proc nframes output with
  | mk status proc =>
    rw [ran] at done frame
    simp only at frame
    subst frame
    obtain ⟨⟨ports, pluginToUi⟩, finished, same⟩ := Option.bind_eq_some_iff.mp done
    cases same
    have ported := lilvInstanceRun_shapes jack.proc output
    have shapes := changeFrom_map JalvProcessPort.shape
      (fun _ _ _ _ _ finished => PortAudio.finishPort_shape finished) finished
    refine ⟨shapes.trans ported, fun index driven => lilvInstanceRun_value output driven, lilvInstanceRun_length _ _, rfl,
      fun notices => ?_⟩
    have own : (lilvInstanceRun jack.proc output).Indexed := List.length_mapIdx.trans_le indexed
    have final : Notices (lilvInstanceRun jack.proc output) pluginToUi :=
      changeFrom_state_at (fun position port changed before after found now changes => by
        rw [Nat.zero_add] at changes
        exact PortAudio.finishPort_notices own found now changes) finished (notices.of_shapes ported)
    exact final.of_shapes ported.symm

end

end Jalv
