import Jalv.Backend.Cycle
import Jalv.Backend.Host

/-! The process callback of the PortAudio backend (`portaudio.c`), and what it sends to the
main thread compared to the one of the JACK backend.

Only running cycles are modelled. Connecting audio ports to buffers is left out, and
`none` is as for the JACK backend.
-/

set_option autoImplicit false

namespace Jalv

open Foundation

namespace PortAudio

def preProcessPort (port : JalvProcessPort) : Option JalvProcessPort :=
  if port.type = .event then do
    let evbuf ← port.evbuf
    return { port with evbuf := some (lv2EvbufReset evbuf (port.flow = .input)) }
  else some port

def finishPort (controlsBuf : List UInt32) (sendUpdates : Bool) (index : Nat) (port : JalvProcessPort)
    (pluginToUi : ZixRing) : Option (JalvProcessPort × ZixRing) :=
  if port.flow = .input ∧ port.type = .event then do
    let evbuf ← port.evbuf
    return ({ port with evbuf := some (lv2EvbufReset evbuf true) }, pluginToUi)
  else if port.flow = .output ∧ port.type = .event then do
    let evbuf ← port.evbuf
    let events ← lv2EvbufEvents evbuf
    -- Forward event to UI
    return (port, events.foldl (fun ring event => (jalvWriteEvent ring (UInt32.ofNat index) event.atom).2) pluginToUi)
  else if sendUpdates ∧ port.flow = .output ∧ port.type = .control then do
    let value ← controlsBuf[index]?
    return (port, (jalvWriteControl pluginToUi (UInt32.ofNat index) value).2)
  else some (port, pluginToUi)

def processCbBegin (jack : JackProcess) (nframes : UInt32) : Option (JalvProcessStatus × JackProcess) := do
  let ports ← jack.proc.ports.mapM preProcessPort
  let (pst, proc, uiToPlugin) ← jalvRunBegin { jack.proc with ports } jack.uiToPlugin nframes
  return (pst, { jack with proc, uiToPlugin })

def processCbEnd (pst : JalvProcessStatus) (jack : JackProcess) (nframes : UInt32) (output : PluginOutput) :
    Option JackProcess := do
  let (pst, proc) := jalvRunEnd pst jack.proc nframes output
  let (ports, pluginToUi) ← changeFrom (finishPort proc.controlsBuf (pst = .sendUpdates)) 0 proc.ports jack.pluginToUi
  return { jack with proc := { proc with ports }, pluginToUi }

def processCb (jack : JackProcess) (nframes : UInt32) (output : PluginOutput) : Option JackProcess :=
  -- If execution is paused, emit silence and return
  if jack.proc.runState = .paused then processSilent jack nframes
  else do
    let (pst, jack) ← processCbBegin jack nframes
    processCbEnd pst jack nframes output

end PortAudio

/-- A write of a message, which leaves the ring as it is when there is no space for it. -/
def attempt (ring : ZixRing) (message : UiMessage) : ZixRing := (ring.writeAll message.parts).getD ring

/-- The messages that the main thread should be sent about a port behind a running cycle: its
events in order, and the value of a control output port if it is time to send updates. -/
def outputMessages (controlsBuf : List UInt32) (sendUpdates : Bool) (index : Nat) (port : JalvProcessPort) :
    Option (List UiMessage) :=
  if port.flow = .input ∧ port.type = .event then port.evbuf.map fun _ => []
  else if port.flow = .output ∧ port.type = .event then do
    let evbuf ← port.evbuf
    let events ← lv2EvbufEvents evbuf
    return events.map fun event => .eventTransfer (UInt32.ofNat index) event.atom
  else if sendUpdates ∧ port.flow = .output ∧ port.type = .control then do
    let value ← controlsBuf[index]?
    return [.controlPortChange (UInt32.ofNat index) value]
  else some []

def JalvProcessPort.Unreadable (port : JalvProcessPort) : Prop :=
  port.type = .event ∧ (port.flow = .input ∧ port.evbuf = none ∨
    port.flow = .output ∧ port.evbuf.bind lv2EvbufEvents = none)

section

variable {controlsBuf : List UInt32} {sendUpdates : Bool} {index : Nat} {port : JalvProcessPort}

theorem jalvWriteControl_attempt (ring : ZixRing) (portIndex value : UInt32) :
    (jalvWriteControl ring portIndex value).2 = attempt ring (.controlPortChange portIndex value) := by
  rw [jalvWriteControl_eq, attempt]
  cases ring.writeAll (UiMessage.controlPortChange portIndex value).parts <;> rfl

theorem jalvWriteEvent_attempt (ring : ZixRing) (portIndex : UInt32) (atom : Atom) :
    (jalvWriteEvent ring portIndex atom).2 = attempt ring (.eventTransfer portIndex atom) := by
  rw [jalvWriteEvent_eq, attempt]
  cases ring.writeAll (UiMessage.eventTransfer portIndex atom).parts <;> rfl

theorem writeEvents_attempt (index : Nat) (events : List AtomEvent) (ring : ZixRing) :
    events.foldl (fun ring event => (jalvWriteEvent ring (UInt32.ofNat index) event.atom).2) ring =
      (events.map fun event => .eventTransfer (UInt32.ofNat index) event.atom).foldl attempt ring := by
  induction events generalizing ring with
  | nil => rfl
  | cons event rest ih => rw [List.foldl_cons, List.map_cons, List.foldl_cons, ih, jalvWriteEvent_attempt]

theorem forwardEvents_attempt (urids : JalvURIDs) (events : List AtomEvent) (state : PostState) :
    (events.foldl (forwardEvent urids index port) state).pluginToUi =
      (events.map fun event => .eventTransfer (UInt32.ofNat index) event.atom).foldl attempt state.pluginToUi := by
  induction events generalizing state with
  | nil => rfl
  | cons event rest ih =>
    rw [List.foldl_cons, List.map_cons, List.foldl_cons, ih, ← jalvWriteEvent_attempt]
    rfl

theorem PortAudio.finishPort_attempts (ring : ZixRing) :
    (PortAudio.finishPort controlsBuf sendUpdates index port ring).map (·.2) =
      (outputMessages controlsBuf sendUpdates index port).map (·.foldl attempt ring) := by
  unfold PortAudio.finishPort outputMessages
  split
  · cases port.evbuf <;> rfl
  · split
    · cases port.evbuf with
      | none => rfl
      | some evbuf =>
        simp only [Option.bind_eq_bind, Option.bind_some]
        cases lv2EvbufEvents evbuf with
        | none => rfl
        | some events => exact congrArg some (writeEvents_attempt index events ring)
    · split
      · cases controlsBuf[index]? with
        | none => rfl
        | some value => exact congrArg some (jalvWriteControl_attempt ring _ value)
      · rfl

/-- JACK attempts the messages about events only. -/
theorem finishPort_attempts (backend : JalvBackend) (state : PostState) :
    (finishPort backend controlsBuf sendUpdates index port state).map (·.2.pluginToUi) =
      (outputMessages controlsBuf false index port).map (·.foldl attempt state.pluginToUi) := by
  unfold finishPort outputMessages
  split
  · cases port.evbuf <;> rfl
  · split
    · next kind =>
      have event : ¬ (port.type = .control ∧ port.reportsLatency) := by simp [kind.2]
      rw [postProcessOutputPort, if_pos kind.1, if_neg event, if_pos kind.2]
      cases port.evbuf with
      | none => rfl
      | some evbuf =>
        simp only [Option.bind_eq_bind, Option.bind_some]
        cases lv2EvbufEvents evbuf with
        | none => rfl
        | some events => exact congrArg some (forwardEvents_attempt backend.urids events state)
    · simp

theorem outputMessages_weight (inside : index < controlsBuf.length) :
    (outputMessages controlsBuf true index port).map (fun messages => (stream UiMessage.encode messages).length) =
      (outputMessages controlsBuf false index port).map fun messages =>
        (stream UiMessage.encode messages).length + if port.flow = .output ∧ port.type = .control then 16 else 0 := by
  unfold outputMessages
  split
  · next kind => cases port.evbuf <;> simp [kind.1]
  · split
    · next kind => simp [kind.2]
    · by_cases control : port.flow = .output ∧ port.type = .control
      · simp [control, List.getElem?_eq_getElem inside, UiMessage.length_encode, UiMessage.payload, sizeofHeader]
      · simp [control]

theorem outputMessages_other (other : ¬ (port.flow = .output ∧ port.type = .control)) :
    outputMessages controlsBuf sendUpdates index port = outputMessages controlsBuf false index port := by
  have none : ¬ (sendUpdates ∧ port.flow = .output ∧ port.type = .control) := fun kind => other kind.2
  simp [outputMessages, none]

theorem outputMessages_eq_none_iff (inside : index < controlsBuf.length) :
    outputMessages controlsBuf sendUpdates index port = none ↔ port.Unreadable := by
  unfold outputMessages JalvProcessPort.Unreadable
  split
  · next kind => simp [kind.1, kind.2]
  · split
    · next kind =>
      simp only [kind.1, kind.2]
      cases port.evbuf with
      | none => simp
      | some evbuf => cases read : lv2EvbufEvents evbuf <;> simp [read]
    · split
      · next kind => simp [kind.2.2, List.getElem?_eq_getElem inside]
      · simp only [reduceCtorEq, false_iff]
        tauto

end

theorem attempt_content {ring : ZixRing} {messages : List UiMessage}
    (room : (stream UiMessage.encode messages).length ≤ ring.writeSpace) :
    (messages.foldl attempt ring).content = ring.content ++ stream UiMessage.encode messages := by
  induction messages generalizing ring with
  | nil => simp
  | cons message rest ih =>
    rw [stream_cons, List.length_append] at room
    have fits : ¬ ring.writeAll message.parts = none := by
      rw [writeAll_parts_eq_none_iff]
      omega
    obtain ⟨next, written⟩ := Option.ne_none_iff_exists'.mp fits
    obtain ⟨capacity, content, _⟩ := Sends.content written
    have left : (stream UiMessage.encode rest).length ≤ next.writeSpace := by
      rw [Fifo.writeSpace, capacity, content, List.length_append]
      rw [Fifo.writeSpace] at room
      omega
    rw [List.foldl_cons, attempt, written, Option.getD_some, ih left, content, stream_cons, List.append_assoc]

/-- A part of a cycle makes the given attempts to send messages to the main thread. -/
def Attempts (run : ZixRing → Option ZixRing) (messages : Option (List UiMessage)) : Prop :=
  ∀ ring, run ring = messages.map (·.foldl attempt ring)

-- Attempts are told apart by a ring that has space for all messages.
theorem Attempts.stream_eq {run : ZixRing → Option ZixRing} {first second : List UiMessage}
    (one : Attempts run (some first)) (other : Attempts run (some second)) :
    stream UiMessage.encode first = stream UiMessage.encode second := by
  let ring : ZixRing := Fifo.empty
    ((stream UiMessage.encode first).length + (stream UiMessage.encode second).length)
  have same : first.foldl attempt ring = second.foldl attempt ring :=
    Option.some.inj ((one ring).symm.trans (other ring))
  have contents := congrArg Fifo.content same
  rw [attempt_content (by simp [ring, Fifo.empty, Fifo.writeSpace]),
    attempt_content (by simp [ring, Fifo.empty, Fifo.writeSpace])] at contents
  simpa [ring, Fifo.empty] using contents

section

variable (backend : JalvBackend) (pst : JalvProcessStatus) (jack : JackProcess) (nframes : UInt32)
    (output : PluginOutput)

def cycleMessages (sendUpdates : Bool) : Option (List UiMessage) :=
  let proc := lilvInstanceRun jack.proc output
  collectFrom (outputMessages proc.controlsBuf sendUpdates) 0 proc.ports

def JackReports (messages : Option (List UiMessage)) : Prop :=
  Attempts (fun ring => (processCbEnd backend pst { jack with pluginToUi := ring } nframes output).map (·.1.pluginToUi))
    messages

def PortAudioReports (messages : Option (List UiMessage)) : Prop :=
  Attempts (fun ring => (PortAudio.processCbEnd pst { jack with pluginToUi := ring } nframes output).map (·.pluginToUi))
    messages

def sendsUpdates : Bool := (jalvRunEnd pst jack.proc nframes output).1 = .sendUpdates

theorem jackReports : JackReports backend pst jack nframes output (cycleMessages jack output false) := by
  intro ring
  obtain ⟨pendingFrames, frame⟩ := jalvRunEnd_frame pst jack.proc nframes output
  rcases ran : jalvRunEnd pst jack.proc nframes output with ⟨status, proc⟩
  rw [ran] at frame
  dsimp only at frame
  subst frame
  let finished := changeFrom
    (finishPort backend (lilvInstanceRun jack.proc output).controlsBuf (status = .sendUpdates)) 0
    (lilvInstanceRun jack.proc output).ports ⟨jack.proc.pluginLatency, ring, []⟩
  have loop : finished.map (·.2.pluginToUi) = (cycleMessages jack output false).map (·.foldl attempt ring) :=
    changeFrom_collectFrom PostState.pluginToUi fun _ _ => finishPort_attempts backend
  rw [← loop]
  simp only [processCbEnd, ran, Option.bind_eq_bind, Option.pure_def]
  change (finished.bind fun _ => _).map _ = _
  clear_value finished
  cases finished <;> rfl

theorem portAudioReports : PortAudioReports pst jack nframes output
    (cycleMessages jack output (sendsUpdates pst jack nframes output)) := by
  intro ring
  obtain ⟨pendingFrames, frame⟩ := jalvRunEnd_frame pst jack.proc nframes output
  rw [sendsUpdates]
  rcases ran : jalvRunEnd pst jack.proc nframes output with ⟨status, proc⟩
  rw [ran] at frame
  dsimp only at frame ⊢
  subst frame
  let finished := changeFrom
    (PortAudio.finishPort (lilvInstanceRun jack.proc output).controlsBuf (status = .sendUpdates)) 0
    (lilvInstanceRun jack.proc output).ports ring
  have loop : finished.map (·.2) = (cycleMessages jack output (status = .sendUpdates)).map (·.foldl attempt ring) :=
    changeFrom_collectFrom id fun _ _ => PortAudio.finishPort_attempts
  rw [← loop]
  simp only [PortAudio.processCbEnd, ran, Option.bind_eq_bind, Option.pure_def]
  change (finished.bind fun _ => _).map _ = _
  clear_value finished
  cases finished <;> rfl

theorem cycleMessages_weight (values : jack.proc.controlsBuf.length = jack.proc.ports.length) :
    (cycleMessages jack output true).map (fun messages => (stream UiMessage.encode messages).length) =
      (cycleMessages jack output false).map fun messages => (stream UiMessage.encode messages).length +
        ((lilvInstanceRun jack.proc output).ports.map fun port =>
          if port.flow = .output ∧ port.type = .control then 16 else 0).sum := by
  refine collectFrom_weight (by rfl) (fun first second => ?_) fun index port found => ?_
  · rw [stream_append, List.length_append]
  · refine outputMessages_weight ?_
    have inside := (List.getElem?_eq_some_iff.mp found).1
    simp only [lilvInstanceRun, List.length_mapIdx] at inside ⊢
    omega

theorem cycleMessages_eq_none_iff (values : jack.proc.controlsBuf.length = jack.proc.ports.length)
    (sendUpdates : Bool) :
    cycleMessages jack output sendUpdates = none ↔
      ∃ port ∈ (lilvInstanceRun jack.proc output).ports, port.Unreadable := by
  have inside {index : Nat} {port : JalvProcessPort}
      (found : (lilvInstanceRun jack.proc output).ports[index]? = some port) :
      0 + index < (lilvInstanceRun jack.proc output).controlsBuf.length := by
    have bound := (List.getElem?_eq_some_iff.mp found).1
    simp only [lilvInstanceRun, List.length_mapIdx] at bound ⊢
    omega
  rw [cycleMessages, collectFrom_eq_none_iff]
  constructor
  · rintro ⟨index, port, found, fails⟩
    exact ⟨port, List.mem_of_getElem? found, (outputMessages_eq_none_iff (inside found)).mp fails⟩
  · rintro ⟨port, member, unreadable⟩
    obtain ⟨index, found⟩ := List.getElem?_of_mem member
    exact ⟨index, port, found, (outputMessages_eq_none_iff (inside found)).mpr unreadable⟩

/-- Both backends attempt to send the messages about all output ports. -/
def BackendsAlike : Prop :=
  let messages := cycleMessages jack output (sendsUpdates pst jack nframes output)
  JackReports backend pst jack nframes output messages ∧ PortAudioReports pst jack nframes output messages

def JalvProcessPort.IsControlOutput (port : JalvProcessPort) : Prop := port.flow = .output ∧ port.type = .control

instance (port : JalvProcessPort) : Decidable port.IsControlOutput := inferInstanceAs (Decidable (_ ∧ _))

theorem lilvInstanceRun_controlOutput {proc : JalvProcess} :
    (∃ port ∈ (lilvInstanceRun proc output).ports, port.IsControlOutput) ↔
      ∃ port ∈ proc.ports, port.IsControlOutput := by
  have same (index : Nat) (port : JalvProcessPort) :
      (output.writePort index port).IsControlOutput ↔ port.IsControlOutput := by
    unfold PluginOutput.writePort
    split <;> rfl
  simp [lilvInstanceRun, same, List.mem_iff_getElem]

theorem cycleMessages_other (none : ∀ port ∈ jack.proc.ports, ¬ port.IsControlOutput) (sendUpdates : Bool) :
    cycleMessages jack output sendUpdates = cycleMessages jack output false := by
  refine collectFrom_congr fun index port found => outputMessages_other fun control => ?_
  obtain ⟨before, member, kind⟩ := (lilvInstanceRun_controlOutput output).mp ⟨port, List.mem_of_getElem? found, control⟩
  exact none before member kind

/-- Where all output events can be read, the backends send the same, except when it is time to
send updates and there is a control output port: then JACK leaves out its value. -/
theorem backends_alike_iff (values : jack.proc.controlsBuf.length = jack.proc.ports.length)
    (readable : ∀ port ∈ (lilvInstanceRun jack.proc output).ports, ¬ port.Unreadable) :
    BackendsAlike backend pst jack nframes output ↔
      sendsUpdates pst jack nframes output = false ∨ ∀ port ∈ jack.proc.ports, ¬ port.IsControlOutput := by
  have jackSends := jackReports backend pst jack nframes output
  have portAudioSends := portAudioReports pst jack nframes output
  cases updates : sendsUpdates pst jack nframes output with
  | false =>
    rw [updates] at portAudioSends
    simp only [BackendsAlike, updates, true_or, iff_true]
    exact ⟨jackSends, portAudioSends⟩
  | true =>
    rw [updates] at portAudioSends
    simp only [BackendsAlike, updates, portAudioSends, and_true, Bool.true_eq_false, false_or]
    constructor
    · intro reports port member control
      have defined : cycleMessages jack output false ≠ none := by
        rw [Ne, cycleMessages_eq_none_iff jack output values false]
        rintro ⟨port, member, unreadable⟩
        exact readable port member unreadable
      obtain ⟨less, sent⟩ := Option.ne_none_iff_exists'.mp defined
      have heavier := cycleMessages_weight jack output values
      rw [sent, Option.map_some] at heavier
      obtain ⟨all, expected, weight⟩ := Option.map_eq_some_iff.mp heavier
      rw [expected] at reports
      rw [sent] at jackSends
      -- The value of the port takes up space in the ring
      obtain ⟨after, behind, kind⟩ := (lilvInstanceRun_controlOutput output).mpr ⟨port, member, control⟩
      have counted : 0 < ((lilvInstanceRun jack.proc output).ports.map fun port =>
          if port.flow = .output ∧ port.type = .control then 16 else 0).sum :=
        List.sum_pos_iff_exists_pos_nat.mpr ⟨16, List.mem_map.mpr ⟨after, behind, if_pos kind⟩, by decide⟩
      rw [reports.stream_eq jackSends] at weight
      omega
    · intro none
      rw [cycleMessages_other jack output none]
      exact jackSends

end

def backendsTestJack : JackProcess where
  proc := { jalvProcessInit jackTestBackend.urids with
    ports := [⟨.control, .output, false, [], none, 0, false, false, false, false, false⟩,
      ⟨.event, .output, false, [], some (lv2EvbufNew 64 2 3 fun _ => 0), 0, false, false, false, false, false⟩]
    controlsBuf := [0, 0]
    updateFrames := 100 }
  uiToPlugin := .empty 4095
  pluginToUi := .empty 4095

def backendsTestOutput : PluginOutput := ⟨fun _ => floatOne, fun _ => 0, fun _ => 0, fun _ _ => 0⟩

theorem backendsTestJack_readable :
    ∀ port ∈ (lilvInstanceRun backendsTestJack.proc backendsTestOutput).ports, ¬ port.Unreadable := by
  intro port member
  rcases List.mem_pair.mp member with rfl | rfl
  · rintro ⟨⟨⟩, _⟩
  · rintro ⟨_, ⟨⟨⟩, _⟩ | ⟨_, ⟨⟩⟩⟩

theorem backends_alike_iff_test : BackendsAlike jackTestBackend .success backendsTestJack 64 backendsTestOutput :=
  (backends_alike_iff _ _ _ _ _ rfl backendsTestJack_readable).mpr (Or.inl (by decide))

/-- When it is time to send updates, JACK sends no value of the port. -/
theorem backends_alike_refuted :
    ¬ BackendsAlike jackTestBackend .success backendsTestJack 128 backendsTestOutput := by
  rintro ⟨reports, _⟩
  have sizes := congrArg (Option.map fun ring => ring.content.length) (reports (.empty 16))
  exact absurd sizes (by decide)

end Jalv
