import Jalv.Backend.Connections
import Jalv.Backend.Hosting
import Jalv.Backend.Outputs
import Jalv.Host.Properties

/-! The values of properties in the main thread and in a plugin (JACK).

The main thread stores the value of a property that it sets, and sends it to the plugin, which
has the last word: it may change what it was sent, and tells the main thread what it has. When
its state is restored behind its back, it is asked for everything.
-/

set_option autoImplicit false

namespace Jalv

open Foundation

/-- A message asks a plugin for a property: it sets the property, or it asks for all that there are. -/
def Atom.Asks (backend : JalvBackend) (property : URID) (atom : Atom) : Prop :=
  atom = getMessage backend.urids ∨ property ∈ (atom.changes backend.forge backend.urids).map Prod.fst

def UiMessage.Asks (backend : JalvBackend) (property : URID) : UiMessage → Prop
  | .eventTransfer _ atom => atom.Asks backend property
  | .stateRequest => True
  | .controlPortChange _ _ | .runStateChange _ => False

def messageChanges (backend : JalvBackend) (messages : List UiMessage) : List (URID × Atom) :=
  messages.flatMap (UiMessage.changes backend.forge backend.urids)

def droppedMessages : ZixRing → List UiMessage → List UiMessage
  | _, [] => []
  | ring, message :: rest =>
    if (ring.writeAll message.parts).isSome then droppedMessages (attempt ring message) rest
    else message :: droppedMessages (attempt ring message) rest

def tempoMessages (backend : JalvBackend) (expected : JalvPosition) (cycle : JackCycle) (index : Nat)
    (port : JalvProcessPort) : List UiMessage :=
  let xport := transportData backend expected cycle
  if port.type ≠ .event ∧ ¬(port.sysPort ∧ (port.type = .audio ∨ port.type = .cv)) ∧ port.isBpm ∧ xport.changed ∧
      xport.pos.bbt then
    [.controlPortChange (UInt32.ofNat index) (expectedTransport backend expected cycle).bpm]
  else []

def JackProcess.tempoMessages (backend : JalvBackend) (jack : JackProcess) (cycle : JackCycle) : List UiMessage :=
  (jack.proc.ports.mapIdx (Jalv.tempoMessages backend jack.proc.transport cycle)).flatten

/-- The program with a plugin that has properties: the messages and events on the way to it and the calls as
they are in `DeliveryState`, the values that the controls of properties were given, the messages that wait in
the ring to the main thread, whether the plugin has been restored without being asked for its properties, and
the properties of which a message got lost since the plugin told them. -/
structure PropertyRun extends JackHost where
  waiting : List UiMessage
  left : Nat → List AtomEvent
  running : Option (JalvProcessStatus × UInt32)
  calls : List (JalvProcess × (Nat → List AtomEvent))
  has : URID → Option Atom
  given : List (URID × Atom)
  pending : List UiMessage
  restored : Bool
  lost : List URID

namespace PropertyRun

def delivery (run : PropertyRun) : DeliveryState := ⟨run.jack, run.waiting, run.left, run.running, run.calls⟩

def attempts (backend : JalvBackend) (run : PropertyRun) (message : UiMessage) : PropertyRun :=
  { run with
    uiToPlugin := attempt run.uiToPlugin message
    waiting := run.waiting ++ keptMessages run.uiToPlugin [message]
    lost := run.lost ++ (messageChanges backend (droppedMessages run.uiToPlugin [message])).map Prod.fst }

inductive Asked (backend : JalvBackend) (run : PropertyRun) (property : URID) : Prop where
  | restored (unsent : run.restored = true)
  | lost (member : property ∈ run.lost)
  | waiting (message : UiMessage) (member : message ∈ run.waiting) (asks : message.Asks backend property)
  | left (index : Nat) (event : AtomEvent) (member : event ∈ run.jalv.process.inputEvents run.left index)
      (asks : event.atom.Asks backend property)
  | called (inside : run.running.isSome) (call : JalvProcess × (Nat → List AtomEvent)) (index : Nat)
      (event : AtomEvent) (last : run.calls.getLast? = some call) (member : event ∈ call.1.inputEvents call.2 index)
      (asks : event.atom.Asks backend property)

end PropertyRun

/-- What a plugin promises about each call: it tells the last value of each property that it tells, it tells the
properties that change, and those that it was asked for, if it has them. -/
structure Announces (backend : JalvBackend) (read : Nat → List AtomEvent) (told : List (URID × Atom))
    (before after : URID → Option Atom) : Prop where
  last : ∀ property ∈ told.map Prod.fst, assigned told property none = after property
  kept : ∀ property, property ∉ told.map Prod.fst → after property = before property
  answered : ∀ index, ∀ event ∈ read index, ∀ property, event.atom.Asks backend property →
    property ∈ told.map Prod.fst ∨ after property = none

structure JalvImpl.KeepsProperties (jalv next : JalvImpl) : Prop where
  setup : jalv.SameSetup next
  updating : next.updating = jalv.updating
  ids : next.controls.map Control.id = jalv.controls.map Control.id
  shown : ∀ property atom, jalv.ShowsProperty property atom → next.ShowsProperty property atom

/-- The steps with cycles of JACK. The main thread sets properties for itself, or a user interface does with an
event, it sends other messages and does other things, and it restores the state of the plugin, which may come to
have any properties, until it asks the plugin for them. -/
inductive PropertyStep (backend : JalvBackend) : PropertyRun → PropertyRun → Prop where
  | set {run : PropertyRun} {control : Control} {jalv : JalvImpl} {uiToPlugin : ZixRing} (pointer : Nat)
      (property : URID) (atom : Atom) (found : run.jalv.controls[pointer]? = some control)
      (id : control.id = .property property) (known : run.jalv.process.controlIn ≠ uint32Max)
      (fits : SetFits run.jalv atom)
      (deliverable : (UiMessage.eventTransfer run.jalv.process.controlIn
        (setMessage run.jalv property atom)).Deliverable run.jalv.process.layout)
      (set : jalvSetControl run.jalv run.uiToPlugin pointer atom = some (0, jalv, uiToPlugin)) :
      PropertyStep backend run
        { run.attempts backend (.eventTransfer run.jalv.process.controlIn (setMessage run.jalv property atom)) with
          jalv, uiToPlugin, given := run.given ++ [(property, atom)] }
  | write {run : PropertyRun} {jalv : JalvImpl} {uiToPlugin : ZixRing} (portIndex bufferSize : UInt32)
      (buffer : Memory Byte) (whole : sizeofAtom + (atomAt buffer 0).size.toNat = bufferSize.toNat)
      (complete : (atomAt buffer 0).Complete backend.forge backend.urids)
      (deliverable : (UiMessage.eventTransfer portIndex (atomAt buffer 0)).Deliverable run.jalv.process.layout)
      (wrote : jalvSendToPlugin run.jalv run.uiToPlugin portIndex bufferSize run.jalv.urids.atomEventTransfer buffer =
        some (jalv, uiToPlugin)) :
      PropertyStep backend run
        { run.attempts backend (.eventTransfer portIndex (atomAt buffer 0)) with
          jalv, uiToPlugin, given := run.given ++ (atomAt buffer 0).changes backend.forge backend.urids }
  | send {run : PropertyRun} (message : UiMessage) (deliverable : message.Deliverable run.jalv.process.layout) :
      PropertyStep backend run (run.attempts backend message)
  | main {run : PropertyRun} (jalv : JalvImpl) (keeps : run.jalv.KeepsProperties jalv) :
      PropertyStep backend run { run with jalv }
  -- `jalv_activate` and `jalv_deactivate`
  | activate {run : PropertyRun} (runState : JalvRunState) (idle : run.running = none) :
      PropertyStep backend run { run with jalv := { run.jalv with process := { run.jalv.process with runState } } }
  | restore {run : PropertyRun} (has : URID → Option Atom) :
      PropertyStep backend run { run with has, restored := true }
  | request {run : PropertyRun} {uiToPlugin : ZixRing} (known : run.jalv.process.controlIn ≠ uint32Max)
      (sent : Sends run.uiToPlugin uiToPlugin .stateRequest) :
      PropertyStep backend run { run with uiToPlugin, waiting := run.waiting ++ [.stateRequest], restored := false }
  | update {run : PropertyRun} {status : UpdateStatus} {jalv : JalvImpl} {pluginToUi : ZixRing}
      (updated : jalvUpdate run.jalv run.pluginToUi = some (status, jalv, pluginToUi)) :
      PropertyStep backend run
        { run with jalv, pluginToUi, given := run.given ++ messageChanges backend run.pending, pending := [] }
  | paused {run : PropertyRun} {jack : JackProcess} (nframes : UInt32) (idle : run.running = none)
      (paused : run.jalv.process.runState = .paused) (room : run.jalv.process.Room (run.delivery.kept nframes))
      (done : processSilent run.jack nframes = some jack) :
      PropertyStep backend run
        { run with toJackHost := run.processed jack, waiting := [], left := run.delivery.kept nframes }
  | run {run : PropertyRun} {jack : JackProcess} {pst : JalvProcessStatus} (cycle : JackCycle)
      (idle : run.running = none) (running : run.jalv.process.runState = .running)
      (room : run.jalv.process.Room (run.delivery.expected backend cycle))
      (separate : run.delivery.Separate backend cycle)
      (begun : processCbBegin backend run.jack cycle = some (pst, jack)) :
      PropertyStep backend run
        { run with
          toJackHost := run.processed jack, waiting := [], left := fun _ => []
          running := some (pst, cycle.nframes)
          calls := run.calls ++ [(jack.proc, run.delivery.expected backend cycle)]
          pending := run.pending ++ keptMessages run.pluginToUi (run.jack.tempoMessages backend cycle) }
  | finish {run : PropertyRun} {jack : JackProcess} {pst : JalvProcessStatus} {nframes : UInt32}
      {midi : List (Nat × JackMidiEvent)} {messages : List UiMessage} (output : PluginOutput)
      (has : URID → Option Atom) (inside : run.running = some (pst, nframes))
      (reports : cycleMessages run.jack output false = some messages)
      (complete : ∀ index atom, UiMessage.eventTransfer index atom ∈ messages →
        atom.Complete backend.forge backend.urids)
      (announces : Announces backend run.jalv.process.readEvents (messageChanges backend messages) run.has has)
      (done : processCbEnd backend pst run.jack nframes output = some (jack, midi)) :
      PropertyStep backend run
        { run with
          toJackHost := run.processed jack, running := none, has
          pending := run.pending ++ keptMessages run.pluginToUi messages
          lost := run.lost.filter (· ∉ (messageChanges backend messages).map Prod.fst) ++
            (messageChanges backend (droppedMessages run.pluginToUi messages)).map Prod.fst }

def JalvImpl.registered (jalv : JalvImpl) (registers : Nat → Bool) : JalvImpl :=
  { jalv with process := { jalv.process with
      ports := jalv.process.ports.mapIdx fun index => JalvProcessPort.backendActivatePort (registers index) } }

/-- Runs that begin when a plugin has been opened whose control ports come first, with empty rings. -/
def propertySystem (backend : JalvBackend) : TransitionSystem PropertyRun where
  initial run := ∃ plugin midiBufSize updateFrames contents message jalv opened toPlugin toUi, ∃ registers : Nat → Bool,
    plugin.ControlPortsFirst ∧ jalv.controls = [] ∧ jalv.forge.float ≠ jalv.forge.double ∧
      plugin.defaults.length = plugin.ports.length ∧ jalv.forge = backend.forge ∧ jalv.urids = backend.urids ∧
      jalv.process = jalvProcessInit backend.urids ∧
      jalvOpen plugin midiBufSize updateFrames contents message jalv = some (.ok opened) ∧
      run.jalv = opened.registered registers ∧ run.jalv.updating = false ∧
      run.uiToPlugin = .empty toPlugin ∧ toPlugin < 2 ^ 32 ∧ run.pluginToUi = .empty toUi ∧ toUi < 2 ^ 32 ∧
      run.waiting = [] ∧ run.left = (fun _ => []) ∧ run.running = none ∧ run.calls = [] ∧ run.given = [] ∧
      run.pending = [] ∧ run.lost = []
  step := PropertyStep backend

/-- The control of a property shows what it was given last, and that is what the plugin has, once all that is on
the way for the property has arrived. -/
structure PropertyRun.Agrees (backend : JalvBackend) (run : PropertyRun) : Prop where
  shown : ∀ property atom, (getPropertyControl run.jalv.controls property).isSome →
    assigned run.given property none = some atom → run.jalv.ShowsProperty property atom
  settled : ∀ property value, ¬run.Asked backend property →
    property ∉ (messageChanges backend run.pending).map Prod.fst → property ∈ run.given.map Prod.fst →
    (getPropertyControl run.jalv.controls property).isSome → run.has property = some value →
      run.jalv.ShowsProperty property value

structure JalvImpl.Established (backend : JalvBackend) (jalv : JalvImpl) : Prop where
  urids : jalv.urids = backend.urids
  forge : jalv.forge = backend.forge
  getMsg : jalv.process.getMsg = getMessage backend.urids
  ports : jalv.process.ports.length = jalv.ports.length
  indexed : jalv.process.Indexed
  tempo : ∀ (index : Nat) (port : JalvProcessPort) (control : Control), jalv.process.ports[index]? = some port →
    port.isBpm = true → jalv.controls[index]? = some control → ∃ portIndex, control.id = .port portIndex

structure PropertyRun.Sound (backend : JalvBackend) (run : PropertyRun) : Prop where
  calling : run.delivery.Calling
  established : run.jalv.Established backend
  updating : run.jalv.updating = false
  small : run.pluginToUi.capacity < 2 ^ 32
  content : run.pluginToUi.content = stream UiMessage.encode run.pending
  heard : ∀ message ∈ run.pending, message.Heard run.jalv
  shown : ∀ key, run.jalv.ShowsLast run.given key
  reconciled : Reconciled run.given (messageChanges backend run.pending) (run.Asked backend) run.has

section

variable {backend : JalvBackend} {ring : ZixRing} {message : UiMessage} {messages : List UiMessage} {property : URID}

theorem messageChanges_append (first second : List UiMessage) :
    messageChanges backend (first ++ second) = messageChanges backend first ++ messageChanges backend second :=
  List.flatMap_append

/-- Apart from the properties of messages that are dropped, those that are kept change the same as all. -/
theorem keptMessages_changes (ring : ZixRing)
    (other : property ∉ (messageChanges backend (droppedMessages ring messages)).map Prod.fst) :
    (∀ before, assigned (messageChanges backend messages) property before =
      assigned (messageChanges backend (keptMessages ring messages)) property before) ∧
    (property ∈ (messageChanges backend messages).map Prod.fst ↔
      property ∈ (messageChanges backend (keptMessages ring messages)).map Prod.fst) := by
  induction messages generalizing ring with
  | nil => exact ⟨fun _ => rfl, Iff.rfl⟩
  | cons message rest ih =>
    have whole (list : List UiMessage) : messageChanges backend (message :: list) =
        message.changes backend.forge backend.urids ++ messageChanges backend list := rfl
    unfold droppedMessages at other
    unfold keptMessages
    split at other
    · next fits =>
      obtain ⟨values, keys⟩ := ih _ other
      rw [if_pos fits, whole, whole, List.map_append, List.map_append]
      refine ⟨fun before => ?_, by rw [List.mem_append, List.mem_append, keys]⟩
      rw [assigned_append, assigned_append, values]
    · next full =>
      rw [whole, List.map_append, List.mem_append, not_or] at other
      obtain ⟨values, keys⟩ := ih _ other.2
      rw [if_neg full, whole, List.map_append]
      refine ⟨fun before => ?_, by rw [List.mem_append, keys, or_iff_right other.1]⟩
      rw [assigned_append, assigned_of_not_mem other.1, values]

theorem attempt_cases (ring : ZixRing) (message : UiMessage) :
    keptMessages ring [message] = [message] ∧ droppedMessages ring [message] = [] ∧
        Sends ring (attempt ring message) message ∨
      keptMessages ring [message] = [] ∧ droppedMessages ring [message] = [message] ∧ attempt ring message = ring := by
  cases written : ring.writeAll message.parts with
  | none => exact Or.inr (by simp [keptMessages, droppedMessages, attempt, written])
  | some next => exact Or.inl (by simp [keptMessages, droppedMessages, attempt, written, Sends])

theorem UiMessage.asks_of_changes
    (member : property ∈ (message.changes backend.forge backend.urids).map Prod.fst) :
    message.Asks backend property := by
  cases message with
  | eventTransfer => exact Or.inr member
  | controlPortChange | stateRequest | runStateChange => cases member

end

section

variable {backend : JalvBackend} {jack next : JackProcess} {cycle : JackCycle} {pst : JalvProcessStatus}
  {nframes : UInt32} {output : PluginOutput} {proc after : JalvProcess}

theorem applyUiEvents_getMsg {ring rest : ZixRing} {status : JalvProcessStatus}
    (applied : applyUiEvents proc ring nframes = some (status, after, rest)) : after.getMsg = proc.getMsg := by
  let kept (after : JalvProcess) : Prop := after.getMsg = proc.getMsg
  refine applyUiEvents_invariant (fun _ _ same => same) (fun before message after (same : kept before) effect => ?_)
    applied (rfl : kept proc)
  obtain ⟨_, _, _, _, rfl⟩ := effect.frame
  exact same

theorem processSilent_applies (done : processSilent jack nframes = some next) :
    ∃ status, applyUiEvents jack.proc jack.uiToPlugin nframes = some (status, next.proc, next.uiToPlugin) := by
  obtain ⟨⟨proc, uiToPlugin⟩, bypassed, same⟩ := Option.bind_eq_some_iff.mp done
  obtain ⟨⟨status, after, left⟩, applied, parts⟩ := Option.map_eq_some_iff.mp bypassed
  cases same
  cases parts
  exact ⟨status, applied⟩

theorem processCbBegin_getMsg (begun : processCbBegin backend jack cycle = some (pst, next)) :
    next.proc.getMsg = jack.proc.getMsg := by
  obtain ⟨ports, state, _, applied, _⟩ := processCbBegin_eq_some_iff.mp begun
  have kept : next.proc.getMsg = (jack.prepared backend cycle ports state).getMsg := applyUiEvents_getMsg applied
  exact kept

theorem processCbEnd_getMsg {midi : List (Nat × JackMidiEvent)}
    (done : processCbEnd backend pst jack nframes output = some (next, midi)) :
    next.proc.getMsg = jack.proc.getMsg := by
  obtain ⟨_, _, _, _, _, rfl⟩ := processCbEnd_cases done
  rfl

theorem preProcessPort_tempo {before after : PreState} {expected : JalvPosition} {index : Nat}
    {port changed : JalvProcessPort}
    (prepared : preProcessPort backend (transportData backend expected cycle)
      (expectedTransport backend expected cycle).bpm cycle.midi index port before = some (changed, after)) :
    after.pluginToUi = (tempoMessages backend expected cycle index port).foldl attempt before.pluginToUi := by
  unfold preProcessPort at prepared
  unfold tempoMessages
  split at prepared
  · next system =>
    cases prepared
    rw [if_neg fun tempo => tempo.2.1 system]
    rfl
  · next other =>
    split at prepared
    · next event =>
      obtain ⟨_, _, same⟩ := Option.bind_eq_some_iff.mp prepared
      cases same
      rw [if_neg fun tempo => tempo.1 event.1]
      rfl
    · split at prepared
      · next event =>
        obtain ⟨_, _, same⟩ := Option.bind_eq_some_iff.mp prepared
        cases same
        rw [if_neg fun tempo => tempo.1 event]
        rfl
      · next plain =>
        split at prepared
        · next tempo =>
          split at prepared
          · cases prepared
            rw [if_pos ⟨plain, other, tempo⟩]
            exact jalvWriteControl_attempt before.pluginToUi _ _
          · cases prepared
        · next still =>
          cases prepared
          rw [if_neg fun tempo => still tempo.2.2]
          rfl

theorem processCbBegin_tempo (begun : processCbBegin backend jack cycle = some (pst, next)) :
    next.pluginToUi = (jack.tempoMessages backend cycle).foldl attempt jack.pluginToUi := by
  obtain ⟨ports, state, prepared, _, ring⟩ := processCbBegin_eq_some_iff.mp begun
  let messages := tempoMessages backend jack.proc.transport cycle
  have traced : state.pluginToUi =
      (jack.proc.ports.mapIdx fun index port => messages (0 + index) port).flatten.foldl attempt jack.pluginToUi :=
    changeFrom_trace messages PreState.pluginToUi (fun _ _ _ _ _ prepares => preProcessPort_tempo prepares) prepared
  simp only [Nat.zero_add] at traced
  exact ring.trans traced

theorem mem_tempoMessages {message : UiMessage} (member : message ∈ jack.tempoMessages backend cycle) :
    ∃ index port bpm, jack.proc.ports[index]? = some port ∧ port.isBpm = true ∧
      message = .controlPortChange (UInt32.ofNat index) bpm := by
  obtain ⟨part, among, inside⟩ := List.mem_flatten.mp member
  obtain ⟨index, bound, rfl⟩ := List.mem_mapIdx.mp among
  unfold tempoMessages at inside
  dsimp only at inside
  split at inside
  · next tempo => exact ⟨index, _, _, List.getElem?_eq_getElem bound, tempo.2.2.1, List.mem_singleton.mp inside⟩
  · cases inside

theorem cycleMessages_events {messages : List UiMessage} {message : UiMessage}
    (reports : cycleMessages jack output false = some messages) (member : message ∈ messages) :
    ∃ index atom, message = .eventTransfer index atom := by
  obtain ⟨index, port, traced, _, reported, inside⟩ := mem_collectFrom reports member
  unfold outputMessages at reported
  split at reported
  · obtain ⟨_, _, rfl⟩ := Option.map_eq_some_iff.mp reported
    cases inside
  · split at reported
    · obtain ⟨evbuf, _, more⟩ := Option.bind_eq_some_iff.mp reported
      obtain ⟨events, _, same⟩ := Option.bind_eq_some_iff.mp more
      cases same
      obtain ⟨event, _, rfl⟩ := List.mem_map.mp inside
      exact ⟨_, _, rfl⟩
    · rw [if_neg (by simp), Option.some.injEq] at reported
      subst reported
      cases inside

theorem jackFinished_ring {midi : List (Nat × JackMidiEvent)} {messages : List UiMessage}
    (reports : cycleMessages jack output false = some messages)
    (done : processCbEnd backend pst jack nframes output = some (next, midi)) :
    next.pluginToUi = messages.foldl attempt jack.pluginToUi := by
  have attempts := jackReports backend pst jack nframes output jack.pluginToUi
  rw [reports] at attempts
  simp only [done, Option.map_some, Option.some.injEq] at attempts
  exact attempts

end

section

variable {backend : JalvBackend} {jalv next : JalvImpl} {given : List (URID × Atom)}

/-- The controls of properties show what is told about the properties in some messages. -/
theorem handleMessages_properties {messages : List UiMessage} (heard : ∀ message ∈ messages, message.Heard jalv)
    (shown : ∀ key, jalv.ShowsLast given key) (handled : messages.foldlM handleMessage jalv = some next) (key : URID) :
    next.ShowsLast (given ++ messages.flatMap (UiMessage.changes jalv.forge jalv.urids)) key := by
  induction messages generalizing jalv given with
  | nil =>
    rw [List.foldlM_nil, Option.pure_def, Option.some.injEq] at handled
    subst handled
    rw [List.flatMap_nil, List.append_nil]
    exact shown key
  | cons message rest ih =>
    rw [List.foldlM_cons] at handled
    obtain ⟨middle, first, others⟩ := Option.bind_eq_some_iff.mp handled
    obtain ⟨own, remaining⟩ := List.forall_mem_cons.mp heard
    have sets := handleMessage_sets first
    have setup := sets.setup
    have final := ih (fun message member => (remaining message member).congr setup.urids setup.forge sets.ids)
      (handleMessage_properties own shown first) others
    rwa [setup.urids, setup.forge, List.append_assoc] at final

theorem JalvImpl.Established.setup (established : jalv.Established backend) (setup : jalv.SameSetup next)
    (ids : next.controls.map Control.id = jalv.controls.map Control.id) : next.Established backend where
  urids := setup.urids.trans established.urids
  forge := setup.forge.trans established.forge
  getMsg := by rw [setup.process, established.getMsg]
  ports := by rw [setup.process, setup.ports, established.ports]
  indexed := setup.process ▸ established.indexed
  tempo index port control found bpm here := by
    rw [setup.process] at found
    obtain ⟨before, there, id⟩ := control_of_ids ids here
    rw [← id]
    exact established.tempo index port before found bpm there

theorem JalvImpl.Established.processed {process : JalvProcess} (established : jalv.Established backend)
    (shapes : process.shapes = jalv.process.shapes) (getMsg : process.getMsg = jalv.process.getMsg) :
    JalvImpl.Established backend { jalv with process } where
  urids := established.urids
  forge := established.forge
  getMsg := getMsg.trans established.getMsg
  ports := (JalvProcess.length_of_shapes shapes).trans established.ports
  indexed := (JalvProcess.length_of_shapes shapes).trans_le established.indexed
  tempo index port control found bpm here := by
    obtain ⟨before, there, shape⟩ := JalvProcess.shape_at shapes found
    exact established.tempo index before control there ((congrArg PortShape.isBpm shape).symm.trans bpm) here

theorem JalvImpl.Established.inside {index : Nat} (established : jalv.Established backend)
    (input : jalv.process.layout.EventInput index) : index < jalv.ports.length := by
  obtain ⟨port, _, found, _⟩ := input.port
  obtain ⟨inside, _⟩ := List.getElem?_eq_some_iff.mp found
  exact established.ports ▸ inside

/-- A user interface writes an event to the plugin, and the controls of its properties show what it says. -/
theorem jalvSendToPlugin_properties {ring after : ZixRing} {portIndex bufferSize : UInt32} {buffer : Memory Byte}
    (inside : portIndex.toNat < jalv.ports.length)
    (whole : sizeofAtom + (atomAt buffer 0).size.toNat = bufferSize.toNat)
    (complete : (atomAt buffer 0).Complete jalv.forge jalv.urids) (shown : ∀ key, jalv.ShowsLast given key)
    (wrote : jalvSendToPlugin jalv ring portIndex bufferSize jalv.urids.atomEventTransfer buffer = some (next, after)) :
    (∀ key, next.ShowsLast (given ++ (atomAt buffer 0).changes jalv.forge jalv.urids) key) ∧
      after = attempt ring (.eventTransfer portIndex (atomAt buffer 0)) ∧ jalv.SetsValues next := by
  unfold jalvSendToPlugin at wrote
  rw [if_neg (Nat.not_le.mpr inside), if_neg jalv.urids.transferNonzero, if_pos rfl] at wrote
  obtain ⟨middle, changed, rest⟩ := Option.bind_eq_some_iff.mp wrote
  have fits : ¬(bufferSize.toNat < sizeofAtom ∨ sizeofAtom + (atomAt buffer 0).size.toNat ≠ bufferSize.toNat) := by
    omega
  rw [if_neg fits] at rest
  cases rest
  exact ⟨changeProperties_shows jalv complete rfl shown changed, jalvWriteEvent_attempt ring portIndex _,
    changeProperties_sets changed⟩

end

section

variable {backend : JalvBackend} {proc : JalvProcess} {index : Nat} {event : AtomEvent} {message : UiMessage}
  {property : URID}

theorem JalvProcess.mem_inputEvents {events : Nat → List AtomEvent} :
    event ∈ proc.inputEvents events index ↔ proc.kinds[index]? = some (.event, .input) ∧ event ∈ events index := by
  unfold inputEvents
  rw [kinds, List.getElem?_map]
  cases found : proc.ports[index]? with
  | none => simp
  | some port =>
    by_cases input : port.type = .event ∧ port.flow = .input
    · simp [input, JalvProcessPort.kind]
    · simp only [if_neg input, List.not_mem_nil, Option.map_some, Option.some.injEq, false_iff, not_and]
      exact fun kind => absurd (Prod.mk.inj kind) input

theorem ProcessLayout.EventInput.kind (input : proc.layout.EventInput index) :
    proc.kinds[index]? = some (.event, .input) := by
  obtain ⟨port, _, found, event, flow, _⟩ := input.port
  rw [JalvProcess.kinds, List.getElem?_map, found, Option.map_some, JalvProcessPort.kind, event, flow]

/-- A message that asks for a property becomes an event that does, at an event input. -/
theorem UiMessage.Asks.becomes (asks : message.Asks backend property) (deliverable : message.Deliverable proc.layout)
    (prepared : proc.layout.Prepared) (getMsg : proc.getMsg = getMessage backend.urids) (nframes : UInt32) :
    ∃ index event, proc.kinds[index]? = some (.event, .input) ∧ event ∈ message.events proc nframes index ∧
      event.atom.Asks backend property := by
  cases message with
  | eventTransfer portIndex atom =>
    refine ⟨portIndex.toNat, ⟨nframes, atom⟩, deliverable.1.kind, ?_, asks⟩
    rw [UiMessage.events, if_pos rfl]
    exact List.mem_singleton_self _
  | stateRequest =>
    refine ⟨proc.controlIn.toNat, ⟨nframes, proc.getMsg⟩, (prepared.control deliverable).kind, ?_, Or.inl getMsg⟩
    rw [UiMessage.events, if_pos rfl]
    exact List.mem_singleton_self _
  | controlPortChange | runStateChange => exact asks.elim

variable {run : PropertyRun}

namespace PropertyRun

theorem Asked.outside {jalv : JalvImpl} {uiToPlugin pluginToUi : ZixRing} {given : List (URID × Atom)}
    {pending : List UiMessage} {has : URID → Option Atom} (asked : run.Asked backend property)
    (process : jalv.process = run.jalv.process) :
    Asked backend { run with jalv, uiToPlugin, pluginToUi, given, pending, has } property := by
  cases asked with
  | restored unsent => exact .restored unsent
  | lost member => exact .lost member
  | waiting message member asks => exact .waiting message member asks
  | left index event member asks => exact .left index event (by rw [process]; exact member) asks
  | called inside call index event last member asks => exact .called inside call index event last member asks

theorem Asked.attempts (asked : run.Asked backend property) (message : UiMessage) :
    (run.attempts backend message).Asked backend property := by
  cases asked with
  | restored unsent => exact .restored unsent
  | lost member => exact .lost (List.mem_append_left _ member)
  | waiting message member asks => exact .waiting message (List.mem_append_left _ member) asks
  | left index event member asks => exact .left index event member asks
  | called inside call index event last member asks => exact .called inside call index event last member asks

/-- A message that is sent asks for the properties that it sets, and a message that is lost leaves them open. -/
theorem attempts_asks (run : PropertyRun)
    (member : property ∈ (message.changes backend.forge backend.urids).map Prod.fst) :
    (run.attempts backend message).Asked backend property := by
  rcases attempt_cases run.uiToPlugin message with ⟨kept, _⟩ | ⟨_, dropped, _⟩
  · refine .waiting message ?_ (UiMessage.asks_of_changes member)
    rw [PropertyRun.attempts, kept]
    exact List.mem_append_right _ (List.mem_singleton_self _)
  · refine .lost ?_
    rw [PropertyRun.attempts, dropped]
    have single : messageChanges backend [message] = message.changes backend.forge backend.urids :=
      List.flatMap_singleton ..
    exact List.mem_append_right _ (by rw [single]; exact member)

end PropertyRun

theorem DeliveryState.Calling.attempt {state : DeliveryState} (calling : state.Calling) (backend : JalvBackend)
    (deliverable : message.Deliverable state.jack.proc.layout) :
    ({ state with
      jack := { state.jack with uiToPlugin := Jalv.attempt state.jack.uiToPlugin message }
      waiting := state.waiting ++ keptMessages state.jack.uiToPlugin [message] } : DeliveryState).Calling := by
  rcases attempt_cases state.jack.uiToPlugin message with ⟨kept, _, sent⟩ | ⟨kept, _, same⟩
  · rw [kept]
    have step : DeliveryStep backend (DeliveryState.Separate backend) state _ := .send message deliverable sent
    exact step.calling calling
  · rw [kept, same, List.append_nil]
    exact calling

end

namespace PropertyRun

variable {backend : JalvBackend} {run next : PropertyRun} {message : UiMessage} {entries : List (URID × Atom)}

theorem Sound.shows (sound : run.Sound backend) {jalv : JalvImpl}
    (ids : jalv.controls.map Control.id = run.jalv.controls.map Control.id)
    (shown : ∀ property atom, run.jalv.ShowsProperty property atom → jalv.ShowsProperty property atom) (key : URID) :
    jalv.ShowsLast run.given key := by
  intro atom known last
  rw [getPropertyControl_ids ids] at known
  exact shown key atom (sound.shown key atom known last)

/-- The main thread attempts to send a message, and gives some properties values that the message has as well. -/
theorem Sound.attempt {jalv : JalvImpl} (sound : run.Sound backend)
    (deliverable : message.Deliverable run.jalv.process.layout) (sets : run.jalv.SetsValues jalv)
    (updating : jalv.updating = false) (shown : ∀ key, jalv.ShowsLast (run.given ++ entries) key)
    (asks : ∀ key ∈ entries.map Prod.fst, key ∈ (message.changes backend.forge backend.urids).map Prod.fst) :
    Sound backend { run.attempts backend message with jalv, given := run.given ++ entries } where
  calling := by
    have same : PropertyRun.delivery { run.attempts backend message with jalv, given := run.given ++ entries } =
        (run.attempts backend message).delivery := by
      simp only [delivery, JackHost.jack, sets.setup.process]
      rfl
    rw [same]
    exact sound.calling.attempt backend deliverable
  established := sound.established.setup sets.setup sets.ids
  updating
  small := sound.small
  content := sound.content
  heard message member := (sound.heard message member).congr sets.setup.urids sets.setup.forge sets.ids
  shown
  reconciled := by
    refine sound.reconciled.ask (fun key asked => ?_) fun key member => ?_
    · exact (asked.attempts message).outside sets.setup.process
    · exact (attempts_asks run (asks key member)).outside sets.setup.process

theorem Sound.set {control : Control} {jalv : JalvImpl} {uiToPlugin : ZixRing} {pointer : Nat} {property : URID}
    {atom : Atom} (sound : run.Sound backend) (found : run.jalv.controls[pointer]? = some control)
    (id : control.id = .property property) (known : run.jalv.process.controlIn ≠ uint32Max)
    (fits : SetFits run.jalv atom)
    (deliverable : (UiMessage.eventTransfer run.jalv.process.controlIn
      (setMessage run.jalv property atom)).Deliverable run.jalv.process.layout)
    (set : jalvSetControl run.jalv run.uiToPlugin pointer atom = some (0, jalv, uiToPlugin)) :
    Sound backend
      { run.attempts backend (.eventTransfer run.jalv.process.controlIn (setMessage run.jalv property atom)) with
        jalv, uiToPlugin, given := run.given ++ [(property, atom)] } := by
  have established := sound.established
  have inside := established.inside deliverable.1
  obtain ⟨shown, wrote⟩ := jalvSetControl_property_shows found id sound.updating known inside fits sound.shown set
  rw [jalvWriteEvent_attempt] at wrote
  subst wrote
  have changes : (setMessage run.jalv property atom).changes run.jalv.forge run.jalv.urids = [(property, atom)] :=
    setMessage_changes fits
  rw [established.urids, established.forge] at changes
  exact sound.attempt deliverable (jalvSetControl_writes set).1
    ((jalvSetControl_keepsPorts found id set).updating.trans sound.updating) shown
    fun key member => by rw [UiMessage.changes, changes]; exact member

theorem Sound.write {jalv : JalvImpl} {uiToPlugin : ZixRing} {portIndex bufferSize : UInt32} {buffer : Memory Byte}
    (sound : run.Sound backend) (whole : sizeofAtom + (atomAt buffer 0).size.toNat = bufferSize.toNat)
    (complete : (atomAt buffer 0).Complete backend.forge backend.urids)
    (deliverable : (UiMessage.eventTransfer portIndex (atomAt buffer 0)).Deliverable run.jalv.process.layout)
    (wrote : jalvSendToPlugin run.jalv run.uiToPlugin portIndex bufferSize run.jalv.urids.atomEventTransfer buffer =
      some (jalv, uiToPlugin)) :
    Sound backend
      { run.attempts backend (.eventTransfer portIndex (atomAt buffer 0)) with
        jalv, uiToPlugin, given := run.given ++ (atomAt buffer 0).changes backend.forge backend.urids } := by
  have established := sound.established
  have inside := established.inside deliverable.1
  obtain ⟨shown, rfl, sets⟩ := jalvSendToPlugin_properties inside whole
    (by rw [established.forge, established.urids]; exact complete) sound.shown wrote
  rw [established.forge, established.urids] at shown
  exact sound.attempt deliverable sets ((jalvSendToPlugin_keepsPorts wrote).updating.trans sound.updating) shown
    fun key member => member

theorem Sound.main {jalv : JalvImpl} (sound : run.Sound backend) (keeps : run.jalv.KeepsProperties jalv) :
    Sound backend { run with jalv } where
  calling := by
    have same : PropertyRun.delivery { run with jalv } = run.delivery := by
      simp only [delivery, JackHost.jack, keeps.setup.process]
    rw [same]
    exact sound.calling
  established := sound.established.setup keeps.setup keeps.ids
  updating := keeps.updating.trans sound.updating
  small := sound.small
  content := sound.content
  heard message member := (sound.heard message member).congr keeps.setup.urids keeps.setup.forge keeps.ids
  shown := sound.shows keeps.ids keeps.shown
  reconciled := sound.reconciled.mono fun _ asked => asked.outside keeps.setup.process

theorem Sound.activate (sound : run.Sound backend) (runState : JalvRunState) (idle : run.running = none) :
    Sound backend { run with jalv := { run.jalv with process := { run.jalv.process with runState } } } where
  calling := by
    have served := sound.calling.served
    exact ⟨⟨served.prepared, served.buffered, served.small, served.content, served.deliverable, served.queues,
      served.cleared, served.delivered⟩, fun inside => absurd idle inside⟩
  established := sound.established.processed rfl rfl
  updating := sound.updating
  small := sound.small
  content := sound.content
  heard message member := (sound.heard message member).congr rfl rfl rfl
  shown := sound.shows rfl fun _ _ shown => shown
  reconciled := by
    refine sound.reconciled.mono fun key asked => ?_
    cases asked with
    | restored unsent => exact .restored unsent
    | lost member => exact .lost member
    | waiting message member asks => exact .waiting message member asks
    | left index event member asks => exact .left index event member asks
    | called inside call index event last member asks => exact .called inside call index event last member asks

theorem Sound.restore (sound : run.Sound backend) (has : URID → Option Atom) :
    Sound backend { run with has, restored := true } :=
  { sound with reconciled := .of_all (fun _ => .restored rfl) _ _ _ }

theorem Sound.request {uiToPlugin : ZixRing} (sound : run.Sound backend)
    (known : run.jalv.process.controlIn ≠ uint32Max) (sent : Sends run.uiToPlugin uiToPlugin .stateRequest) :
    Sound backend { run with uiToPlugin, waiting := run.waiting ++ [.stateRequest], restored := false } :=
  { sound with
    calling := by
      have step : DeliveryStep backend (DeliveryState.Separate backend) run.delivery _ := .send .stateRequest known sent
      exact step.calling sound.calling
    reconciled := by
      refine .of_all (fun key => .waiting .stateRequest ?_ trivial) _ _ _
      exact List.mem_append_right _ (List.mem_singleton_self _) }

theorem Sound.forUi (sound : run.Sound backend) : ∀ message ∈ run.pending, message.ForUi := by
  intro message member
  have heard := sound.heard message member
  cases message with
  | controlPortChange | eventTransfer => trivial
  | stateRequest | runStateChange => exact heard.elim

theorem Sound.update {status : UpdateStatus} {jalv : JalvImpl} {pluginToUi : ZixRing} (sound : run.Sound backend)
    (updated : jalvUpdate run.jalv run.pluginToUi = some (status, jalv, pluginToUi)) :
    Sound backend
      { run with jalv, pluginToUi, given := run.given ++ messageChanges backend run.pending, pending := [] } := by
  have sets := jalvUpdate_sets updated
  obtain ⟨capacity, empty, last, handled, rfl⟩ := jalvUpdate_messages sound.content sound.small sound.forUi updated
  let began := { run.jalv with updating := true }
  have heard (message : UiMessage) (member : message ∈ run.pending) : message.Heard began :=
    (sound.heard message member).congr rfl rfl rfl
  have shown := handleMessages_properties heard sound.shown handled
  constructor
  · have same : PropertyRun.delivery { run with
        jalv := { last with updating := false }, pluginToUi
        given := run.given ++ messageChanges backend run.pending, pending := [] } =
        { run.delivery with jack := { run.jack with pluginToUi } } := by
      simp only [delivery, JackHost.jack]
      rw [sets.setup.process]
    rw [same]
    have step : DeliveryStep backend (DeliveryState.Separate backend) run.delivery _ := .update pluginToUi
    exact step.calling sound.calling
  · exact sound.established.setup sets.setup sets.ids
  · rfl
  · exact capacity ▸ sound.small
  · exact empty
  · exact fun _ member => by cases member
  · rw [show began.forge = backend.forge from sound.established.forge,
      show began.urids = backend.urids from sound.established.urids] at shown
    exact shown
  · have before := sound.reconciled
    rw [← List.append_nil (messageChanges backend run.pending)] at before
    exact before.receive.mono fun _ asked => asked.outside sets.setup.process

/-- Between the calls of the plugin, a property that is asked for is so by an event that waits to be read, or the
plugin does not know of it. -/
theorem Sound.underway {property : URID} (sound : run.Sound backend) (idle : run.running = none)
    (asked : run.Asked backend property) (nframes : UInt32) :
    run.restored = true ∨ property ∈ run.lost ∨
      ∃ index event, run.jalv.process.kinds[index]? = some (.event, .input) ∧
        (event ∈ run.left index ∨ event ∈ uiEvents run.jack.proc nframes run.waiting index) ∧
        event.atom.Asks backend property := by
  cases asked with
  | restored unsent => exact Or.inl unsent
  | lost member => exact Or.inr (Or.inl member)
  | waiting message member asks =>
    obtain ⟨index, event, input, inside, asks⟩ := asks.becomes (sound.calling.served.deliverable message member)
      sound.calling.served.prepared sound.established.getMsg nframes
    exact Or.inr (Or.inr ⟨index, event, input, Or.inr (List.mem_flatMap.mpr ⟨message, member, inside⟩), asks⟩)
  | left index event member asks =>
    obtain ⟨input, inside⟩ := JalvProcess.mem_inputEvents.mp member
    exact Or.inr (Or.inr ⟨index, event, input, Or.inl inside, asks⟩)
  | called inside =>
    rw [idle] at inside
    cases inside

/-- The process thread takes a step in which it attempts to tell some messages. -/
theorem Sound.process {jack : JackProcess} {messages : List UiMessage} {waiting : List UiMessage}
    {left : Nat → List AtomEvent} {running : Option (JalvProcessStatus × UInt32)}
    {calls : List (JalvProcess × (Nat → List AtomEvent))} {has : URID → Option Atom} {restored : Bool}
    {lost : List URID} (sound : run.Sound backend) (shapes : jack.proc.shapes = run.jalv.process.shapes)
    (getMsg : jack.proc.getMsg = run.jalv.process.getMsg)
    (ring : jack.pluginToUi = messages.foldl Jalv.attempt run.pluginToUi)
    (heard : ∀ message ∈ messages, message.Heard run.jalv)
    (calling : (⟨jack, waiting, left, running, calls⟩ : DeliveryState).Calling)
    (reconciled : Reconciled run.given
      (messageChanges backend run.pending ++ messageChanges backend (keptMessages run.pluginToUi messages))
      (Asked backend ⟨run.processed jack, waiting, left, running, calls, has, run.given,
        run.pending ++ keptMessages run.pluginToUi messages, restored, lost⟩) has) :
    Sound backend ⟨run.processed jack, waiting, left, running, calls, has, run.given,
      run.pending ++ keptMessages run.pluginToUi messages, restored, lost⟩ := by
  obtain ⟨capacity, content⟩ := keptMessages_content run.pluginToUi messages
  constructor
  · exact calling
  · exact sound.established.processed shapes getMsg
  · exact sound.updating
  · change jack.pluginToUi.capacity < 2 ^ 32
    rw [ring, capacity]
    exact sound.small
  · change jack.pluginToUi.content = _
    rw [ring, stream_append, ← sound.content]
    exact content
  · intro message member
    rcases List.mem_append.mp member with before | new
    · exact (sound.heard message before).congr rfl rfl rfl
    · exact (heard message (keptMessages_subset _ _ new)).congr rfl rfl rfl
  · exact sound.shows rfl fun _ _ shown => shown
  · rw [messageChanges_append]
    exact reconciled

theorem Sound.paused {jack : JackProcess} {nframes : UInt32} (sound : run.Sound backend) (idle : run.running = none)
    (paused : run.jalv.process.runState = .paused) (room : run.jalv.process.Room (run.delivery.kept nframes))
    (done : processSilent run.jack nframes = some jack) :
    Sound backend
      { run with toJackHost := run.processed jack, waiting := [], left := run.delivery.kept nframes } := by
  obtain ⟨status, applied⟩ := processSilent_applies done
  have shapes : jack.proc.shapes = run.jalv.process.shapes := applyUiEvents_shapes applied
  have kinds : jack.proc.kinds = run.jalv.process.kinds := JalvProcess.kinds_of_shapes shapes
  have step : DeliveryStep backend (DeliveryState.Separate backend) run.delivery _ :=
    .paused nframes idle paused room done
  have quiet := @Sound.process backend run jack [] [] (run.delivery.kept nframes) run.running run.calls run.has
    run.restored run.lost sound shapes (applyUiEvents_getMsg applied) (processSilent_pluginToUi done)
    (fun _ member => by cases member) (step.calling sound.calling)
  simp only [keptMessages, messageChanges, List.flatMap_nil, List.append_nil] at quiet
  refine quiet (sound.reconciled.mono fun key asked => ?_)
  rcases sound.underway idle asked nframes with unsent | member | ⟨index, event, input, inside, asks⟩
  · exact .restored unsent
  · exact .lost member
  · refine .left index event (JalvProcess.mem_inputEvents.mpr ⟨kinds ▸ input, ?_⟩) asks
    exact List.mem_append.mpr inside

theorem Sound.begin {jack : JackProcess} {pst : JalvProcessStatus} {cycle : JackCycle} (sound : run.Sound backend)
    (idle : run.running = none) (running : run.jalv.process.runState = .running)
    (room : run.jalv.process.Room (run.delivery.expected backend cycle))
    (separate : run.delivery.Separate backend cycle)
    (begun : processCbBegin backend run.jack cycle = some (pst, jack)) :
    Sound backend
      { run with
        toJackHost := run.processed jack, waiting := [], left := fun _ => []
        running := some (pst, cycle.nframes)
        calls := run.calls ++ [(jack.proc, run.delivery.expected backend cycle)]
        pending := run.pending ++ keptMessages run.pluginToUi (run.jack.tempoMessages backend cycle) } := by
  have shapes : jack.proc.shapes = run.jalv.process.shapes := processCbBegin_shapes begun
  have kinds : jack.proc.kinds = run.jalv.process.kinds := JalvProcess.kinds_of_shapes shapes
  have step : DeliveryStep backend (DeliveryState.Separate backend) run.delivery _ :=
    .run cycle idle running room separate begun
  have told (message : UiMessage) (member : message ∈ run.jack.tempoMessages backend cycle) :
      message.Heard run.jalv ∧ message.changes backend.forge backend.urids = [] := by
    obtain ⟨index, port, bpm, found, tempo, rfl⟩ := mem_tempoMessages member
    obtain ⟨inside, _⟩ := List.getElem?_eq_some_iff.mp found
    have place : (UInt32.ofNat index).toNat = index := by
      rw [UInt32.toNat_ofNat']
      exact Nat.mod_eq_of_lt (lt_of_lt_of_le inside sound.established.indexed)
    refine ⟨fun control here => ?_, rfl⟩
    rw [place] at here
    exact sound.established.tempo index port control found tempo here
  have silent : messageChanges backend (keptMessages run.pluginToUi (run.jack.tempoMessages backend cycle)) = [] :=
    List.flatMap_eq_nil_iff.mpr fun message member => (told message (keptMessages_subset _ _ member)).2
  refine sound.process shapes (processCbBegin_getMsg begun) (processCbBegin_tempo begun)
    (fun message member => (told message member).1) (step.calling sound.calling) ?_
  rw [silent, List.append_nil]
  refine sound.reconciled.mono fun key asked => ?_
  rcases sound.underway idle asked cycle.nframes with unsent | member | ⟨index, event, input, inside, asks⟩
  · exact .restored unsent
  · exact .lost member
  · refine .called rfl (jack.proc, run.delivery.expected backend cycle) index event List.getLast?_concat
      (JalvProcess.mem_inputEvents.mpr ⟨kinds ▸ input, ?_⟩) asks
    rcases inside with left | waiting
    · exact List.mem_append_left _ (List.mem_append_left _ left)
    · exact List.mem_append_right _ waiting

/-- The plugin answers what it has read, and tells what has changed, unless there is no room for it. -/
theorem Sound.tells {jack : JackProcess} {messages : List UiMessage} {has : URID → Option Atom}
    (sound : run.Sound backend) (inside : run.running.isSome) (shapes : jack.proc.shapes = run.jalv.process.shapes)
    (announces : Announces backend run.jalv.process.readEvents (messageChanges backend messages) run.has has) :
    Tells (messageChanges backend (keptMessages run.pluginToUi messages)) (run.Asked backend)
      (Asked backend
        { run with
          toJackHost := run.processed jack, running := none, has
          pending := run.pending ++ keptMessages run.pluginToUi messages
          lost := run.lost.filter (· ∉ (messageChanges backend messages).map Prod.fst) ++
            (messageChanges backend (droppedMessages run.pluginToUi messages)).map Prod.fst }) run.has has := by
  have kinds : jack.proc.kinds = run.jalv.process.kinds := JalvProcess.kinds_of_shapes shapes
  constructor
  · intro key free told
    obtain ⟨values, keys⟩ := keptMessages_changes run.pluginToUi fun dropped =>
      free (.lost (List.mem_append_right _ dropped))
    rw [← values]
    exact announces.last key (keys.mpr told)
  · intro key free silent
    obtain ⟨_, keys⟩ := keptMessages_changes run.pluginToUi fun dropped =>
      free (.lost (List.mem_append_right _ dropped))
    exact announces.kept key fun told => silent (keys.mp told)
  · intro key free asked
    obtain ⟨_, keys⟩ := keptMessages_changes run.pluginToUi fun dropped =>
      free (.lost (List.mem_append_right _ dropped))
    rw [← keys]
    cases asked with
    | restored unsent => exact absurd (.restored unsent) free
    | lost member =>
      by_contra silent
      rw [not_or] at silent
      exact free (.lost (List.mem_append_left _ (List.mem_filter.mpr ⟨member, decide_eq_true silent.1⟩)))
    | waiting message member asks => exact absurd (.waiting message member asks) free
    | left index event member asks =>
      obtain ⟨input, held⟩ := JalvProcess.mem_inputEvents.mp member
      exact absurd (.left index event (JalvProcess.mem_inputEvents.mpr ⟨kinds ▸ input, held⟩) asks) free
    | called _ call index event last member asks =>
      -- This is the call that the plugin returns from
      obtain ⟨earlier, events, split, queues⟩ := sound.calling.called (Option.isSome_iff_ne_none.mp inside)
      have calls : run.calls = earlier ++ [(run.jalv.process, events)] := split
      rw [calls, List.getLast?_concat, Option.some.injEq] at last
      subst last
      exact announces.answered index event (queues.readEvents ▸ member) key asks

theorem Sound.finish {jack : JackProcess} {pst : JalvProcessStatus} {nframes : UInt32}
    {midi : List (Nat × JackMidiEvent)} {messages : List UiMessage} {output : PluginOutput} {has : URID → Option Atom}
    (sound : run.Sound backend) (inside : run.running = some (pst, nframes))
    (reports : cycleMessages run.jack output false = some messages)
    (complete : ∀ index atom, UiMessage.eventTransfer index atom ∈ messages →
      atom.Complete backend.forge backend.urids)
    (announces : Announces backend run.jalv.process.readEvents (messageChanges backend messages) run.has has)
    (done : processCbEnd backend pst run.jack nframes output = some (jack, midi)) :
    Sound backend
      { run with
        toJackHost := run.processed jack, running := none, has
        pending := run.pending ++ keptMessages run.pluginToUi messages
        lost := run.lost.filter (· ∉ (messageChanges backend messages).map Prod.fst) ++
          (messageChanges backend (droppedMessages run.pluginToUi messages)).map Prod.fst } := by
  have shapes : jack.proc.shapes = run.jalv.process.shapes := processCbEnd_shapes done
  have step : DeliveryStep backend (DeliveryState.Separate backend) run.delivery _ := .finish output inside done
  have heard (message : UiMessage) (member : message ∈ messages) : message.Heard run.jalv := by
    obtain ⟨index, atom, rfl⟩ := cycleMessages_events reports member
    change atom.Complete run.jalv.forge run.jalv.urids
    rw [sound.established.forge, sound.established.urids]
    exact complete index atom member
  exact sound.process shapes (processCbEnd_getMsg done) (jackFinished_ring reports done) heard
    (step.calling sound.calling) (sound.reconciled.tell (sound.tells (by rw [inside]; rfl) shapes announces))

end PropertyRun

theorem PropertyStep.sound {backend : JalvBackend} {run next : PropertyRun} (sound : run.Sound backend)
    (step : PropertyStep backend run next) : next.Sound backend := by
  cases step with
  | set pointer property atom found id known fits deliverable set => exact sound.set found id known fits deliverable set
  | write portIndex bufferSize buffer whole complete deliverable wrote =>
    exact sound.write whole complete deliverable wrote
  | send message deliverable =>
    have sent := @PropertyRun.Sound.attempt backend run message [] run.jalv sound deliverable .refl sound.updating
      (by simpa using sound.shown) (fun _ member => by cases member)
    rwa [List.append_nil] at sent
  | main jalv keeps => exact sound.main keeps
  | activate runState idle => exact sound.activate runState idle
  | restore has => exact sound.restore has
  | request known sent => exact sound.request known sent
  | update updated => exact sound.update updated
  | paused nframes idle paused room done => exact sound.paused idle paused room done
  | run cycle idle running room separate begun => exact sound.begin idle running room separate begun
  | finish output has inside reports complete announces done =>
    exact sound.finish inside reports complete announces done

section

variable {backend : JalvBackend} {plugin : LilvPlugin} {jalv next : JalvImpl} {midiBufSize : Nat}
  {updateFrames : UInt32} {contents : Nat → Memory Byte} {message : Memory Byte}

theorem createPortsFrom_view {α : Type} {ports : List LilvPort} {index : UInt32} (view : JalvImpl → α)
    (keeps : ∀ jalv index pport controls, view (JalvImpl.addPort jalv index pport controls) = view jalv)
    (created : createPortsFrom index ports jalv = some (.ok next)) : view next = view jalv := by
  induction ports generalizing index jalv with
  | nil =>
    cases created
    rfl
  | cons port rest ih =>
    unfold createPortsFrom at created
    split at created
    · next first =>
      obtain ⟨pport, controls, _, _, rfl⟩ := createPort_ok first
      exact (ih created).trans (keeps jalv index pport controls)
    · next failed => exact absurd created (failed next)

/-- The port with the tempo is a control port. -/
theorem jalvOpen_tempo (opened : jalvOpen plugin midiBufSize updateFrames contents message jalv = some (.ok next)) :
    ∀ port ∈ next.process.ports, port.isBpm = true → port.type = .control := by
  let holds (port : JalvProcessPort) : Prop := port.isBpm = true → port.type = .control
  have created (useJackMetadata : Bool) (lilvPort : LilvPort) (port : JalvProcessPort)
      (initialized : jalvProcessPortInit useJackMetadata lilvPort = some port) : holds port := by
    intro tempo
    rw [jalvProcessPortInit] at initialized
    split at initialized
    · cases initialized
    · cases initialized
      exact (of_decide_eq_true tempo).2.1
  intro port member
  obtain ⟨before, evbuf, control, rfl, _⟩ := WiredHost.jalvOpen_ports created opened port member
  exact control

theorem JalvImpl.Loaded.control_at {port : JalvPort} {position : Nat} (loaded : jalv.Loaded) (placed : jalv.Placed)
    (found : jalv.ports[position]? = some port) (type : port.type = .control) :
    ∃ control, jalv.controls[position]? = some control ∧ control.id = .port port.index := by
  have listed : port.controlName ∈ jalv.controls.map Control.name :=
    loaded.controls.subset (List.mem_map_of_mem
      (List.mem_filter.mpr ⟨List.mem_of_getElem? found, decide_eq_true type⟩))
  obtain ⟨control, member, name⟩ := List.mem_map.mp listed
  obtain ⟨other, here⟩ := List.mem_iff_getElem?.mp member
  have id : control.id = .port port.index := congrArg Prod.fst name
  have place := (placed other control port.index here id).trans (loaded.indices position port found)
  exact ⟨control, place ▸ here, id⟩

theorem jalvOpen_established (first : plugin.ControlPortsFirst) (fresh : jalv.controls = [])
    (types : jalv.forge.float ≠ jalv.forge.double) (defaults : plugin.defaults.length = plugin.ports.length)
    (forge : jalv.forge = backend.forge) (urids : jalv.urids = backend.urids)
    (process : jalv.process = jalvProcessInit backend.urids)
    (opened : jalvOpen plugin midiBufSize updateFrames contents message jalv = some (.ok next)) :
    next.Established backend := by
  have loaded := jalvOpen_loaded fresh types defaults opened
  have placed := jalvOpen_placed first fresh opened
  have consistent := jalvOpen_consistent (by rw [process]; rfl) opened
  have tempo := jalvOpen_tempo opened
  obtain ⟨ported, proposal, controls, created, rfl⟩ := jalvOpen_ok opened
  have same := createPortsFrom_view (fun jalv => (jalv.urids, jalv.forge, jalv.process.getMsg))
    (fun _ _ _ _ => rfl) created
  obtain ⟨sameUrids, rest⟩ := Prod.mk.inj same
  obtain ⟨sameForge, sameMsg⟩ := Prod.mk.inj rest
  constructor
  · exact sameUrids.trans urids
  · exact sameForge.trans forge
  · refine sameMsg.trans ?_
    rw [process]
    rfl
  · exact loaded.ports
  · exact loaded.indexed
  · intro index port control found bpm here
    have kinds := congrArg (·[index]?) consistent.kinds
    simp only [JalvProcess.kinds, List.getElem?_map, found, Option.map_some] at kinds
    obtain ⟨own, there, kind⟩ := Option.map_eq_some_iff.mp kinds
    have type : own.type = .control :=
      (congrArg Prod.fst kind).trans (tempo port (List.mem_of_getElem? found) bpm)
    obtain ⟨holder, known, id⟩ := loaded.control_at placed there type
    rw [here, Option.some.injEq] at known
    exact ⟨own.index, known ▸ id⟩

theorem activatePort_registered (urids : JalvURIDs) (midiBufSize : Nat) (contents : Memory Byte)
    (port : JalvProcessPort) (registers : Bool) :
    (activatePort urids midiBufSize contents port).backendActivatePort registers =
      activatePort urids midiBufSize contents (port.backendActivatePort registers) := by
  by_cases event : port.type = .event
  · simp only [activatePort, JalvProcessPort.backendActivatePort, event, if_true, activateEvbuf]
    by_cases unknown : port.flow = .unknown <;> by_cases midi : port.supportsMidi <;>
      simp [unknown, midi, event, JalvProcessPort.evbufSize]
  · obtain ⟨sysPort, same, _⟩ := port.backendActivatePort_eq registers
    rw [activatePort, if_neg event, same, activatePort, if_neg event]

/-- The ports can as well be registered before the process is activated. -/
theorem jalvProcessActivate_registered (proc : JalvProcess) (urids : JalvURIDs) (registers : Nat → Bool) :
    let activated := jalvProcessActivate proc urids midiBufSize updateFrames contents message
    let registered (ports : List JalvProcessPort) :=
      ports.mapIdx fun index => JalvProcessPort.backendActivatePort (registers index)
    { activated with ports := registered activated.ports } = jalvProcessActivate
      { proc with ports := registered proc.ports } urids midiBufSize updateFrames contents message := by
  intro activated registered
  have size : maxMsgSize midiBufSize (registered proc.ports) = maxMsgSize midiBufSize proc.ports := by
    refine eq_of_forall_ge_iff fun bound => ?_
    rw [maxMsgSize_le_iff, maxMsgSize_le_iff]
    refine and_congr_right fun _ => ⟨fun all port member input => ?_, fun all port member input => ?_⟩
    · obtain ⟨index, inside, rfl⟩ := List.mem_iff_getElem.mp member
      obtain ⟨sysPort, same, _⟩ := proc.ports[index].backendActivatePort_eq (registers index)
      have own := all (proc.ports[index].backendActivatePort (registers index))
        (List.mem_mapIdx.mpr ⟨index, inside, rfl⟩)
      rw [same] at own
      exact own input
    · obtain ⟨index, inside, rfl⟩ := List.mem_mapIdx.mp member
      obtain ⟨sysPort, same, _⟩ := proc.ports[index].backendActivatePort_eq (registers index)
      rw [same] at input ⊢
      exact all proc.ports[index] (List.getElem_mem inside) input
  have ports : registered activated.ports = (registered proc.ports).mapIdx fun index port =>
      activatePort urids midiBufSize (contents index) port := by
    simp only [registered, activated, jalvProcessActivate, List.mapIdx_mapIdx]
    congr 1
    funext index port
    exact activatePort_registered urids midiBufSize (contents index) port (registers index)
  simp only [jalvProcessActivate, size] at ports ⊢
  rw [ports]
  rfl

theorem JalvImpl.registered_shapes (jalv : JalvImpl) (registers : Nat → Bool) :
    (jalv.registered registers).process.shapes = jalv.process.shapes := by
  apply List.ext_getElem?
  intro index
  simp only [registered, JalvProcess.shapes, List.getElem?_map, List.getElem?_mapIdx, Option.map_map]
  congr 1
  funext port
  obtain ⟨sysPort, same, _⟩ := port.backendActivatePort_eq (registers index)
  rw [Function.comp_apply, same]
  rfl

theorem jalvOpen_prepared (loaded : next.Loaded) (fresh : jalv.process.controlIn = uint32Max)
    (opened : jalvOpen plugin midiBufSize updateFrames contents message jalv = some (.ok next)) :
    next.process.layout.Prepared := by
  have consistent := jalvOpen_consistent fresh opened
  have buffers := WiredHost.jalvOpen_isOpened opened
  constructor
  · rw [JalvProcess.layout, List.length_map]
    exact loaded.values.trans loaded.ports.symm
  · intro known
    have kind := consistent.control known
    rw [JalvProcess.kinds, List.getElem?_map] at kind
    obtain ⟨port, found, same⟩ := Option.map_eq_some_iff.mp kind
    obtain ⟨type, flow⟩ := Prod.mk.inj same
    have buffer := (buffers port (List.mem_of_getElem? found)).buffer
    change (next.process.ports.map JalvProcessPort.layout)[next.process.controlIn.toNat]? = _
    rw [List.getElem?_map, found, Option.map_some, JalvProcessPort.layout, buffer, type, flow]
    rfl

theorem jalvOpen_activated (registers : Nat → Bool) (urids : jalv.urids = backend.urids)
    (opened : jalvOpen plugin midiBufSize updateFrames contents message jalv = some (.ok next)) :
    ∃ proc, (next.registered registers).process =
      jalvProcessActivate proc backend.urids midiBufSize updateFrames contents message := by
  obtain ⟨ported, proposal, controls, created, rfl⟩ := jalvOpen_ok opened
  have same : ported.urids = backend.urids :=
    (createPortsFrom_view JalvImpl.urids (fun _ _ _ _ => rfl) created).trans urids
  rw [← same]
  exact ⟨_, jalvProcessActivate_registered ported.process ported.urids registers⟩

theorem PropertyRun.sound_initial {run : PropertyRun} (initial : (propertySystem backend).initial run) :
    run.Sound backend := by
  obtain ⟨plugin, midiBufSize, updateFrames, contents, message, jalv, opened, toPlugin, toUi, registers, first, fresh,
    types, defaults, forge, urids, process, opens, host, updating, ring, small, back, few, waiting, left, running,
    calls, given, pending, lost⟩ := initial
  have loaded := jalvOpen_loaded fresh types defaults opens
  have shapes := opened.registered_shapes registers
  have prepared : (opened.registered registers).process.layout.Prepared := by
    have same : (opened.registered registers).process.layout = opened.process.layout := by
      rw [JalvProcess.layout, JalvProcess.ports_layout shapes]
      rfl
    rw [same]
    exact jalvOpen_prepared loaded (by rw [process]; rfl) opens
  have established : (opened.registered registers).Established backend :=
    (jalvOpen_established first fresh types defaults forge urids process opens).processed shapes rfl
  obtain ⟨proc, activated⟩ := jalvOpen_activated registers urids opens
  have start : (deliverySystem backend (DeliveryState.Separate backend)).initial run.delivery := by
    refine ⟨proc, midiBufSize, updateFrames, contents, message, UInt32.ofNat toPlugin, UInt32.ofNat toUi, ?_, ?_⟩
    · rw [delivery, JackHost.jack, host, waiting, left, running, calls, ring, back, activated, DeliveryState.start,
        UInt32.toNat_ofNat', UInt32.toNat_ofNat', Nat.mod_eq_of_lt small, Nat.mod_eq_of_lt few]
    · rw [delivery, JackHost.jack, host]
      exact prepared
  constructor
  · exact ⟨DeliveryState.served_initial start, fun inside => absurd running inside⟩
  · exact host ▸ established
  · exact updating
  · rw [back]
    exact few
  · rw [back, pending]
    rfl
  · rw [pending]
    exact fun _ member => by cases member
  · intro key atom _ last
    rw [given] at last
    cases last
  · rw [given, pending]
    exact .begin _ _

end

section

variable {backend : JalvBackend} {run : PropertyRun}

theorem PropertyRun.Sound.agrees (sound : run.Sound backend) : run.Agrees backend where
  shown property atom known last := sound.shown property atom known last
  settled property value free silent member known held := by
    obtain ⟨latest, last⟩ := Option.isSome_iff_exists.mp (assigned_isSome member)
    have same := sound.reconciled.settled free silent last held
    exact same ▸ sound.shown property latest known last

end

def reconcileTestPort (isInput : Bool) : LilvPort :=
  { lookupTestPort false with
    isInput, isOutput := !isInput, isAudio := false, isAtom := true, designatedControl := isInput }

def reconcileTestPlugin : LilvPlugin where
  ports := [reconcileTestPort true, reconcileTestPort false]
  few := by decide
  defaults := [0, 0]
  writable := [.uri [103]]
  readable := []
  threadSafeRestore := false

def reconcileTestHost : JalvImpl :=
  { lookupTestHost with
    world := { lookupTestHost.world with map := fun _ => 40, hasRange := fun _ type => type = .float } }

def reconcileTestOpened : JalvImpl :=
  match jalvOpen reconcileTestPlugin 1024 0 (fun _ _ => 0) (fun _ => 0) reconcileTestHost with
  | some (.ok jalv) => jalv
  | _ => reconcileTestHost

def reconcileTestStart : PropertyRun where
  jalv := reconcileTestOpened.registered fun _ => false
  uiToPlugin := .empty 4095
  pluginToUi := .empty 4095
  waiting := []
  left := fun _ => []
  running := none
  calls := []
  has := fun _ => none
  given := []
  pending := []
  restored := false
  lost := []

def reconcileTestValue : Atom := floatAtom reconcileTestHost 0x3F800000

def reconcileTestSized : JalvImpl := { reconcileTestHost with uiMsgSize := 1024 }

def reconcileTestMessage : Atom := setMessage reconcileTestSized 40 reconcileTestValue

/-- The plugin gives back what it reads, and has the value that is in it. -/
theorem reconcileTest_finish {run : PropertyRun} {jack : JackProcess} {pst : JalvProcessStatus} {nframes : UInt32}
    {midi : List (Nat × JackMidiEvent)} (inside : run.running = some (pst, nframes))
    (before : run.has = fun _ => none)
    (reports : cycleMessages run.jack (hostingTestOutput run.jalv.process) false =
      some [.eventTransfer 1 reconcileTestMessage])
    (done : processCbEnd jackTestBackend pst run.jack nframes (hostingTestOutput run.jalv.process) =
      some (jack, midi)) :
    PropertyStep jackTestBackend run
      { run with
        toJackHost := run.processed jack, running := none
        has := fun property => if property = 40 then some reconcileTestValue else none
        pending := run.pending ++ keptMessages run.pluginToUi [.eventTransfer 1 reconcileTestMessage]
        lost := run.lost.filter
            (· ∉ (messageChanges jackTestBackend [.eventTransfer 1 reconcileTestMessage]).map Prod.fst) ++
          (messageChanges jackTestBackend
            (droppedMessages run.pluginToUi [.eventTransfer 1 reconcileTestMessage])).map Prod.fst } := by
  have fits : SetFits reconcileTestSized reconcileTestValue := ⟨by decide, by decide⟩
  have forge : jackTestBackend.forge = reconcileTestSized.forge := rfl
  have urids : jackTestBackend.urids = reconcileTestSized.urids := rfl
  have told : messageChanges jackTestBackend [.eventTransfer 1 reconcileTestMessage] = [(40, reconcileTestValue)] := by
    rw [messageChanges, List.flatMap_singleton, UiMessage.changes, forge, urids, reconcileTestMessage]
    exact setMessage_changes fits
  refine .finish _ _ inside reports (fun index atom member => ?_) ?_ done
  · obtain ⟨_, rfl⟩ := UiMessage.eventTransfer.inj (List.mem_singleton.mp member)
    rw [forge, urids, reconcileTestMessage]
    exact setMessage_complete fits
  · rw [told, before]
    constructor
    · intro property member
      obtain rfl := List.mem_singleton.mp member
      rfl
    · intro property other
      have apart : property ≠ 40 := by
        rintro rfl
        exact other (List.mem_singleton_self _)
      exact if_neg apart
    · intro index event _ property _
      by_cases same : property = 40
      · subst same
        exact Or.inl (List.mem_singleton_self _)
      · exact Or.inr (if_neg same)

end Jalv
