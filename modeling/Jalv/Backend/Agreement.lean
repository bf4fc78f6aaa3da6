import Jalv.Backend.Notices
import Jalv.Host.Shown

/-! What the controls of ports show, and what the plugin has.

Setting a control stores its value at once, and sends it to the process. The plugin has
it as soon as the messages are applied, unless there was no room for it in the ring.
-/

set_option autoImplicit false

namespace Jalv

open Foundation

structure Change where
  index : UInt32
  value : UInt32
  sent : Bool

def Change.entry (change : Change) : Nat × UInt32 := (change.index.toNat, change.value)

structure ControlRun extends WriteState where
  changes : List Change

/-- What sets controls and values, in any order: the user interface, updates, and the cycles of either backend.
Control ports are set to floats, as they have the type, and a user interface of the plugin writes events. -/
inductive ControlStep (backend : JalvBackend) : ControlRun → ControlRun → Prop where
  | setPort {run : ControlRun} {control : Control} {status : Nat} {jalv : JalvImpl} {uiToPlugin : ZixRing}
      (pointer : Nat) (index value : UInt32) (found : run.jalv.controls[pointer]? = some control)
      (port : control.id = .port index)
      (set : jalvSetControl run.jalv run.uiToPlugin pointer (floatAtom run.jalv value) =
        some (status, jalv, uiToPlugin)) :
      ControlStep backend run { run with
        jalv, uiToPlugin, changes := run.changes ++ [⟨index, value, 16 ≤ run.uiToPlugin.writeSpace⟩] }
  | setProperty {run : ControlRun} {control : Control} {status : Nat} {jalv : JalvImpl} {uiToPlugin : ZixRing}
      (pointer : Nat) (urid : URID) (atom : Atom) (found : run.jalv.controls[pointer]? = some control)
      (property : control.id = .property urid)
      (set : jalvSetControl run.jalv run.uiToPlugin pointer atom = some (status, jalv, uiToPlugin)) :
      ControlStep backend run { run with jalv, uiToPlugin }
  | write {run : ControlRun} {jalv : JalvImpl} {uiToPlugin : ZixRing} (portIndex bufferSize protocol : UInt32)
      (buffer : Memory Byte) (event : protocol ≠ 0)
      (wrote : jalvSendToPlugin run.jalv run.uiToPlugin portIndex bufferSize protocol buffer =
        some (jalv, uiToPlugin)) :
      ControlStep backend run { run with jalv, uiToPlugin }
  | send {run : ControlRun} {uiToPlugin : ZixRing} (message : UiMessage) (other : message.assignments = [])
      (sent : Sends run.uiToPlugin uiToPlugin message) : ControlStep backend run { run with uiToPlugin }
  | update {run : ControlRun} {status : UpdateStatus} {jalv : JalvImpl} {pluginToUi : ZixRing}
      (updated : jalvUpdate run.jalv run.pluginToUi = some (status, jalv, pluginToUi)) :
      ControlStep backend run { run with jalv, pluginToUi }
  | activate {run : ControlRun} (runState : JalvRunState) :
      ControlStep backend run { run with jalv := { run.jalv with process := { run.jalv.process with runState } } }
  | paused {run : ControlRun} {jack : JackProcess} (nframes : UInt32) (idle : run.running = none)
      (done : processSilent run.jack nframes = some jack) :
      ControlStep backend run { run with toJackHost := run.processed jack }
  | jackRun {run : ControlRun} {jack : JackProcess} {pst : JalvProcessStatus} (cycle : JackCycle)
      (idle : run.running = none) (begun : processCbBegin backend run.jack cycle = some (pst, jack)) :
      ControlStep backend run { run with toJackHost := run.processed jack, running := some (pst, cycle.nframes) }
  | jackFinish {run : ControlRun} {jack : JackProcess} {pst : JalvProcessStatus} {nframes : UInt32}
      {midi : List (Nat × JackMidiEvent)} (output : PluginOutput) (inside : run.running = some (pst, nframes))
      (done : processCbEnd backend pst run.jack nframes output = some (jack, midi)) :
      ControlStep backend run { run with toJackHost := run.processed jack, running := none }
  | portAudioRun {run : ControlRun} {jack : JackProcess} {pst : JalvProcessStatus} (nframes : UInt32)
      (idle : run.running = none) (begun : PortAudio.processCbBegin run.jack nframes = some (pst, jack)) :
      ControlStep backend run { run with toJackHost := run.processed jack, running := some (pst, nframes) }
  | portAudioFinish {run : ControlRun} {jack : JackProcess} {pst : JalvProcessStatus} {nframes : UInt32}
      (output : PluginOutput) (inside : run.running = some (pst, nframes))
      (done : PortAudio.processCbEnd pst run.jack nframes output = some jack) :
      ControlStep backend run { run with toJackHost := run.processed jack, running := none }

def controlSystem (backend : JalvBackend) (start : List UInt32) : TransitionSystem ControlRun where
  initial run := ∃ plugin midiBufSize updateFrames contents message jalv toPlugin toUi,
    plugin.ControlPortsFirst ∧ jalv.controls = [] ∧ jalv.forge.float ≠ jalv.forge.double ∧
      plugin.defaults.length = plugin.ports.length ∧
      jalvOpen plugin midiBufSize updateFrames contents message jalv = some (.ok run.jalv) ∧
      run.jalv.updating = false ∧
      run.uiToPlugin = .empty toPlugin ∧ toPlugin < 2 ^ 32 ∧ run.pluginToUi = .empty toUi ∧ toUi < 2 ^ 32 ∧
      run.running = none ∧ run.changes = [] ∧ start = run.jalv.process.controlsBuf
  step := ControlStep backend

def ControlRun.lastSet (run : ControlRun) (index : UInt32) : Option UInt32 :=
  assigned (run.changes.map Change.entry) index.toNat none

/-- The last value that was sent for a port, or the one that it had at first. -/
def ControlRun.lastSent (start : List UInt32) (run : ControlRun) (index : UInt32) : Option UInt32 :=
  assigned ((run.changes.filter Change.sent).map Change.entry) index.toNat start[index.toNat]?

/-- The control of each control input port shows the last value that it was set to, and the plugin has the last
value that was sent, as soon as the messages are applied. -/
structure ControlRun.Agreed (start : List UInt32) (run : ControlRun) : Prop where
  shown : ∀ index value, run.jalv.process.Driven index.toNat → run.lastSet index = some value →
    run.jalv.Shows index value
  applied : ∀ index, run.jalv.process.Driven index.toNat → ∀ nframes status next rest,
    applyUiEvents run.jalv.process run.uiToPlugin nframes = some (status, next, rest) →
      next.controlsBuf[index.toNat]? = lastSent start run index
  settled : ∀ index, run.jalv.process.Driven index.toNat → run.uiToPlugin.content = [] →
    run.jalv.process.controlsBuf[index.toNat]? = lastSent start run index
  /-- The two are the same if the last value was sent. -/
  agree : ∀ earlier change later, run.changes = earlier ++ change :: later →
    (∀ other ∈ later, other.index ≠ change.index) → change.sent = true →
      run.lastSet change.index = some change.value ∧ lastSent start run change.index = some change.value

structure JalvImpl.Arranged (jalv : JalvImpl) : Prop where
  loaded : jalv.Loaded
  placed : jalv.Placed
  indexed : jalv.process.Indexed

/-- What is in the ring to the process brings its values to those that were sent. -/
def Catching (start : List UInt32) (sent : List (Nat × UInt32)) (proc : JalvProcess) (ring : ZixRing) : Prop :=
  ring.capacity < 2 ^ 32 ∧ ∃ messages, ring.content = stream UiMessage.encode messages ∧
    ∀ index, proc.Driven index →
      Follows sent (messages.flatMap UiMessage.assignments) index start[index]? proc.controlsBuf[index]?

def ControlRun.sentEntries (run : ControlRun) : List (Nat × UInt32) :=
  (run.changes.filter Change.sent).map Change.entry

structure ControlRun.Sound (start : List UInt32) (run : ControlRun) : Prop where
  arranged : run.jalv.Arranged
  updating : run.jalv.updating = false
  catching : Catching start run.sentEntries run.jalv.process run.uiToPlugin
  notices : Notices run.jalv.process run.pluginToUi
  shown : ∀ index value, run.jalv.process.Driven index.toNat → run.lastSet index = some value →
    run.jalv.Shows index value

section

variable {jalv next : JalvImpl}

theorem JalvImpl.Arranged.revalued (arranged : jalv.Arranged) (revalued : jalv.Revalued next) : next.Arranged where
  loaded := arranged.loaded.revalued revalued
  placed position control index found id := by
    have name : (next.controls.map Control.name)[position]? = some control.name := by
      rw [List.getElem?_map, found, Option.map_some]
    rw [revalued.names, List.getElem?_map] at name
    obtain ⟨before, here, same⟩ := Option.map_eq_some_iff.mp name
    exact arranged.placed position before index here ((congrArg Prod.fst same).trans id)
  indexed := by
    have few := arranged.indexed
    rwa [JalvProcess.Indexed, revalued.processPorts]

theorem handleMessage_sets {message : UiMessage} (handled : handleMessage jalv message = some next) :
    jalv.SetsValues next := by
  unfold handleMessage at handled
  split at handled
  · rw [Option.join_eq_some_iff] at handled
    exact ((@JalvImpl.SetsValues.refl jalv).message _ jalv.updating).trans (updateMessage_sets handled)
  · cases handled

/-- What a cycle has told the main thread changes no control that the user interface drives. -/
theorem handleMessage_shows {message : UiMessage} {index value : UInt32} (arranged : jalv.Arranged)
    (told : message.FromProcess jalv.process) (handled : handleMessage jalv message = some next)
    (driven : jalv.process.Driven index.toNat) (shown : jalv.Shows index value) : next.Shows index value := by
  cases message with
  | controlPortChange portIndex other =>
    obtain ⟨forge, others, _⟩ := handleMessage_control arranged.loaded.freeable handled
    obtain ⟨control, found, id, held⟩ := shown
    have apart : index.toNat ≠ portIndex.toNat := fun same => told (same ▸ driven)
    exact ⟨control, (others _ apart).trans found, id, forge ▸ held⟩
  | eventTransfer => exact (handleMessage_event handled).shows shown
  | stateRequest | runStateChange => exact told.elim

theorem handleMessages_shows {messages : List UiMessage} {index value : UInt32} (arranged : jalv.Arranged)
    (told : ∀ message ∈ messages, message.FromProcess jalv.process)
    (handled : messages.foldlM handleMessage jalv = some next) (driven : jalv.process.Driven index.toNat)
    (shown : jalv.Shows index value) : next.Shows index value := by
  induction messages generalizing jalv with
  | nil =>
    rw [List.foldlM_nil, Option.pure_def, Option.some.injEq] at handled
    subst handled
    exact shown
  | cons message rest ih =>
    rw [List.foldlM_cons] at handled
    obtain ⟨middle, first, others⟩ := Option.bind_eq_some_iff.mp handled
    obtain ⟨own, remaining⟩ := List.forall_mem_cons.mp told
    have sets := handleMessage_sets first
    have same := sets.setup.process
    exact ih (arranged.revalued sets.revalued) (same.symm ▸ remaining) others (same.symm ▸ driven)
      (handleMessage_shows arranged own first driven shown)

end

section

variable {start : List UInt32} {sent : List (Nat × UInt32)} {proc after : JalvProcess} {ring rest : ZixRing}

theorem Catching.send {message : UiMessage} (catching : Catching start sent proc ring) (sends : Sends ring rest message) :
    Catching start (sent ++ message.assignments) proc rest := by
  obtain ⟨small, messages, content, follows⟩ := catching
  refine ⟨?_, messages ++ [message], sends.stream content, fun index driven => ?_⟩
  · rw [sends.content.1]
    exact small
  · rw [List.flatMap_append, List.flatMap_singleton]
    exact (follows index driven).write _

theorem Catching.values (catching : Catching start sent proc ring) (shapes : after.shapes = proc.shapes)
    (values : ∀ index, proc.Driven index → after.controlsBuf[index]? = proc.controlsBuf[index]?) :
    Catching start sent after ring := by
  obtain ⟨small, messages, content, follows⟩ := catching
  refine ⟨small, messages, content, fun index driven => ?_⟩
  have before := JalvProcess.driven_of_shapes shapes driven
  rw [values index before]
  exact follows index before

theorem Catching.apply {nframes : UInt32} {status : JalvProcessStatus} (catching : Catching start sent proc ring)
    (applied : applyUiEvents proc ring nframes = some (status, after, rest)) :
    Catching start sent after rest ∧ ∀ index, proc.Driven index →
      after.controlsBuf[index]? = assigned sent index start[index]? := by
  obtain ⟨small, messages, content, follows⟩ := catching
  obtain ⟨capacity, empty, values⟩ := applyUiEvents_value small content applied
  have shapes := applyUiEvents_shapes applied
  refine ⟨⟨capacity.symm ▸ small, [], empty, fun index driven => ?_⟩, fun index driven => ?_⟩
  · rw [values index]
    exact (follows index (JalvProcess.driven_of_shapes shapes driven)).takeAll
  · rw [values index]
    exact follows index driven

end

section

variable {plugin : LilvPlugin} {jalv next : JalvImpl}

theorem jalvOpen_ids {midiBufSize : Nat} {updateFrames : UInt32} {contents : Nat → Memory Byte}
    {message : Memory Byte} (fresh : jalv.controls = [])
    (opened : jalvOpen plugin midiBufSize updateFrames contents message jalv = some (.ok next)) :
    ∃ added : List URID, next.controls.map Control.id = portControlIds 0 plugin.ports ++ added.map .property := by
  unfold jalvOpen at opened
  split at opened
  · next ported created =>
    obtain ⟨written, writable, rest⟩ := Option.bind_eq_some_iff.mp opened
    obtain ⟨final, readable, same⟩ := Option.bind_eq_some_iff.mp rest
    cases same
    obtain ⟨portIds, _, _⟩ := createPortsFrom_ids created
    obtain ⟨first, firstIds, _, _⟩ := createControls_ids writable
    obtain ⟨second, secondIds, _, _⟩ := createControls_ids readable
    refine ⟨first ++ second, ?_⟩
    have begun : ported.controls.map Control.id = portControlIds 0 plugin.ports := by
      rw [portIds]
      simp [fresh]
    change final.controls.map Control.id = _
    rw [secondIds.ids, firstIds.ids, begun, List.map_append, List.append_assoc]
  · next failed => exact absurd opened (failed next)

/-- If the control ports of a plugin come first, then their controls are at the positions of the ports. -/
theorem jalvOpen_placed {midiBufSize : Nat} {updateFrames : UInt32} {contents : Nat → Memory Byte}
    {message : Memory Byte} (first : plugin.ControlPortsFirst) (fresh : jalv.controls = [])
    (opened : jalvOpen plugin midiBufSize updateFrames contents message jalv = some (.ok next)) : next.Placed := by
  obtain ⟨added, ids⟩ := jalvOpen_ids fresh opened
  intro position control index found id
  have here : (next.controls.map Control.id)[position]? = some (.port index) := by
    rw [List.getElem?_map, found, Option.map_some, id]
  rw [ids] at here
  by_cases inside : position < (portControlIds 0 plugin.ports).length
  · rw [List.getElem?_append_left inside, getElem?_portControlIds 0 (fun early late port before there control =>
      first early late before ⟨port, there, control⟩)] at here
    obtain ⟨port, there, same⟩ := Option.map_eq_some_iff.mp here
    rw [UInt32.zero_add, ControlId.port.injEq] at same
    obtain ⟨place, _⟩ := List.getElem?_eq_some_iff.mp (Option.filter_eq_some_iff.mp there).1
    have few := plugin.few
    rw [← same, UInt32.toNat_ofNat', Nat.mod_eq_of_lt (by omega)]
  · rw [List.getElem?_append_right (Nat.not_lt.mp inside), List.getElem?_map] at here
    obtain ⟨_, _, same⟩ := Option.map_eq_some_iff.mp here
    cases same

theorem JalvImpl.Loaded.indexed (loaded : jalv.Loaded) : jalv.process.Indexed := by
  rw [JalvProcess.Indexed, loaded.ports]
  by_contra many
  have inside : 2 ^ 32 < jalv.ports.length := Nat.not_le.mp many
  have place := loaded.indices (2 ^ 32) jalv.ports[2 ^ 32] (List.getElem?_eq_getElem inside)
  have bound := jalv.ports[2 ^ 32].index.toNat_lt
  omega

end

section

variable {backend : JalvBackend} {start : List UInt32} {run next : ControlRun}

theorem ControlRun.Sound.agreed (sound : run.Sound start) : run.Agreed start where
  shown := sound.shown
  applied index driven nframes status after rest applied := (sound.catching.apply applied).2 index.toNat driven
  settled index driven empty := by
    obtain ⟨_, messages, content, follows⟩ := sound.catching
    have none : messages = [] := by
      cases messages with
      | nil => rfl
      | cons message others =>
        rw [empty, stream_cons] at content
        exact absurd (List.append_eq_nil_iff.mp content.symm).1 message.encode_ne_nil
    subst none
    exact follows index.toNat driven
  agree earlier change later parts last sent := by
    have others (changes : List Change) (apart : ∀ other ∈ changes, other.index ≠ change.index) :
        change.index.toNat ∉ (changes.map Change.entry).map Prod.fst := by
      rw [List.map_map]
      intro member
      obtain ⟨other, among, same⟩ := List.mem_map.mp member
      exact apart other among (UInt32.toNat_inj.mp same)
    constructor
    · rw [ControlRun.lastSet, parts, List.map_append, List.map_cons]
      exact assigned_last _ (others later last) _ _
    · rw [ControlRun.lastSent, parts, List.filter_append, List.filter_cons_of_pos sent, List.map_append, List.map_cons]
      exact assigned_last _ (others _ fun other member => last other (List.mem_of_mem_filter member)) _ _

theorem Begins.sound {jack : JackProcess} {running : Option (JalvProcessStatus × UInt32)} (sound : run.Sound start)
    (begins : Begins run.jack jack) :
    ControlRun.Sound start { run with toJackHost := run.processed jack, running := running } := by
  obtain ⟨prepared, nframes, status, shapes, values, length, applied⟩ := begins.applied
  have whole : jack.proc.shapes = run.jalv.process.shapes := (applyUiEvents_shapes applied).trans shapes
  have lengths := applyUiEvents_lengths applied
  have caught := ((sound.catching.values shapes values).apply applied).1
  have ports : jack.proc.ports.length = run.jalv.process.ports.length := JalvProcess.length_of_shapes whole
  refine ⟨sound.arranged.revalued ⟨rfl, rfl, rfl, id, ports, lengths.2.trans length⟩, sound.updating, caught,
    (begins.notices sound.notices).of_shapes whole, fun index value driven set => ?_⟩
  exact sound.shown index value (JalvProcess.driven_of_shapes whole driven) set

theorem Ends.sound {jack : JackProcess} {running : Option (JalvProcessStatus × UInt32)} (sound : run.Sound start)
    (ends : Ends run.jack jack) :
    ControlRun.Sound start { run with toJackHost := run.processed jack, running := running } := by
  have caught := sound.catching.values ends.shapes ends.values
  have ports : jack.proc.ports.length = run.jalv.process.ports.length := JalvProcess.length_of_shapes ends.shapes
  refine ⟨sound.arranged.revalued ⟨rfl, rfl, rfl, id, ports, ends.length⟩, sound.updating, ?_,
    (ends.notices sound.notices).of_shapes ends.shapes, fun index value driven set => ?_⟩
  · have same : (run.processed jack).uiToPlugin = run.uiToPlugin := ends.ring
    simp only [same]
    exact caught
  · exact sound.shown index value (JalvProcess.driven_of_shapes ends.shapes driven) set

/-- A write of the main thread that changes no control of a port, and sends a message that gives no value. -/
theorem ControlRun.Sound.wrote {jalv : JalvImpl} {uiToPlugin : ZixRing} (sound : run.Sound start)
    (sets : run.jalv.SetsValues jalv) (keeps : run.jalv.KeepsPorts jalv)
    (sends : uiToPlugin = run.uiToPlugin ∨
      ∃ message : UiMessage, message.assignments = [] ∧ Sends run.uiToPlugin uiToPlugin message) :
    ControlRun.Sound start { run with jalv, uiToPlugin } := by
  have process := sets.setup.process
  refine ⟨sound.arranged.revalued sets.revalued, keeps.updating.trans sound.updating, ?_, process.symm ▸ sound.notices,
    fun index value driven set => keeps.shows (sound.shown index value (process ▸ driven) set)⟩
  change Catching start run.sentEntries jalv.process uiToPlugin
  rw [process]
  rcases sends with rfl | ⟨message, none, sent⟩
  · exact sound.catching
  · have caught := sound.catching.send sent
    rwa [none, List.append_nil] at caught

theorem ControlRun.Sound.setPort {control : Control} {status pointer : Nat} {jalv : JalvImpl} {uiToPlugin : ZixRing}
    {index value : UInt32} (sound : run.Sound start) (found : run.jalv.controls[pointer]? = some control)
    (port : control.id = .port index)
    (set : jalvSetControl run.jalv run.uiToPlugin pointer (floatAtom run.jalv value) =
      some (status, jalv, uiToPlugin)) :
    ControlRun.Sound start { run with
      jalv, uiToPlugin, changes := run.changes ++ [⟨index, value, 16 ≤ run.uiToPlugin.writeSpace⟩] } := by
  have loaded := sound.arranged.loaded
  obtain ⟨store, held, _, rfl, rfl⟩ :=
    jalvSetControl_port (loaded.freeable control (List.mem_of_getElem? found)) found port loaded.types sound.updating set
  refine ⟨sound.arranged.revalued (jalvSetControl_writes set).1.revalued, sound.updating, ?_, sound.notices,
    fun other shown driven last => ?_⟩
  · -- The value is sent exactly if there is room for it
    have kept := jalvWriteControl_kept_iff run.uiToPlugin index value
    rcases jalvWriteControl_cases run.uiToPlugin index value with same | sent
    · have full : ¬16 ≤ run.uiToPlugin.writeSpace := Nat.not_le.mpr (kept.mp same)
      have none : [(⟨index, value, 16 ≤ run.uiToPlugin.writeSpace⟩ : Change)].filter Change.sent = [] :=
        List.filter_cons_of_neg (by simpa using full)
      simp only [ControlRun.sentEntries, List.filter_append, none, List.append_nil, same]
      exact sound.catching
    · have room : 16 ≤ run.uiToPlugin.writeSpace := Nat.not_lt.mp fun full => sent.ne (kept.mpr full)
      have one : [(⟨index, value, 16 ≤ run.uiToPlugin.writeSpace⟩ : Change)].filter Change.sent =
          [⟨index, value, 16 ≤ run.uiToPlugin.writeSpace⟩] := List.filter_cons_of_pos (by simpa using room)
      simp only [ControlRun.sentEntries, List.filter_append, one, List.map_append]
      exact sound.catching.send sent
  · have stores := fun other old => @JalvImpl.Shows.stored _ _ _ _ _ other old _ sound.arranged.placed found port held
    rw [ControlRun.lastSet, List.map_append, assigned_append] at last
    by_cases same : other = index
    · subst same
      have value' : some value = some shown := by
        rw [← last]
        exact (if_pos rfl).symm
      rw [Option.some.injEq] at value'
      subst value'
      exact (stores other 0).1
    · have apart : index.toNat ≠ other.toNat := fun equal => same (UInt32.toNat_inj.mp equal.symm)
      have before : run.lastSet other = some shown := by
        rw [← last]
        exact (if_neg apart).symm
      exact (stores other shown).2 same (sound.shown other shown driven before)

theorem ControlRun.Sound.update {status : UpdateStatus} {jalv : JalvImpl} {pluginToUi : ZixRing}
    (sound : run.Sound start) (updated : jalvUpdate run.jalv run.pluginToUi = some (status, jalv, pluginToUi)) :
    ControlRun.Sound start { run with jalv, pluginToUi } := by
  obtain ⟨small, messages, content, told⟩ := sound.notices
  have forUi (message : UiMessage) (member : message ∈ messages) : message.ForUi := by
    have own := told message member
    cases message with
    | controlPortChange | eventTransfer => trivial
    | stateRequest | runStateChange => exact own
  obtain ⟨capacity, empty, last, handled, rfl⟩ := jalvUpdate_messages content small forUi updated
  have sets := jalvUpdate_sets updated
  have process := sets.setup.process
  refine ⟨sound.arranged.revalued sets.revalued, rfl, ?_, ?_, fun index value driven set => ?_⟩
  · change Catching start run.sentEntries last.process run.uiToPlugin
    have same : last.process = run.jalv.process := process
    rw [same]
    exact sound.catching
  · exact ⟨capacity.symm ▸ small, [], empty, fun _ member => by cases member⟩
  · have same : last.process = run.jalv.process := process
    have began : JalvImpl.Arranged { run.jalv with updating := true } :=
      sound.arranged.revalued ⟨rfl, rfl, rfl, id, rfl, rfl⟩
    have driven : run.jalv.process.Driven index.toNat := same ▸ driven
    have shown : JalvImpl.Shows { run.jalv with updating := true } index value := sound.shown index value driven set
    have final : last.Shows index value := handleMessages_shows began told handled driven shown
    exact final

theorem ControlStep.sound (sound : run.Sound start) (step : ControlStep backend run next) : next.Sound start := by
  cases step with
  | setPort pointer index value found port set => exact sound.setPort found port set
  | setProperty pointer urid atom found property set =>
    refine sound.wrote (jalvSetControl_writes set).1 (jalvSetControl_keepsPorts found property set) ?_
    rcases (jalvSetControl_writes set).2 with kept | ⟨other, _, _, here, port, _⟩ | ⟨_, _, object, sent⟩
    · exact Or.inl kept
    · rw [found, Option.some.injEq] at here
      subst here
      rw [property] at port
      cases port
    · exact Or.inr ⟨_, rfl, sent⟩
  | write portIndex bufferSize protocol buffer event wrote =>
    obtain ⟨sets, sends⟩ := jalvSendToPlugin_writes wrote
    refine sound.wrote sets (jalvSendToPlugin_keepsPorts wrote) ?_
    cases sends with
    | nothing kept => exact Or.inl kept
    | control _ zero => exact absurd zero event
    | event _ _ _ sent => exact Or.inr ⟨_, rfl, sent⟩
  | send message other sent => exact sound.wrote .refl (.refl _) (Or.inr ⟨message, other, sent⟩)
  | update updated => exact sound.update updated
  | activate runState =>
    exact ⟨sound.arranged.revalued ⟨rfl, rfl, rfl, id, rfl, rfl⟩, sound.updating,
      sound.catching.values rfl fun _ _ => rfl, sound.notices.of_shapes rfl, sound.shown⟩
  | paused nframes idle done => exact (processSilent_begins done).sound sound
  | jackRun cycle idle begun => exact (processCbBegin_begins sound.arranged.indexed begun).sound sound
  | jackFinish output inside done => exact (processCbEnd_ends done).sound sound
  | portAudioRun nframes idle begun => exact (PortAudio.processCbBegin_begins begun).sound sound
  | portAudioFinish output inside done =>
    exact (PortAudio.processCbEnd_ends sound.arranged.indexed done).sound sound

theorem ControlRun.sound_initial (initial : (controlSystem backend start).initial run) : run.Sound start := by
  obtain ⟨plugin, _, _, _, _, jalv, toPlugin, toUi, first, fresh, types, defaults, opened, updating, ring, small, back,
    few, _, none, rfl⟩ := initial
  have loaded := jalvOpen_loaded fresh types defaults opened
  refine ⟨⟨loaded, jalvOpen_placed first fresh opened, loaded.indexed⟩, updating, ?_, ?_, fun index value _ set => ?_⟩
  · rw [ring, ControlRun.sentEntries, none]
    exact ⟨small, [], rfl, fun index _ => .begin index _⟩
  · rw [back]
    exact ⟨few, [], rfl, fun _ member => by cases member⟩
  · rw [ControlRun.lastSet, none] at set
    cases set

end

def agreeTestOpened : ControlRun where
  jalv :=
    match jalvOpen (lookupTestPlugin false) 1024 0 (fun _ _ => 0) (fun _ => 0) lookupTestHost with
    | some (.ok jalv) => jalv
    | _ => lookupTestHost
  uiToPlugin := .empty 4095
  pluginToUi := .empty 4095
  running := none
  changes := []

def agreeTestSet : ControlRun :=
  match jalvSetControl agreeTestOpened.jalv (.empty 4095) 0 (floatAtom agreeTestOpened.jalv 0x3F800000) with
  | some (_, jalv, uiToPlugin) => { agreeTestOpened with jalv, uiToPlugin, changes := [⟨0, 0x3F800000, true⟩] }
  | none => agreeTestOpened

end Jalv
