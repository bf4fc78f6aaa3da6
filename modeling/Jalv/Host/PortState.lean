import Jalv.Foundation.Transition
import Jalv.Host.Restoring
import Jalv.Process.Shape

/-! The round trip of the values of the ports through a saved state.

The values are collected in one run and applied in another one, and in a running
state they reach the ports when the process takes the messages.
-/

set_option autoImplicit false

namespace Jalv

open Foundation

/-- The values of the control input ports are the saved ones, and all others are as before. -/
def ValuesRestored (ports : List JalvPort) (saved before after : List UInt32) : Prop :=
  after.length = before.length ∧ ∀ (index : Nat) (port : JalvPort), ports[index]? = some port →
    after[index]? = if port.IsSaved then saved[index]? else before[index]?

def OthersKept (ports : List JalvPort) (before after : List UInt32) : Prop :=
  ∀ (index : Nat) (port : JalvPort), ports[index]? = some port → ¬port.IsSaved → after[index]? = before[index]?

structure LoadedHost where
  jalv : JalvImpl
  uiToPlugin : ZixRing
  pluginToUi : ZixRing

/-- The calls of the main thread after a plugin has been opened, and the process thread, which may change its
values and leaves whole messages in its ring. -/
inductive LoadedStep : LoadedHost → LoadedHost → Prop where
  | write {state : LoadedHost} {jalv : JalvImpl} {uiToPlugin : ZixRing} (portIndex bufferSize protocol : UInt32)
      (buffer : Memory Byte)
      (wrote : jalvSendToPlugin state.jalv state.uiToPlugin portIndex bufferSize protocol buffer =
        some (jalv, uiToPlugin)) : LoadedStep state { state with jalv, uiToPlugin }
  | setControl {state : LoadedHost} {status : Nat} {jalv : JalvImpl} {uiToPlugin : ZixRing} (pointer : Nat)
      (atom : Atom) (set : jalvSetControl state.jalv state.uiToPlugin pointer atom = some (status, jalv, uiToPlugin)) :
      LoadedStep state { state with jalv, uiToPlugin }
  | setPort {state : LoadedHost} {jalv : JalvImpl} {uiToPlugin pluginToUi : ZixRing} (symbol : Text) (atom : Atom)
      (set : setPortValue state.jalv state.uiToPlugin state.pluginToUi symbol atom =
        some (jalv, uiToPlugin, pluginToUi)) : LoadedStep state ⟨jalv, uiToPlugin, pluginToUi⟩
  | send {state : LoadedHost} {uiToPlugin : ZixRing} (message : UiMessage)
      (sent : Sends state.uiToPlugin uiToPlugin message) : LoadedStep state { state with uiToPlugin }
  | update {state : LoadedHost} {status : UpdateStatus} {jalv : JalvImpl} {pluginToUi : ZixRing}
      (updated : jalvUpdate state.jalv state.pluginToUi = some (status, jalv, pluginToUi)) :
      LoadedStep state { state with jalv, pluginToUi }
  | process {state : LoadedHost} (process : JalvProcess) (uiToPlugin pluginToUi : ZixRing)
      (ports : process.ports.length = state.jalv.process.ports.length)
      (values : process.controlsBuf.length = state.jalv.process.controlsBuf.length)
      (capacity : uiToPlugin.capacity = state.uiToPlugin.capacity)
      (queued : ∃ messages, uiToPlugin.content = stream UiMessage.encode messages) :
      LoadedStep state ⟨{ state.jalv with process }, uiToPlugin, pluginToUi⟩

def loadedSystem : TransitionSystem LoadedHost where
  initial state := ∃ plugin midiBufSize updateFrames contents message jalv capacity,
    jalv.controls = [] ∧ jalv.forge.float ≠ jalv.forge.double ∧ plugin.defaults.length = plugin.ports.length ∧
      jalvOpen plugin midiBufSize updateFrames contents message jalv = some (.ok state.jalv) ∧
      state.uiToPlugin = .empty capacity ∧ capacity < 2 ^ 32
  step := LoadedStep

/-- The values of all ports can be collected. In whatever order they are applied, each of them is then the value of
its control. In a paused state they are the values of the ports at once. In a running state nothing but the messages
that were sent before changes the values of other ports, and the saved ones are there as soon as the messages are
applied, if there was room for one for each value. -/
def PortStateRoundTrip (source : JalvImpl) (state : LoadedHost) : Prop :=
  ∃ values, portValues source source.ports = some values ∧ ∀ order : List (Text × Atom), order.Perm values →
    ∃ next toPlugin toUi,
      setPortValues order state.jalv state.uiToPlugin state.pluginToUi = some (next, toPlugin, toUi) ∧
      (∀ port ∈ state.jalv.ports, port.IsSaved →
        ∃ value, source.process.controlsBuf[port.index.toNat]? = some value ∧ next.ControlHas port value) ∧
      (state.jalv.process.runState ≠ .running →
        ValuesRestored state.jalv.ports source.process.controlsBuf state.jalv.process.controlsBuf
          next.process.controlsBuf) ∧
      (state.jalv.process.runState = .running → next.process = state.jalv.process ∧
        ∀ nframes status drained rest,
          applyUiEvents state.jalv.process state.uiToPlugin nframes = some (status, drained, rest) →
          ∃ after left, applyUiEvents next.process toPlugin nframes = some (.success, after, left) ∧
            OthersKept state.jalv.ports drained.controlsBuf after.controlsBuf ∧
            (16 * values.length ≤ state.uiToPlugin.writeSpace →
              ValuesRestored state.jalv.ports source.process.controlsBuf drained.controlsBuf after.controlsBuf))

structure LoadedHost.Sound (state : LoadedHost) : Prop where
  loaded : state.jalv.Loaded
  small : state.uiToPlugin.capacity < 2 ^ 32
  queued : ∃ messages, state.uiToPlugin.content = stream UiMessage.encode messages

section

variable {state next : LoadedHost}

theorem LoadedHost.Sound.sent {jalv : JalvImpl} {uiToPlugin pluginToUi : ZixRing} (sound : state.Sound)
    (revalued : state.jalv.Revalued jalv)
    (sends : uiToPlugin = state.uiToPlugin ∨ ∃ message : UiMessage, Sends state.uiToPlugin uiToPlugin message) :
    LoadedHost.Sound ⟨jalv, uiToPlugin, pluginToUi⟩ := by
  obtain ⟨messages, content⟩ := sound.queued
  rcases sends with rfl | ⟨message, sent⟩
  · exact ⟨sound.loaded.revalued revalued, sound.small, messages, content⟩
  · exact ⟨sound.loaded.revalued revalued, sent.content.1 ▸ sound.small, messages ++ [message], sent.stream content⟩

theorem UiSends.sends {jalv : JalvImpl} {ring after : ZixRing} {portIndex bufferSize protocol : UInt32}
    {buffer : Memory Byte} (sends : UiSends jalv ring after portIndex bufferSize protocol buffer) :
    after = ring ∨ ∃ message : UiMessage, Sends ring after message := by
  cases sends with
  | nothing kept => exact Or.inl kept
  | control _ _ _ sent => exact Or.inr ⟨_, sent⟩
  | event _ _ _ sent => exact Or.inr ⟨_, sent⟩

theorem LoadedStep.sound (sound : state.Sound) (step : LoadedStep state next) : next.Sound := by
  cases step with
  | write portIndex bufferSize protocol buffer wrote =>
    obtain ⟨sets, sends⟩ := jalvSendToPlugin_writes wrote
    exact sound.sent sets.revalued sends.sends
  | setControl pointer atom set =>
    obtain ⟨sets, sends⟩ := jalvSetControl_writes set
    refine sound.sent sets.revalued ?_
    rcases sends with kept | ⟨_, _, _, _, _, sent⟩ | ⟨_, _, _, sent⟩
    · exact Or.inl kept
    · exact Or.inr ⟨_, sent⟩
    · exact Or.inr ⟨_, sent⟩
  | setPort symbol atom set =>
    exact sound.sent (setPortValue_revalued set) ((setPortValue_frame set).2.imp_right fun ⟨_, _, sent⟩ => ⟨_, sent⟩)
  | send message sent => exact sound.sent (.refl _) (Or.inr ⟨message, sent⟩)
  | update updated => exact sound.sent (jalvUpdate_sets updated).revalued (Or.inl rfl)
  | process process uiToPlugin pluginToUi ports values capacity queued =>
    exact ⟨sound.loaded.revalued ⟨rfl, rfl, rfl, id, ports, values⟩, by rw [capacity]; exact sound.small, queued⟩

theorem LoadedHost.sound (reachable : loadedSystem.Reachable state) : state.Sound := by
  refine TransitionSystem.invariant (fun start initial => ?_) (fun _ _ sound step => ?_) reachable
  rotate_left
  · exact LoadedStep.sound sound step
  obtain ⟨plugin, _, _, _, _, jalv, capacity, fresh, types, defaults, opened, ring, small⟩ := initial
  refine ⟨jalvOpen_loaded fresh types defaults opened, by rw [ring]; exact small, [], by rw [ring]; rfl⟩

end

-- What is drained changes the values in their places, but not how many there are.
theorem applyUiEvents_lengths {proc next : JalvProcess} {ring rest : ZixRing} {nframes : UInt32}
    {status : JalvProcessStatus}
    (applied : applyUiEvents proc ring nframes = some (status, next, rest)) :
    next.ports.length = proc.ports.length ∧ next.controlsBuf.length = proc.controlsBuf.length := by
  have same {before after : JalvProcess} (shapes : after.shapes = before.shapes) :
      after.ports.length = before.ports.length := by
    have length := congrArg List.length shapes
    rwa [JalvProcess.shapes, JalvProcess.shapes, List.length_map, List.length_map] at length
  refine ⟨same (applyUiEvents_shapes applied), ?_⟩
  refine @applyUiEvents_invariant _ _ _ _ _ _ (fun now => now.controlsBuf.length = proc.controlsBuf.length)
    ?_ ?_ applied rfl
  · exact fun _ _ kept => kept
  · intro now message after kept effect
    cases effect with
    | controlPortChange _ changed =>
      rw [changed]
      exact List.length_set.trans kept
    | runStateChange changed => rwa [changed]
    | eventTransfer appended =>
      obtain ⟨_, _, _, _, changed⟩ := appendEvent_cases appended
      rwa [changed]
    | stateRequest _ _ _ appended =>
      obtain ⟨_, _, _, _, changed⟩ := appendEvent_cases appended
      rwa [changed]

theorem accept_valueMessages {proc : JalvProcess} {nframes : UInt32} {entries : List (JalvPort × UInt32)}
    (inside : ∀ entry ∈ entries, entry.1.index.toNat < proc.ports.length ∧
      entry.1.index.toNat < proc.controlsBuf.length) :
    (entries.map valueMessage).foldlM (accept nframes) proc =
      some { proc with controlsBuf := writeValues entries proc.controlsBuf } := by
  induction entries generalizing proc with
  | nil => rfl
  | cons entry rest ih =>
    rw [List.forall_mem_cons] at inside
    have first : accept nframes proc (valueMessage entry) =
        some { proc with controlsBuf := proc.controlsBuf.set entry.1.index.toNat entry.2 } := by
      have readable : (valueMessage entry).Readable proc.processMsgSize := trivial
      rw [accept, if_pos readable]
      exact if_pos inside.1
    rw [List.map_cons, List.foldlM_cons, first]
    refine ih fun other member => ?_
    rw [List.length_set]
    exact inside.2 other member

section

variable {jalv : JalvImpl} {entries : List (JalvPort × UInt32)} {saved before : List UInt32}

theorem othersKept_writeValues (loaded : jalv.Loaded)
    (among : ∀ entry ∈ entries, entry.1 ∈ jalv.ports ∧ entry.1.IsSaved) :
    OthersKept jalv.ports before (writeValues entries before) := by
  intro index port here other
  refine getElem?_foldl_set_of_not_mem fun written => ?_
  obtain ⟨entry, member, same⟩ := List.mem_map.mp written
  have own := loaded.getElem?_index (among entry member).1
  rw [same, here] at own
  cases own
  exact other (among entry member).2

/-- The values of all control input ports, in any order, are in their places after they have been written. -/
theorem valuesRestored_writeValues (loaded : jalv.Loaded)
    (perm : (entries.map Prod.fst).Perm (jalv.ports.filter fun port => port.IsSaved))
    (among : ∀ entry ∈ entries, entry.1 ∈ jalv.ports ∧ entry.1.IsSaved)
    (values : ∀ entry ∈ entries, saved[entry.1.index.toNat]? = some entry.2)
    (length : before.length = jalv.ports.length) :
    ValuesRestored jalv.ports saved before (writeValues entries before) := by
  have apart : (entries.map fun entry => entry.1.index.toNat).Nodup := by
    have all : (jalv.ports.map fun port => port.index.toNat).Nodup := loaded.positions ▸ List.nodup_range
    have some : ((jalv.ports.filter fun port => port.IsSaved).map fun port => port.index.toNat).Nodup :=
      all.sublist (List.filter_sublist.map _)
    rwa [← (perm.map _).nodup_iff, List.map_map] at some
  refine ⟨length_foldl_set _ _, fun index port here => ?_⟩
  have place := loaded.indices index port here
  subst place
  obtain ⟨inside, _⟩ := List.getElem?_eq_some_iff.mp here
  split
  · next isSaved =>
    have listed : port ∈ entries.map Prod.fst := by
      rw [perm.mem_iff, List.mem_filter, decide_eq_true_iff]
      exact ⟨List.mem_of_getElem? here, isSaved⟩
    obtain ⟨entry, member, rfl⟩ := List.mem_map.mp listed
    rw [values entry member]
    exact getElem?_foldl_set_of_mem apart member (inside.trans_eq length.symm)
  · next other => exact othersKept_writeValues loaded among _ port here other

end

/-- The values that are collected in one run can be applied in any order in another run of a plugin with the same
ports, whatever either run has done before. -/
theorem portStateRoundTrip {source state : LoadedHost} (saved : loadedSystem.Reachable source)
    (reached : loadedSystem.Reachable state) (ports : source.jalv.ports = state.jalv.ports)
    (float : source.jalv.forge.float = state.jalv.forge.float)
    (distinct : (state.jalv.ports.map JalvPort.symbol).Nodup) : PortStateRoundTrip source.jalv state := by
  have sound := LoadedHost.sound reached
  have loaded := sound.loaded
  obtain ⟨collected, values, order, found⟩ :=
    portValues_saved (LoadedHost.sound saved).loaded (by rw [ports]; exact distinct) fun _ member => member
  rw [ports] at order
  rw [float] at values
  refine ⟨_, values, fun given perm => ?_⟩
  obtain ⟨entries, perm', rfl⟩ := exists_map_of_perm perm
  have found (entry : JalvPort × UInt32) (member : entry ∈ entries) :
      source.jalv.process.controlsBuf[entry.1.index.toNat]? = some entry.2 := found entry (perm'.mem_iff.mp member)
  have all : (entries.map Prod.fst).Perm (state.jalv.ports.filter fun port => port.IsSaved) := order ▸ perm'.map _
  have among (entry : JalvPort × UInt32) (member : entry ∈ entries) : entry.1 ∈ state.jalv.ports ∧ entry.1.IsSaved := by
    have listed := all.mem_iff.mp (List.mem_map_of_mem member)
    rwa [List.mem_filter, decide_eq_true_iff] at listed
  have different : (entries.map (·.1.symbol)).Nodup := by
    have some : ((state.jalv.ports.filter fun port => port.IsSaved).map JalvPort.symbol).Nodup :=
      distinct.sublist (List.filter_sublist.map _)
    rwa [← (all.map _).nodup_iff, List.map_map] at some
  obtain ⟨next, toPlugin, toUi, set, restored⟩ := setPortValues_restored loaded distinct
    (fun entry member => ⟨(among entry member).1, (among entry member).2.2⟩) different state.uiToPlugin state.pluginToUi
  refine ⟨next, toPlugin, toUi, set, fun port member isSaved => ?_, fun idle => ?_, fun busy => ?_⟩
  · have listed : port ∈ entries.map Prod.fst := by
      rw [all.mem_iff, List.mem_filter, decide_eq_true_iff]
      exact ⟨member, isSaved⟩
    obtain ⟨entry, own, rfl⟩ := List.mem_map.mp listed
    exact ⟨entry.2, found entry own, restored.has entry own⟩
  · rw [restored.paused idle]
    exact valuesRestored_writeValues loaded all among found loaded.values
  · obtain ⟨unchanged, sent, part, capacity, content, whole⟩ := restored.running busy
    refine ⟨unchanged, fun nframes status drained rest applied => ?_⟩
    obtain ⟨messages, queued⟩ := sound.queued
    have lengths := applyUiEvents_lengths applied
    rw [applyUiEvents_eq nframes sound.small queued] at applied
    obtain ⟨_, accepted, same⟩ := Option.map_eq_some_iff.mp applied
    cases same
    have inside (entry : JalvPort × UInt32) (member : entry ∈ sent) :
        entry.1.index.toNat < drained.ports.length ∧ entry.1.index.toNat < drained.controlsBuf.length := by
      have port := (among entry (part.subset member)).1
      obtain ⟨position, _⟩ := List.getElem?_eq_some_iff.mp (loaded.getElem?_index port)
      rw [lengths.1, lengths.2, loaded.ports, loaded.values]
      exact ⟨position, position⟩
    have streamed : toPlugin.content = stream UiMessage.encode (messages ++ sent.map valueMessage) := by
      rw [content, queued, stream_append]
    refine ⟨{ drained with controlsBuf := writeValues sent drained.controlsBuf },
      ⟨toPlugin.capacity, [], Nat.zero_le _⟩,
      ?_, othersKept_writeValues loaded fun entry member => among entry (part.subset member), fun room => ?_⟩
    · rw [unchanged, applyUiEvents_eq nframes (capacity ▸ sound.small) streamed, List.foldlM_append, accepted]
      exact congrArg (Option.map _) (accept_valueMessages inside)
    · rw [List.length_map, ← perm'.length_eq] at room
      rw [whole room]
      exact valuesRestored_writeValues loaded all among found (lengths.2.trans loaded.values)

def portStateTestPlugin : LilvPlugin where
  ports := [{ lookupTestPort false with symbol := [97] }, { lookupTestPort true with symbol := [98] },
    { lookupTestPort true with symbol := [99] }]
  few := by decide
  defaults := [0, 0, 0]
  writable := []
  readable := []
  threadSafeRestore := false

def portStateTestHost : LoadedHost where
  jalv :=
    match jalvOpen portStateTestPlugin 1024 0 (fun _ _ => 0) (fun _ => 0) lookupTestHost with
    | some (.ok jalv) => jalv
    | _ => lookupTestHost
  uiToPlugin := .empty 4095
  pluginToUi := .empty 4095

def portStateTestState (runState : JalvRunState) (first second : UInt32) : LoadedHost :=
  let process := { portStateTestHost.jalv.process with runState, controlsBuf := [0, first, second] }
  { portStateTestHost with jalv := { portStateTestHost.jalv with process } }

theorem portStateTestState_reachable (runState : JalvRunState) (first second : UInt32) :
    loadedSystem.Reachable (portStateTestState runState first second) := by
  have opened : jalvOpen portStateTestPlugin 1024 0 (fun _ _ => 0) (fun _ => 0) lookupTestHost =
      some (.ok portStateTestHost.jalv) := rfl
  have started : loadedSystem.initial portStateTestHost :=
    ⟨portStateTestPlugin, 1024, 0, fun _ _ => 0, fun _ => 0, lookupTestHost, 4095, rfl, by decide, rfl, opened, rfl,
      by decide⟩
  have changed : LoadedStep portStateTestHost (portStateTestState runState first second) :=
    .process _ _ _ rfl rfl rfl ⟨[], rfl⟩
  exact ⟨portStateTestHost, started, .single changed⟩

/-- The values 1.0 and 2.0 are restored in a state with other values, whether it runs or is paused. -/
theorem portStateRoundTrip_test :
    PortStateRoundTrip (portStateTestState .running 0x3F800000 0x40000000).jalv
        (portStateTestState .running 0x3F000000 0) ∧
      PortStateRoundTrip (portStateTestState .running 0x3F800000 0x40000000).jalv
        (portStateTestState .paused 0x3F000000 0) := by
  have saved := portStateTestState_reachable .running 0x3F800000 0x40000000
  constructor
  · exact portStateRoundTrip saved (portStateTestState_reachable .running 0x3F000000 0) rfl rfl (by decide)
  · exact portStateRoundTrip saved (portStateTestState_reachable .paused 0x3F000000 0) rfl rfl (by decide)

end Jalv
