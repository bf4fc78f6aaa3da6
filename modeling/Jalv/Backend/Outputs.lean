import Jalv.Backend.Agreement

/-! What the program shows of the values that a plugin puts out (PortAudio).

From time to time a cycle sends the values of all control output ports. What is lost is
only what finds no room in the ring. An update gives the controls the values that came.
-/

set_option autoImplicit false

namespace Jalv

open Foundation

def keptMessages : ZixRing → List UiMessage → List UiMessage
  | _, [] => []
  | ring, message :: rest =>
    if (ring.writeAll message.parts).isSome then message :: keptMessages (attempt ring message) rest
    else keptMessages (attempt ring message) rest

/-- The program with the values that the controls of ports were given, in order, and the messages that wait
in the ring to the main thread. -/
structure OutputRun extends ControlRun where
  given : List (Nat × UInt32)
  pending : List UiMessage

/-- The steps with cycles of PortAudio. A control is given a value where it is set, and by messages. -/
inductive OutputStep (backend : JalvBackend) : OutputRun → OutputRun → Prop where
  | setPort {run : OutputRun} {control : Control} {status : Nat} {jalv : JalvImpl} {uiToPlugin : ZixRing}
      (pointer : Nat) (index value : UInt32) (found : run.jalv.controls[pointer]? = some control)
      (port : control.id = .port index)
      (set : jalvSetControl run.jalv run.uiToPlugin pointer (floatAtom run.jalv value) =
        some (status, jalv, uiToPlugin)) :
      OutputStep backend run { run with
        jalv, uiToPlugin, changes := run.changes ++ [⟨index, value, 16 ≤ run.uiToPlugin.writeSpace⟩]
        given := run.given ++ [(index.toNat, value)] }
  | setProperty {run : OutputRun} {control : Control} {status : Nat} {jalv : JalvImpl} {uiToPlugin : ZixRing}
      (pointer : Nat) (urid : URID) (atom : Atom) (found : run.jalv.controls[pointer]? = some control)
      (property : control.id = .property urid)
      (set : jalvSetControl run.jalv run.uiToPlugin pointer atom = some (status, jalv, uiToPlugin)) :
      OutputStep backend run { run with jalv, uiToPlugin }
  | write {run : OutputRun} {jalv : JalvImpl} {uiToPlugin : ZixRing} (portIndex bufferSize protocol : UInt32)
      (buffer : Memory Byte) (event : protocol ≠ 0)
      (wrote : jalvSendToPlugin run.jalv run.uiToPlugin portIndex bufferSize protocol buffer =
        some (jalv, uiToPlugin)) :
      OutputStep backend run { run with jalv, uiToPlugin }
  | send {run : OutputRun} {uiToPlugin : ZixRing} (message : UiMessage) (other : message.assignments = [])
      (sent : Sends run.uiToPlugin uiToPlugin message) : OutputStep backend run { run with uiToPlugin }
  | update {run : OutputRun} {status : UpdateStatus} {jalv : JalvImpl} {pluginToUi : ZixRing}
      (updated : jalvUpdate run.jalv run.pluginToUi = some (status, jalv, pluginToUi)) :
      OutputStep backend run { run with
        jalv, pluginToUi, given := run.given ++ run.pending.flatMap UiMessage.assignments, pending := [] }
  | activate {run : OutputRun} (runState : JalvRunState) :
      OutputStep backend run { run with jalv := { run.jalv with process := { run.jalv.process with runState } } }
  | paused {run : OutputRun} {jack : JackProcess} (nframes : UInt32) (idle : run.running = none)
      (done : processSilent run.jack nframes = some jack) :
      OutputStep backend run { run with toJackHost := run.processed jack }
  | run {run : OutputRun} {jack : JackProcess} {pst : JalvProcessStatus} (nframes : UInt32)
      (idle : run.running = none) (begun : PortAudio.processCbBegin run.jack nframes = some (pst, jack)) :
      OutputStep backend run { run with toJackHost := run.processed jack, running := some (pst, nframes) }
  | finish {run : OutputRun} {jack : JackProcess} {pst : JalvProcessStatus} {nframes : UInt32}
      {messages : List UiMessage} (output : PluginOutput) (inside : run.running = some (pst, nframes))
      (reports : cycleMessages run.jack output (sendsUpdates pst run.jack nframes output) = some messages)
      (done : PortAudio.processCbEnd pst run.jack nframes output = some jack) :
      OutputStep backend run { run with
        toJackHost := run.processed jack, running := none
        pending := run.pending ++ keptMessages run.pluginToUi messages }

def outputSystem (backend : JalvBackend) (start : List UInt32) : TransitionSystem OutputRun where
  initial run := (controlSystem backend start).initial run.toControlRun ∧ run.given = [] ∧ run.pending = []
  step := OutputStep backend

def JalvImpl.ShowsGiven (jalv : JalvImpl) (given : List (Nat × UInt32)) : Prop :=
  ∀ index value control, jalv.controls[index.toNat]? = some control → control.id = .port index →
    assigned given index.toNat none = some value → jalv.Shows index value

/-- Each control of a port shows the last value that it was given, and an update behind a cycle that sends
updates shows the values that the plugin has put out in this cycle, if there was room for them. -/
structure OutputRun.Shown (run : OutputRun) : Prop where
  shown : run.jalv.ShowsGiven run.given
  updated : ∀ pst nframes output jack messages status jalv pluginToUi, run.running = some (pst, nframes) →
    PortAudio.processCbEnd pst run.jack nframes output = some jack → sendsUpdates pst run.jack nframes output = true →
    cycleMessages run.jack output true = some messages →
    (stream UiMessage.encode messages).length ≤ run.pluginToUi.writeSpace →
    jalvUpdate (run.processed jack).jalv jack.pluginToUi = some (status, jalv, pluginToUi) →
    ∀ index port control, run.jalv.process.ports[index.toNat]? = some port → port.type = .control →
      port.flow = .output → run.jalv.controls[index.toNat]? = some control → control.id = .port index →
        jalv.Shows index (output.control index.toNat)

section

variable {jalv next : JalvImpl} {ring : ZixRing} {messages : List UiMessage} {given : List (Nat × UInt32)}

theorem keptMessages_content (ring : ZixRing) (messages : List UiMessage) :
    (messages.foldl attempt ring).capacity = ring.capacity ∧
      (messages.foldl attempt ring).content =
        ring.content ++ stream UiMessage.encode (keptMessages ring messages) := by
  induction messages generalizing ring with
  | nil => simp [keptMessages]
  | cons message rest ih =>
    obtain ⟨capacity, content⟩ := ih (attempt ring message)
    rw [List.foldl_cons, keptMessages]
    cases written : ring.writeAll message.parts with
    | none =>
      have same : attempt ring message = ring := by rw [attempt, written, Option.getD_none]
      rw [same] at capacity content ⊢
      exact ⟨capacity, content⟩
    | some after =>
      have same : attempt ring message = after := by rw [attempt, written, Option.getD_some]
      obtain ⟨kept, appended, _⟩ := Sends.content written
      rw [same] at capacity content ⊢
      rw [Option.isSome_some, if_pos rfl, stream_cons, ← List.append_assoc, ← appended]
      exact ⟨capacity.trans kept, content⟩

theorem keptMessages_subset (ring : ZixRing) (messages : List UiMessage) : keptMessages ring messages ⊆ messages := by
  induction messages generalizing ring with
  | nil => exact List.nil_subset _
  | cons message rest ih =>
    unfold keptMessages
    split
    · exact List.cons_subset_cons message (ih _)
    · exact List.subset_cons_of_subset message (ih _)

theorem keptMessages_eq (room : (stream UiMessage.encode messages).length ≤ ring.writeSpace) :
    keptMessages ring messages = messages := by
  induction messages generalizing ring with
  | nil => rfl
  | cons message rest ih =>
    rw [stream_cons, List.length_append] at room
    have fits : ¬ ring.writeAll message.parts = none := by
      rw [writeAll_parts_eq_none_iff]
      omega
    obtain ⟨after, written⟩ := Option.ne_none_iff_exists'.mp fits
    obtain ⟨capacity, content, _⟩ := Sends.content written
    have left : (stream UiMessage.encode rest).length ≤ after.writeSpace := by
      rw [Fifo.writeSpace, capacity, content, List.length_append]
      rw [Fifo.writeSpace] at room
      omega
    have same : attempt ring message = after := by rw [attempt, written, Option.getD_some]
    rw [keptMessages, written, Option.isSome_some, if_pos rfl, same, ih left]

theorem JalvImpl.KeepsPorts.showsGiven (keeps : jalv.KeepsPorts next)
    (names : next.controls.map Control.name = jalv.controls.map Control.name) (shown : jalv.ShowsGiven given) :
    next.ShowsGiven given := by
  intro index value control found id assigned
  have names := congrArg (·[index.toNat]?) names
  simp only [List.getElem?_map, found, Option.map_some] at names
  obtain ⟨before, here, same⟩ := Option.map_eq_some_iff.mp names.symm
  exact keeps.shows (shown index value before here ((congrArg Prod.fst same).trans id) assigned)

theorem handleMessage_showsGiven {message : UiMessage} (arranged : jalv.Arranged) (forUi : message.ForUi)
    (handled : handleMessage jalv message = some next) (shown : jalv.ShowsGiven given) :
    next.ShowsGiven (given ++ message.assignments) := by
  have revalued := (handleMessage_sets handled).revalued
  cases message with
  | controlPortChange portIndex value =>
    obtain ⟨forge, others, own⟩ := handleMessage_control arranged.loaded.freeable handled
    intro index latest control found id last
    have names := congrArg (·[index.toNat]?) revalued.names
    simp only [List.getElem?_map, found, Option.map_some] at names
    obtain ⟨before, here, same⟩ := Option.map_eq_some_iff.mp names.symm
    rw [assigned_append] at last
    by_cases changed : index = portIndex
    · subst changed
      obtain ⟨store, held, stored⟩ := own before here
      rw [found, Option.some.injEq] at stored
      have value' : some value = some latest := by
        rw [← last]
        exact (if_pos rfl).symm
      rw [Option.some.injEq] at value'
      subst value' stored
      exact ⟨_, found, id, forge ▸ held⟩
    · have apart : portIndex.toNat ≠ index.toNat := fun equal => changed (UInt32.toNat_inj.mp equal.symm)
      have kept : assigned given index.toNat none = some latest := by
        rw [← last]
        exact (if_neg apart).symm
      obtain ⟨holder, there, port, held⟩ := shown index latest before here ((congrArg Prod.fst same).trans id) kept
      exact ⟨holder, (others _ apart.symm).trans there, port, forge ▸ held⟩
  | eventTransfer =>
    have none : given ++ (UiMessage.eventTransfer ‹_› ‹_›).assignments = given := List.append_nil _
    rw [none]
    exact (handleMessage_event handled).showsGiven revalued.names shown
  | stateRequest | runStateChange => exact forUi.elim

theorem handleMessages_showsGiven (arranged : jalv.Arranged) (forUi : ∀ message ∈ messages, message.ForUi)
    (handled : messages.foldlM handleMessage jalv = some next) (shown : jalv.ShowsGiven given) :
    next.ShowsGiven (given ++ messages.flatMap UiMessage.assignments) := by
  induction messages generalizing jalv given with
  | nil =>
    rw [List.foldlM_nil, Option.pure_def, Option.some.injEq] at handled
    subst handled
    rwa [List.flatMap_nil, List.append_nil]
  | cons message rest ih =>
    rw [List.foldlM_cons] at handled
    obtain ⟨middle, first, others⟩ := Option.bind_eq_some_iff.mp handled
    obtain ⟨own, remaining⟩ := List.forall_mem_cons.mp forUi
    rw [List.flatMap_cons, ← List.append_assoc]
    exact ih (arranged.revalued (handleMessage_sets first).revalued) remaining others
      (handleMessage_showsGiven arranged own first shown)

/-- An update gives the controls what is in the ring. -/
theorem jalvUpdate_showsGiven {rest : ZixRing} {status : UpdateStatus} (arranged : jalv.Arranged)
    (content : ring.content = stream UiMessage.encode messages) (small : ring.capacity < 2 ^ 32)
    (forUi : ∀ message ∈ messages, message.ForUi) (updated : jalvUpdate jalv ring = some (status, next, rest))
    (shown : jalv.ShowsGiven given) :
    rest.capacity = ring.capacity ∧ rest.content = [] ∧
      next.ShowsGiven (given ++ messages.flatMap UiMessage.assignments) := by
  obtain ⟨capacity, empty, last, handled, rfl⟩ := jalvUpdate_messages content small forUi updated
  have began : JalvImpl.Arranged { jalv with updating := true } := arranged.revalued ⟨rfl, rfl, rfl, id, rfl, rfl⟩
  have given' : last.ShowsGiven _ := handleMessages_showsGiven began forUi handled shown
  exact ⟨capacity, empty, given'⟩

end

section

variable {controlsBuf : List UInt32} {sendUpdates : Bool} {index : Nat} {port : JalvProcessPort}
  {messages : List UiMessage}

/-- A cycle sends of a port its events or its own value. -/
theorem outputMessages_own (reported : outputMessages controlsBuf sendUpdates index port = some messages)
    (small : index < 2 ^ 32) :
    (∀ message ∈ messages, message.ForUi) ∧ ∀ entry ∈ messages.flatMap UiMessage.assignments, entry.1 = index := by
  have none : (∀ message ∈ ([] : List UiMessage), message.ForUi) ∧
      ∀ entry ∈ ([] : List UiMessage).flatMap UiMessage.assignments, entry.1 = index := by simp
  unfold outputMessages at reported
  split at reported
  · obtain ⟨_, _, rfl⟩ := Option.map_eq_some_iff.mp reported
    exact none
  · split at reported
    · obtain ⟨evbuf, _, more⟩ := Option.bind_eq_some_iff.mp reported
      obtain ⟨events, _, same⟩ := Option.bind_eq_some_iff.mp more
      cases same
      constructor
      · intro message member
        obtain ⟨event, _, rfl⟩ := List.mem_map.mp member
        trivial
      · intro entry member
        obtain ⟨message, among, inside⟩ := List.mem_flatMap.mp member
        obtain ⟨event, _, rfl⟩ := List.mem_map.mp among
        cases inside
    · split at reported
      · obtain ⟨value, _, same⟩ := Option.bind_eq_some_iff.mp reported
        cases same
        constructor
        · intro message member
          rw [List.mem_singleton.mp member]
          trivial
        · intro entry member
          rw [List.flatMap_singleton, UiMessage.assignments, List.mem_singleton] at member
          rw [member, UInt32.toNat_ofNat', Nat.mod_eq_of_lt small]
      · cases reported
        exact none

theorem cycleMessages_forUi {jack : JackProcess} {output : PluginOutput} (indexed : jack.proc.Indexed)
    (reported : cycleMessages jack output sendUpdates = some messages) : ∀ message ∈ messages, message.ForUi := by
  intro message member
  obtain ⟨index, port, traced, found, reports, among⟩ := mem_collectFrom reported member
  obtain ⟨inside, _⟩ := List.getElem?_eq_some_iff.mp found
  have small : 0 + index < 2 ^ 32 := by
    have bound : (lilvInstanceRun jack.proc output).ports.length ≤ 2 ^ 32 := List.length_mapIdx.trans_le indexed
    omega
  exact (outputMessages_own reports small).1 message among

/-- The values that a cycle sends of its control output ports are those that the plugin has put out. -/
theorem cycleMessages_output {jack : JackProcess} {output : PluginOutput} (indexed : jack.proc.Indexed)
    (values : jack.proc.controlsBuf.length = jack.proc.ports.length)
    (reported : cycleMessages jack output true = some messages) (found : jack.proc.ports[index]? = some port)
    (type : port.type = .control) (flow : port.flow = .output) (before : Option UInt32) :
    assigned (messages.flatMap UiMessage.assignments) index before = some (output.control index) := by
  obtain ⟨inside, _⟩ := List.getElem?_eq_some_iff.mp found
  have small (other : Nat) (bound : other < (lilvInstanceRun jack.proc output).ports.length) : 0 + other < 2 ^ 32 := by
    have length : (lilvInstanceRun jack.proc output).ports.length = jack.proc.ports.length := List.length_mapIdx
    rw [JalvProcess.Indexed] at indexed
    omega
  have written : (lilvInstanceRun jack.proc output).ports[index]? = some port := by
    rw [lilvInstanceRun, List.getElem?_mapIdx, found, Option.map_some, PluginOutput.writePort]
    simp [type]
  have value : (lilvInstanceRun jack.proc output).controlsBuf[index]? = some (output.control index) := by
    rw [lilvInstanceRun, List.getElem?_mapIdx, List.getElem?_eq_getElem (values.symm ▸ inside), Option.map_some]
    simp [PluginOutput.writeControl, found, type, flow]
  have here : outputMessages (lilvInstanceRun jack.proc output).controlsBuf true (0 + index) port =
      some [.controlPortChange (UInt32.ofNat index) (output.control index)] := by
    simp [outputMessages, type, flow, value]
  have own (other : Nat) (item : JalvProcessPort) (traced : List UiMessage)
      (there : (lilvInstanceRun jack.proc output).ports[other]? = some item)
      (reports : outputMessages (lilvInstanceRun jack.proc output).controlsBuf true (0 + other) item = some traced) :
      ∀ entry ∈ traced.flatMap UiMessage.assignments, entry.1 = 0 + other := by
    obtain ⟨bound, _⟩ := List.getElem?_eq_some_iff.mp there
    exact (outputMessages_own reports (small other bound)).2
  have final := collectFrom_assigned own reported written here before
  have place : (UInt32.ofNat index).toNat = index := by
    rw [UInt32.toNat_ofNat', Nat.mod_eq_of_lt]
    exact lt_of_lt_of_le inside indexed
  rw [Nat.zero_add] at final
  rw [final, List.flatMap_singleton, UiMessage.assignments, place]
  exact if_pos rfl

end

section

variable {backend : JalvBackend} {start : List UInt32} {run next : OutputRun}

structure OutputRun.Sound (start : List UInt32) (run : OutputRun) : Prop where
  control : run.toControlRun.Sound start
  small : run.pluginToUi.capacity < 2 ^ 32
  content : run.pluginToUi.content = stream UiMessage.encode run.pending
  forUi : ∀ message ∈ run.pending, message.ForUi
  shown : run.jalv.ShowsGiven run.given

theorem finished_ring {jack after : JackProcess} {pst : JalvProcessStatus} {nframes : UInt32} {output : PluginOutput}
    {messages : List UiMessage}
    (reports : cycleMessages jack output (sendsUpdates pst jack nframes output) = some messages)
    (done : PortAudio.processCbEnd pst jack nframes output = some after) :
    after.pluginToUi = messages.foldl attempt jack.pluginToUi := by
  have attempts := portAudioReports pst jack nframes output jack.pluginToUi
  rw [reports] at attempts
  simp only [done, Option.map_some, Option.some.injEq] at attempts
  exact attempts

theorem processSilent_pluginToUi {jack after : JackProcess} {nframes : UInt32}
    (done : processSilent jack nframes = some after) : after.pluginToUi = jack.pluginToUi := by
  obtain ⟨_, _, same⟩ := Option.bind_eq_some_iff.mp done
  cases same
  rfl

theorem PortAudio.processCbBegin_pluginToUi {jack after : JackProcess} {pst : JalvProcessStatus} {nframes : UInt32}
    (begun : PortAudio.processCbBegin jack nframes = some (pst, after)) : after.pluginToUi = jack.pluginToUi := by
  obtain ⟨_, prepared, _⟩ := Option.bind_eq_some_iff.mp begun
  exact ((PortAudio.processCbBegin_eq_some_iff prepared).mp begun).2

theorem OutputRun.Sound.quiet {next : ControlRun} (sound : run.Sound start) (control : next.Sound start)
    (ring : next.pluginToUi = run.pluginToUi) (keeps : run.jalv.KeepsPorts next.jalv)
    (names : next.jalv.controls.map Control.name = run.jalv.controls.map Control.name) :
    OutputRun.Sound start { run with toControlRun := next } := by
  refine ⟨control, ring ▸ sound.small, ring ▸ sound.content, sound.forUi, ?_⟩
  exact keeps.showsGiven names sound.shown

theorem OutputRun.Sound.setPort {control : Control} {status pointer : Nat} {jalv : JalvImpl} {uiToPlugin : ZixRing}
    {index value : UInt32} (sound : run.Sound start) (found : run.jalv.controls[pointer]? = some control)
    (port : control.id = .port index)
    (set : jalvSetControl run.jalv run.uiToPlugin pointer (floatAtom run.jalv value) =
      some (status, jalv, uiToPlugin)) :
    OutputRun.Sound start { run with
      jalv, uiToPlugin, changes := run.changes ++ [⟨index, value, 16 ≤ run.uiToPlugin.writeSpace⟩]
      given := run.given ++ [(index.toNat, value)] } := by
  have control' := sound.control.setPort found port set
  have arranged := sound.control.arranged
  obtain ⟨store, held, _, rfl, rfl⟩ := jalvSetControl_port
    (arranged.loaded.freeable control (List.mem_of_getElem? found)) found port arranged.loaded.types
      sound.control.updating set
  refine ⟨control', sound.small, sound.content, sound.forUi, fun other latest holder there id last => ?_⟩
  have stores := fun old => @JalvImpl.Shows.stored _ _ _ _ _ other old _ arranged.placed found port held
  rw [assigned_append] at last
  by_cases same : other = index
  · subst same
    have value' : some value = some latest := by
      rw [← last]
      exact (if_pos rfl).symm
    rw [Option.some.injEq] at value'
    subst value'
    exact (stores 0).1
  · have apart : index.toNat ≠ other.toNat := fun equal => same (UInt32.toNat_inj.mp equal.symm)
    have before : assigned run.given other.toNat none = some latest := by
      rw [← last]
      exact (if_neg apart).symm
    have place := arranged.placed pointer control index found port
    have original : run.jalv.controls[other.toNat]? = some holder :=
      (List.getElem?_set_ne (place ▸ apart)).symm.trans there
    exact (stores latest).2 same (sound.shown other latest holder original id before)

theorem OutputRun.Sound.update {status : UpdateStatus} {jalv : JalvImpl} {pluginToUi : ZixRing}
    (sound : run.Sound start) (updated : jalvUpdate run.jalv run.pluginToUi = some (status, jalv, pluginToUi)) :
    OutputRun.Sound start { run with
      jalv, pluginToUi, given := run.given ++ run.pending.flatMap UiMessage.assignments, pending := [] } := by
  obtain ⟨capacity, empty, shown⟩ :=
    jalvUpdate_showsGiven sound.control.arranged sound.content sound.small sound.forUi updated sound.shown
  exact ⟨sound.control.update updated, capacity.symm ▸ sound.small, empty, fun _ member => (by cases member), shown⟩

theorem OutputRun.Sound.finish {jack : JackProcess} {pst : JalvProcessStatus} {nframes : UInt32}
    {messages : List UiMessage} {output : PluginOutput} (sound : run.Sound start)
    (reports : cycleMessages run.jack output (sendsUpdates pst run.jack nframes output) = some messages)
    (done : PortAudio.processCbEnd pst run.jack nframes output = some jack) :
    OutputRun.Sound start { run with
      toJackHost := run.processed jack, running := none
      pending := run.pending ++ keptMessages run.pluginToUi messages } := by
  have indexed := sound.control.arranged.indexed
  have ring := finished_ring reports done
  obtain ⟨capacity, content⟩ := keptMessages_content run.pluginToUi messages
  refine ⟨(PortAudio.processCbEnd_ends indexed done).sound sound.control, ?_, ?_, fun message member => ?_, sound.shown⟩
  · change jack.pluginToUi.capacity < 2 ^ 32
    rw [ring]
    exact capacity.symm ▸ sound.small
  · change jack.pluginToUi.content = _
    rw [ring, stream_append, ← sound.content]
    exact content
  · rcases List.mem_append.mp member with before | new
    · exact sound.forUi message before
    · exact cycleMessages_forUi indexed reports message (keptMessages_subset _ _ new)

theorem OutputStep.sound (sound : run.Sound start) (step : OutputStep backend run next) : next.Sound start := by
  cases step with
  | setPort pointer index value found port set => exact sound.setPort found port set
  | setProperty pointer urid atom found property set =>
    have next : ControlStep backend run.toControlRun _ := .setProperty pointer urid atom found property set
    exact sound.quiet (next.sound sound.control) rfl (jalvSetControl_keepsPorts found property set)
      (jalvSetControl_writes set).1.revalued.names
  | write portIndex bufferSize protocol buffer event wrote =>
    have next : ControlStep backend run.toControlRun _ := .write portIndex bufferSize protocol buffer event wrote
    exact sound.quiet (next.sound sound.control) rfl (jalvSendToPlugin_keepsPorts wrote)
      (jalvSendToPlugin_writes wrote).1.revalued.names
  | send message other sent =>
    have next : ControlStep backend run.toControlRun _ := .send message other sent
    exact sound.quiet (next.sound sound.control) rfl (.refl _) rfl
  | update updated => exact sound.update updated
  | activate runState =>
    have next : ControlStep backend run.toControlRun _ := .activate runState
    exact sound.quiet (next.sound sound.control) rfl ⟨rfl, rfl, fun _ _ _ found _ => found⟩ rfl
  | paused nframes idle done =>
    have next : ControlStep backend run.toControlRun _ := .paused nframes idle done
    exact sound.quiet (next.sound sound.control) (processSilent_pluginToUi done) ⟨rfl, rfl, fun _ _ _ found _ => found⟩
      rfl
  | run nframes idle begun =>
    have next : ControlStep backend run.toControlRun _ := .portAudioRun nframes idle begun
    exact sound.quiet (next.sound sound.control) (PortAudio.processCbBegin_pluginToUi begun)
      ⟨rfl, rfl, fun _ _ _ found _ => found⟩ rfl
  | finish output inside reports done => exact sound.finish reports done

theorem OutputRun.sound_initial (initial : (outputSystem backend start).initial run) : run.Sound start := by
  obtain ⟨control, given, pending⟩ := initial
  have sound := ControlRun.sound_initial control
  obtain ⟨_, _, _, _, _, _, _, toUi, _, _, _, _, _, _, _, _, back, few, _⟩ := control
  refine ⟨sound, ?_, ?_, ?_, fun index value _ _ _ last => ?_⟩
  · rw [back]
    exact few
  · rw [back, pending]
    rfl
  · rw [pending]
    exact fun _ member => by cases member
  · rw [given] at last
    cases last

theorem OutputRun.Sound.updated {jack : JackProcess} {pst : JalvProcessStatus} {nframes : UInt32}
    {messages : List UiMessage} {output : PluginOutput} {status : UpdateStatus} {jalv : JalvImpl} {pluginToUi : ZixRing}
    (sound : run.Sound start) (done : PortAudio.processCbEnd pst run.jack nframes output = some jack)
    (due : sendsUpdates pst run.jack nframes output = true)
    (reports : cycleMessages run.jack output true = some messages)
    (room : (stream UiMessage.encode messages).length ≤ run.pluginToUi.writeSpace)
    (updated : jalvUpdate (run.processed jack).jalv jack.pluginToUi = some (status, jalv, pluginToUi)) :
    ∀ index port control, run.jalv.process.ports[index.toNat]? = some port → port.type = .control →
      port.flow = .output → run.jalv.controls[index.toNat]? = some control → control.id = .port index →
        jalv.Shows index (output.control index.toNat) := by
  intro index port control found type flow here id
  have finished := sound.finish (due ▸ reports) done
  rw [keptMessages_eq room] at finished
  obtain ⟨_, _, shown⟩ := jalvUpdate_showsGiven finished.control.arranged finished.content finished.small finished.forUi
    updated finished.shown
  have loaded := sound.control.arranged.loaded
  have values : run.jack.proc.controlsBuf.length = run.jack.proc.ports.length := loaded.values.trans loaded.ports.symm
  have names := congrArg (·[index.toNat]?) (jalvUpdate_sets updated).revalued.names
  have old : (run.processed jack).jalv.controls[index.toNat]? = some control := here
  simp only [List.getElem?_map, old, Option.map_some] at names
  obtain ⟨after, there, same⟩ := Option.map_eq_some_iff.mp names
  refine shown index _ after there ((congrArg Prod.fst same).trans id) ?_
  rw [List.flatMap_append, assigned_append, assigned_append]
  exact cycleMessages_output sound.control.arranged.indexed values reports found type flow _

/-- In any run with cycles of PortAudio, the control of a port shows the last value that it was given, and
behind an update those that the plugin has put out are the ones of one cycle. -/
theorem outputs_shown (reachable : (outputSystem backend start).Reachable run) : run.Shown := by
  have sound : run.Sound start := TransitionSystem.invariant (fun _ => OutputRun.sound_initial)
    (fun _ _ sound step => step.sound sound) reachable
  exact ⟨sound.shown, fun _ _ _ _ _ _ _ _ _ done due reports room updated =>
    sound.updated done due reports room updated⟩

end

def outputTestPlugin : LilvPlugin where
  ports := [{ lookupTestPort true with isInput := false, isOutput := true }]
  few := by decide
  defaults := [0]
  writable := []
  readable := []
  threadSafeRestore := false

def outputTestOpened : OutputRun where
  jalv :=
    match jalvOpen outputTestPlugin 1024 1 (fun _ _ => 0) (fun _ => 0) lookupTestHost with
    | some (.ok jalv) => jalv
    | _ => lookupTestHost
  uiToPlugin := .empty 4095
  pluginToUi := .empty 4095
  running := none
  changes := []
  given := []
  pending := []

def outputTestOutput : PluginOutput := ⟨fun _ => 0x3F800000, fun _ => 0, fun _ => 0, fun _ _ => 0⟩

/-- The plugin puts out 1.0, and its control shows it behind the next update. -/
theorem outputs_shown_test : ∃ run : OutputRun, run.Shown ∧
    ∃ (jack : JackProcess) (status : UpdateStatus) (jalv : JalvImpl) (rest : ZixRing),
      PortAudio.processCbEnd .success run.jack 64 outputTestOutput = some jack ∧
        jalvUpdate (run.processed jack).jalv jack.pluginToUi = some (status, jalv, rest) ∧ jalv.Shows 0 0x3F800000 := by
  have first : outputTestPlugin.ControlPortsFirst := by
    rintro early late before ⟨port, found, control⟩
    match late, found with
    | 0, found => omega
  have opened : jalvOpen outputTestPlugin 1024 1 (fun _ _ => 0) (fun _ => 0) lookupTestHost =
      some (.ok outputTestOpened.jalv) := rfl
  have start : (outputSystem jackTestBackend outputTestOpened.jalv.process.controlsBuf).Reachable outputTestOpened :=
    ⟨_, ⟨⟨outputTestPlugin, 1024, 1, fun _ _ => 0, fun _ => 0, lookupTestHost, 4095, 4095, first, rfl, by decide,
      rfl, opened, rfl, rfl, by decide, rfl, by decide, rfl, rfl, rfl⟩, rfl, rfl⟩, .refl⟩
  have begun := (start.step (.activate .running)).step (.run 64 rfl rfl)
  exact ⟨_, outputs_shown begun, _, _, _, _, rfl, rfl, (outputs_shown begun).updated .success 64 outputTestOutput _ _ _ _ _
    rfl rfl rfl rfl (by decide) rfl 0 _ _ rfl rfl rfl rfl rfl⟩

end Jalv
