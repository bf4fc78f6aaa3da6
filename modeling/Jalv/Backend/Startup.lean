import Jalv.Backend.Outputs

/-! The values that a plugin starts with (`jalv_open` behind `jalv_process_activate`).

The ports have their default values first, and then those of the state that is loaded. The values
from the command line wait in the ring until the plugin is about to be called.
-/

set_option autoImplicit false

namespace Jalv

open Foundation

/-- `sscanf` with `%240[^=]=%f`. A float is given by its bits. -/
def scanControlArg (scanFloat : Text → Option UInt32) (s : Text) : Option (Text × UInt32) :=
  let sym := (s.takeWhile (· ≠ 61)).take 240
  if sym = [] then none
  else match s.drop sym.length with
    | 61 :: rest => (scanFloat rest).map fun val => (sym, val)
    | _ => none

def jalvApplyControlArg (scanFloat : Text → Option UInt32) (jalv : JalvImpl) (uiToPlugin : ZixRing) (s : Text) :
    Option (Bool × JalvImpl × ZixRing) :=
  match scanControlArg scanFloat s with
  | none => some (false, jalv, uiToPlugin)
  | some (sym, val) =>
    match getNamedControl jalv.controls sym with
    | none => some (false, jalv, uiToPlugin)
    | some pointer =>
      (jalvSetControl jalv uiToPlugin pointer (floatAtom jalv val)).map fun (_, jalv, uiToPlugin) =>
        (true, jalv, uiToPlugin)

def applyControlArgs (scanFloat : Text → Option UInt32) : List Text → JalvImpl → ZixRing → Option (JalvImpl × ZixRing)
  | [], jalv, uiToPlugin => some (jalv, uiToPlugin)
  | s :: rest, jalv, uiToPlugin => do
    let (_, jalv, uiToPlugin) ← jalvApplyControlArg scanFloat jalv uiToPlugin s
    applyControlArgs scanFloat rest jalv uiToPlugin

/-- `jalv_apply_state` for a plugin that does not run yet. -/
def jalvApplyState (values : List (Text × Atom)) (jalv : JalvImpl) (uiToPlugin pluginToUi : ZixRing) :
    Option (JalvImpl × ZixRing × ZixRing) := do
  let (jalv, uiToPlugin, pluginToUi) ← setPortValues values jalv uiToPlugin pluginToUi
  if jalv.process.controlIn ≠ uint32Max then return (jalv, attempt uiToPlugin .stateRequest, pluginToUi)
  else return (jalv, uiToPlugin, pluginToUi)

/-- The end of `jalv_open`: the values of the state, and then the arguments. -/
def jalvOpenValues (scanFloat : Text → Option UInt32) (values : List (Text × Atom)) (args : List Text)
    (jalv : JalvImpl) (uiToPlugin pluginToUi : ZixRing) : Option (JalvImpl × ZixRing × ZixRing) := do
  -- Apply loaded state to plugin instance if necessary
  let (jalv, uiToPlugin, pluginToUi) ← jalvApplyState values jalv uiToPlugin pluginToUi
  -- Apply initial controls from command-line arguments
  let (jalv, uiToPlugin) ← applyControlArgs scanFloat args jalv uiToPlugin
  return (jalv, uiToPlugin, pluginToUi)

def JalvImpl.argTarget (scanFloat : Text → Option UInt32) (jalv : JalvImpl) (s : Text) :
    Option (ControlId × UInt32) := do
  let (sym, val) ← scanControlArg scanFloat s
  let pointer ← getNamedControl jalv.controls sym
  (jalv.controls[pointer]?).map fun control => (control.id, val)

def JalvImpl.argEntries (scanFloat : Text → Option UInt32) (jalv : JalvImpl) (args : List Text) : List (Nat × UInt32) :=
  args.filterMap fun s =>
    match jalv.argTarget scanFloat s with
    | some (.port index, val) => some (index.toNat, val)
    | _ => none

def stateEntries (entries : List (JalvPort × UInt32)) : List (Nat × UInt32) :=
  entries.map fun entry => (entry.1.index.toNat, entry.2)

/-- The first values of the control inputs that the user interface drives: in the plugin, in the controls, and in the
controls behind the first update. `sent` and `told` are the values that found room in the rings. -/
structure StartsWith (backend : JalvBackend) (defaults : List UInt32) (state args sent told : List (Nat × UInt32))
    (jalv : JalvImpl) (uiToPlugin pluginToUi : ZixRing) : Prop where
  jack : ∀ cycle pst jack, processCbBegin backend ⟨jalv.process, uiToPlugin, pluginToUi⟩ cycle = some (pst, jack) →
    ∀ index, jalv.process.Driven index →
      jack.proc.controlsBuf[index]? = assigned (state ++ sent) index defaults[index]?
  portAudio : ∀ nframes pst jack,
    PortAudio.processCbBegin ⟨jalv.process, uiToPlugin, pluginToUi⟩ nframes = some (pst, jack) →
    ∀ index, jalv.process.Driven index →
      jack.proc.controlsBuf[index]? = assigned (state ++ sent) index defaults[index]?
  shown : jalv.ShowsGiven (state ++ args)
  -- The values of the state come back as if from the plugin, and hide those of the arguments
  updated : ∀ status next rest, jalvUpdate jalv pluginToUi = some (status, next, rest) →
    next.ShowsGiven (state ++ args ++ told)

section

variable {jalv next : JalvImpl} {entries : List (JalvPort × UInt32)}

theorem setPortValue_idle (loaded : jalv.Loaded) (distinct : (jalv.ports.map JalvPort.symbol).Nodup)
    {port : JalvPort} (member : port ∈ jalv.ports) (type : port.type = .control)
    (idle : jalv.process.runState ≠ .running) (value : UInt32) (toPlugin toUi : ZixRing) :
    ∃ next, setPortValue jalv toPlugin toUi port.symbol (floatAtom jalv value) =
      some (next, toPlugin, (jalvWriteControl toUi port.index value).2) := by
  obtain ⟨pointer, control, named, found, _⟩ := loaded.portControl distinct member type
  have size := floatAtom_size jalv value
  have shorter : (floatAtom jalv value).size.toNat < sizeofPointer := by
    rw [size]
    decide
  obtain ⟨store, set, held⟩ :=
    anyValueSet_shorter (loaded.freeable control (List.mem_of_getElem? found)) shorter (jalv.proposal 0)
  have number : anyValueFloat jalv.world jalv.forge store.value = value := by
    have body := held.float size rfl loaded.types
    rw [floatAtom_body] at body
    rw [← wordValue_word (anyValueFloat _ _ _), body, wordValue_word]
  obtain ⟨place, _⟩ := List.getElem?_eq_some_iff.mp (loaded.getElem?_index member)
  exact ⟨_, setPortValue_paused distinct member type named found set number (place.trans_eq loaded.values.symm) idle
    toPlugin toUi⟩

/-- Values of a state that are applied before the plugin runs are told to the main thread, as far as there is room,
and nothing is sent to the process. -/
theorem setPortValues_idle {toPlugin toUi toPlugin' toUi' : ZixRing} (loaded : jalv.Loaded)
    (distinct : (jalv.ports.map JalvPort.symbol).Nodup)
    (members : ∀ entry ∈ entries, entry.1 ∈ jalv.ports ∧ entry.1.type = .control)
    (idle : jalv.process.runState ≠ .running)
    (set : setPortValues (entries.map (savedValue jalv.forge.float)) jalv toPlugin toUi =
      some (next, toPlugin', toUi')) :
    toPlugin' = toPlugin ∧ next.updating = jalv.updating ∧ ∃ told : List (JalvPort × UInt32), told.Sublist entries ∧
      toUi'.capacity = toUi.capacity ∧
      toUi'.content = toUi.content ++ stream UiMessage.encode (told.map valueMessage) ∧
      (16 * entries.length ≤ toUi.writeSpace → told = entries) := by
  induction entries generalizing jalv toUi with
  | nil =>
    cases set
    exact ⟨rfl, rfl, [], .slnil, rfl, (List.append_nil _).symm, fun _ => rfl⟩
  | cons entry rest ih =>
    obtain ⟨port, value⟩ := entry
    obtain ⟨⟨member, type⟩, others⟩ := List.forall_mem_cons.mp members
    obtain ⟨middle, first⟩ := setPortValue_idle loaded distinct member type idle value toPlugin toUi
    rw [List.map_cons] at set
    obtain ⟨⟨_, _, _⟩, own, set⟩ := Option.bind_eq_some_iff.mp set
    cases own.symm.trans first
    have revalued := setPortValue_revalued first
    obtain ⟨⟨proposal, controls, controlsBuf, same⟩, _⟩ := setPortValue_frame first
    have still : middle.process.runState ≠ .running := by
      rw [same]
      exact idle
    simp only [← revalued.forge] at set
    obtain ⟨kept, updating, told, part, capacity, content, all⟩ := ih (loaded.revalued revalued)
      (revalued.ports.symm ▸ distinct) (revalued.ports.symm ▸ others) still set
    have before : middle.updating = jalv.updating := by rw [same]
    rcases jalvWriteControl_cases toUi port.index value with full | sent
    · rw [full] at capacity content all
      refine ⟨kept, updating.trans before, told, part.cons _, capacity, content, fun room => ?_⟩
      have short := (jalvWriteControl_kept_iff toUi port.index value).mp full
      rw [List.length_cons] at room
      omega
    · obtain ⟨same, appended, _⟩ := sent.content
      refine ⟨kept, updating.trans before, (port, value) :: told, part.cons_cons _, capacity.trans same, ?_,
        fun room => ?_⟩
      · rw [content, appended, List.map_cons, stream_cons, List.append_assoc]
        rfl
      · rw [List.length_cons, Fifo.writeSpace] at room
        have length := congrArg List.length appended
        rw [List.length_append, show (UiMessage.controlPortChange port.index value).encode.length = 16 from
          valueMessage_length (port, value)] at length
        rw [all (by rw [Fifo.writeSpace, same, length]; omega)]

theorem assignments_valueMessages (entries : List (JalvPort × UInt32)) :
    (entries.map valueMessage).flatMap UiMessage.assignments = stateEntries entries := by
  induction entries with
  | nil => rfl
  | cons entry rest ih =>
    rw [List.map_cons, List.flatMap_cons, ih]
    rfl

/-- The values of the state are those of the ports, over the ones that they had. -/
theorem writeValues_assigned {controlsBuf : List UInt32}
    (inside : ∀ entry ∈ entries, entry.1.index.toNat < controlsBuf.length) (index : Nat) :
    (writeValues entries controlsBuf)[index]? = assigned (stateEntries entries) index controlsBuf[index]? :=
  getElem?_foldl_set_assigned (fun entry : JalvPort × UInt32 => entry.1.index.toNat) (fun entry => entry.2) inside index

theorem JalvImpl.ControlHas.shows {port : JalvPort} {value : UInt32} (placed : jalv.Placed)
    (has : jalv.ControlHas port value) : jalv.Shows port.index value := by
  obtain ⟨pointer, control, _, found, id, held⟩ := has
  obtain rfl := placed pointer control port.index found id
  exact ⟨control, found, id, held⟩

theorem showsGiven_of_restored {ring after : ZixRing} (placed : next.Placed)
    (restored : JalvImpl.Restored entries jalv next ring after) : next.ShowsGiven (stateEntries entries) := by
  intro index value control _ _ last
  obtain ⟨⟨port, given⟩, member, same⟩ := List.mem_map.mp ((assigned_eq_some last).resolve_right (by simp))
  obtain ⟨place, rfl⟩ := Prod.mk.inj same
  obtain rfl := UInt32.toNat_inj.mp place
  exact (restored.has _ member).shows placed

end

section

variable {backend : JalvBackend} {start : List UInt32} {scanFloat : Text → Option UInt32}

/-- Before a cycle calls the plugin, the ports that the user interface drives have what was sent. -/
theorem Begins.values {run : ControlRun} {jack : JackProcess} {pluginToUi : ZixRing} (sound : run.Sound start)
    (begins : Begins ⟨run.jalv.process, run.uiToPlugin, pluginToUi⟩ jack) {index : Nat}
    (driven : run.jalv.process.Driven index) :
    jack.proc.controlsBuf[index]? = assigned run.sentEntries index start[index]? := by
  obtain ⟨prepared, nframes, status, shapes, values, _, applied⟩ := begins.applied
  have prepares := sound.catching.values shapes values
  exact (prepares.apply applied).2 index (JalvProcess.driven_of_shapes shapes.symm driven)

theorem jalvApplyControlArg_cases {jalv next : JalvImpl} {uiToPlugin after : ZixRing} {s : Text} {applied : Bool}
    (done : jalvApplyControlArg scanFloat jalv uiToPlugin s = some (applied, next, after)) :
    (jalv.argTarget scanFloat s = none ∧ next = jalv ∧ after = uiToPlugin) ∨
      ∃ pointer control val status, jalv.argTarget scanFloat s = some (control.id, val) ∧
        jalv.controls[pointer]? = some control ∧
        jalvSetControl jalv uiToPlugin pointer (floatAtom jalv val) = some (status, next, after) := by
  unfold jalvApplyControlArg at done
  unfold JalvImpl.argTarget
  cases scanned : scanControlArg scanFloat s with
  | none =>
    rw [scanned] at done
    cases done
    exact .inl ⟨rfl, rfl, rfl⟩
  | some pair =>
    obtain ⟨sym, val⟩ := pair
    simp only [scanned] at done
    simp only [Option.bind_eq_bind, Option.bind_some]
    cases named : getNamedControl jalv.controls sym with
    | none =>
      simp only [named] at done
      cases done
      exact .inl ⟨rfl, rfl, rfl⟩
    | some pointer =>
      simp only [named] at done
      obtain ⟨⟨status, _, _⟩, set, same⟩ := Option.map_eq_some_iff.mp done
      cases same
      obtain ⟨inside, _⟩ := List.findIdx?_eq_some_iff_getElem.mp named
      have found := List.getElem?_eq_getElem inside
      exact .inr ⟨pointer, _, val, status, by rw [Option.bind_some, found, Option.map_some], found, set⟩

theorem JalvImpl.Revalued.argTarget {jalv next : JalvImpl} (revalued : jalv.Revalued next) (s : Text) :
    next.argTarget scanFloat s = jalv.argTarget scanFloat s := by
  have ids (jalv : JalvImpl) (pointer : Nat) (val : UInt32) :
      ((jalv.controls[pointer]?).map fun control => (control.id, val)) =
        ((jalv.controls.map Control.name)[pointer]?).map fun name => (name.1, val) := by
    rw [List.getElem?_map, Option.map_map]
    rfl
  unfold JalvImpl.argTarget
  simp only [ids, revalued.names, revalued.getNamedControl]

theorem JalvImpl.Revalued.argEntries {jalv next : JalvImpl} (revalued : jalv.Revalued next) (args : List Text) :
    next.argEntries scanFloat args = jalv.argEntries scanFloat args := by
  simp only [JalvImpl.argEntries, revalued.argTarget]

theorem argEntries_cons (jalv : JalvImpl) (s : Text) (args : List Text) :
    jalv.argEntries scanFloat (s :: args) = jalv.argEntries scanFloat [s] ++ jalv.argEntries scanFloat args := by
  rw [JalvImpl.argEntries, JalvImpl.argEntries, JalvImpl.argEntries, ← List.filterMap_append]
  rfl

/-- An argument is ignored, or sets the control of a port or of a property. -/
theorem jalvApplyControlArg_sound (backend : JalvBackend) {run : OutputRun} {jalv : JalvImpl} {uiToPlugin : ZixRing}
    {s : Text} {done : Bool} (sound : run.Sound start)
    (applied : jalvApplyControlArg scanFloat run.jalv run.uiToPlugin s = some (done, jalv, uiToPlugin)) :
    run.jalv.Revalued jalv ∧ jalv.process = run.jalv.process ∧ ∃ changes : List Change,
      changes.map Change.entry = run.jalv.argEntries scanFloat [s] ∧
      OutputRun.Sound start { run with
        jalv, uiToPlugin, changes := run.changes ++ changes, given := run.given ++ changes.map Change.entry } ∧
      ((∀ urid val, run.jalv.argTarget scanFloat s ≠ some (.property urid, val)) → 16 ≤ run.uiToPlugin.writeSpace →
        (∀ change ∈ changes, change.sent = true) ∧ run.uiToPlugin.writeSpace ≤ uiToPlugin.writeSpace + 16) := by
  rcases jalvApplyControlArg_cases applied with
    ⟨ignored, rfl, rfl⟩ | ⟨pointer, control, val, status, target, found, set⟩
  · refine ⟨.refl _, rfl, [], ?_, by simpa using sound, fun _ _ => ⟨by simp, Nat.le_add_right _ _⟩⟩
    rw [JalvImpl.argEntries, List.filterMap_cons, ignored]
    rfl
  · have sets := (jalvSetControl_writes set).1
    refine ⟨sets.revalued, sets.setup.process, ?_⟩
    cases id : control.id with
    | port index =>
      refine ⟨[⟨index, val, 16 ≤ run.uiToPlugin.writeSpace⟩], ?_, sound.setPort found id set,
        fun _ room => ⟨by simpa using room, ?_⟩⟩
      · rw [JalvImpl.argEntries, List.filterMap_cons, target, id]
        rfl
      · have arranged := sound.control.arranged
        obtain ⟨_, _, _, _, rfl⟩ := jalvSetControl_port
          (arranged.loaded.freeable control (List.mem_of_getElem? found)) found id arranged.loaded.types
            sound.control.updating set
        rcases jalvWriteControl_cases run.uiToPlugin index val with full | sent
        · rw [full]
          exact Nat.le_add_right _ _
        · obtain ⟨capacity, content, _⟩ := sent.content
          have length : (UiMessage.controlPortChange index val).encode.length = 16 := by
            simp [UiMessage.length_encode, UiMessage.payload, sizeofHeader]
          rw [Fifo.writeSpace, Fifo.writeSpace, capacity, content, List.length_append, length]
          omega
    | property urid =>
      have step : OutputStep backend run { run with jalv, uiToPlugin } := .setProperty pointer urid _ found id set
      refine ⟨[], ?_, by simpa using step.sound sound, fun plain => absurd (id ▸ target) (plain urid val)⟩
      rw [JalvImpl.argEntries, List.filterMap_cons, target, id]
      rfl

/-- What the arguments do before the first cycle: each that is for a port sets its control. -/
theorem applyControlArgs_sound (backend : JalvBackend) {args : List Text} {run : OutputRun} {jalv : JalvImpl}
    {uiToPlugin : ZixRing} (sound : run.Sound start)
    (applied : applyControlArgs scanFloat args run.jalv run.uiToPlugin = some (jalv, uiToPlugin)) :
    jalv.process = run.jalv.process ∧ ∃ changes : List Change,
      changes.map Change.entry = run.jalv.argEntries scanFloat args ∧
      OutputRun.Sound start { run with
        jalv, uiToPlugin, changes := run.changes ++ changes, given := run.given ++ changes.map Change.entry } ∧
      ((∀ s ∈ args, ∀ urid val, run.jalv.argTarget scanFloat s ≠ some (.property urid, val)) →
        16 * args.length ≤ run.uiToPlugin.writeSpace → ∀ change ∈ changes, change.sent = true) := by
  induction args generalizing run with
  | nil =>
    cases applied
    exact ⟨rfl, [], rfl, by simpa using sound, fun _ _ => by simp⟩
  | cons s rest ih =>
    obtain ⟨⟨done, middle, between⟩, first, others⟩ := Option.bind_eq_some_iff.mp applied
    obtain ⟨revalued, process, changes, entries, after, sends⟩ := jalvApplyControlArg_sound backend sound first
    obtain ⟨same, more, behind, final, all⟩ := ih after others
    have later : more.map Change.entry = middle.argEntries scanFloat rest := behind
    refine ⟨same.trans process, changes ++ more, ?_, ?_, fun plain room => ?_⟩
    · rw [List.map_append, entries, later, revalued.argEntries, ← argEntries_cons]
    · simpa only [List.map_append, List.append_assoc] using final
    · rw [List.length_cons] at room
      obtain ⟨own, remaining⟩ := List.forall_mem_cons.mp plain
      obtain ⟨sent, left⟩ := sends own (by omega)
      refine List.forall_mem_append.mpr ⟨sent, all ?_ ?_⟩
      · intro s member urid val
        rw [show ({ run with jalv := middle } : OutputRun).jalv = middle from rfl, revalued.argTarget]
        exact remaining s member urid val
      · have room : 16 * rest.length ≤ between.writeSpace := by omega
        exact room

theorem createPortsFrom_controlsBuf {ports : List LilvPort} {index : UInt32} {jalv next : JalvImpl}
    (created : createPortsFrom index ports jalv = some (.ok next)) :
    next.process.controlsBuf = jalv.process.controlsBuf := by
  induction ports generalizing index jalv with
  | nil =>
    cases created
    rfl
  | cons port rest ih =>
    unfold createPortsFrom at created
    split at created
    · next first =>
      obtain ⟨pport, controls, _, _, rfl⟩ := createPort_ok first
      have same := ih created
      exact same
    · next failed => exact absurd created (failed next)

theorem jalvOpen_controlsBuf {plugin : LilvPlugin} {midiBufSize : Nat} {updateFrames : UInt32}
    {contents : Nat → Memory Byte} {message : Memory Byte} {jalv opened : JalvImpl}
    (opens : jalvOpen plugin midiBufSize updateFrames contents message jalv = some (.ok opened)) :
    opened.process.controlsBuf = plugin.defaults := by
  obtain ⟨ported, proposal, controls, created, rfl⟩ := jalvOpen_ok opens
  exact createPortsFrom_controlsBuf created

def restoredRun (state : List (Nat × UInt32)) (jalv : JalvImpl) (uiToPlugin : ZixRing) : OutputRun where
  jalv := jalv
  uiToPlugin := uiToPlugin
  pluginToUi := .empty 0
  running := none
  changes := []
  given := state
  pending := []

theorem restoredRun_sound {jalv : JalvImpl} {ring : ZixRing} {state : List (Nat × UInt32)} (arranged : jalv.Arranged)
    (updating : jalv.updating = false) (small : ring.capacity < 2 ^ 32)
    (content : ring.content = [] ∨ ring.content = UiMessage.stateRequest.encode) (shown : jalv.ShowsGiven state) :
    (restoredRun state jalv ring).Sound jalv.process.controlsBuf where
  control := by
    refine ⟨arranged, updating, ⟨small, ?_⟩, ⟨Nat.two_pow_pos 32, [], rfl, by simp⟩, fun index value _ set => ?_⟩
    · rcases content with empty | asked
      · exact ⟨[], empty, fun index _ => .begin index _⟩
      · have one : ring.content = stream UiMessage.encode [.stateRequest] := by simpa [stream] using asked
        exact ⟨[.stateRequest], one, fun index _ => .begin index _⟩
    · cases set
  small := Nat.two_pow_pos 32
  content := rfl
  forUi := by simp [restoredRun]
  shown := shown

theorem attempt_stateRequest (capacity : Nat) :
    (attempt (.empty capacity) .stateRequest).capacity = capacity ∧
      ((attempt (.empty capacity) .stateRequest).content = [] ∨
        (attempt (.empty capacity) .stateRequest).content = UiMessage.stateRequest.encode) ∧
      capacity ≤ (attempt (.empty capacity) .stateRequest).writeSpace + 8 := by
  unfold attempt
  cases wrote : (Fifo.empty capacity : ZixRing).writeAll UiMessage.stateRequest.parts with
  | none =>
    refine ⟨rfl, Or.inl rfl, ?_⟩
    change capacity ≤ capacity - 0 + 8
    omega
  | some after =>
    obtain ⟨same, content, _⟩ := Sends.content wrote
    refine ⟨same, Or.inr content, ?_⟩
    have length : after.content.length = 8 := (congrArg List.length content).trans rfl
    have whole : after.capacity = capacity := same
    rw [Option.getD_some, Fifo.writeSpace, whole, length]
    omega

variable {plugin : LilvPlugin} {midiBufSize : Nat} {updateFrames : UInt32} {contents : Nat → Memory Byte}
  {message : Memory Byte} {jalv opened next : JalvImpl} {entries : List (JalvPort × UInt32)} {args : List Text}
  {toPlugin toUi : Nat} {uiToPlugin pluginToUi : ZixRing}

structure AppliesState (entries : List (JalvPort × UInt32)) (toPlugin toUi : Nat) (opened next : JalvImpl)
    (uiToPlugin pluginToUi : ZixRing) : Prop where
  revalued : opened.Revalued next
  shown : next.ShowsGiven (stateEntries entries)
  process : next.process = { opened.process with controlsBuf := writeValues entries opened.process.controlsBuf }
  updating : next.updating = opened.updating
  capacity : uiToPlugin.capacity = toPlugin
  asked : uiToPlugin.content = [] ∨ uiToPlugin.content = UiMessage.stateRequest.encode
  room : toPlugin ≤ uiToPlugin.writeSpace + 8
  told : ∃ told : List (JalvPort × UInt32), told.Sublist entries ∧ pluginToUi.capacity = toUi ∧
    pluginToUi.content = stream UiMessage.encode (told.map valueMessage) ∧
    (16 * entries.length ≤ toUi → told = entries)

theorem jalvApplyState_applies (arranged : opened.Arranged) (idle : opened.process.runState = .paused)
    (distinct : (opened.ports.map JalvPort.symbol).Nodup)
    (members : ∀ entry ∈ entries, entry.1 ∈ opened.ports ∧ entry.1.type = .control)
    (different : (entries.map (·.1.symbol)).Nodup)
    (applied : jalvApplyState (entries.map (savedValue opened.forge.float)) opened (.empty toPlugin) (.empty toUi) =
      some (next, uiToPlugin, pluginToUi)) : AppliesState entries toPlugin toUi opened next uiToPlugin pluginToUi := by
  have paused : opened.process.runState ≠ .running := by simp [idle]
  obtain ⟨⟨after, ring, toUi'⟩, set, asks⟩ := Option.bind_eq_some_iff.mp applied
  obtain ⟨_, _, _, again, restored⟩ := setPortValues_restored arranged.loaded distinct members different
    (.empty toPlugin) (.empty toUi)
  cases again.symm.trans set
  obtain ⟨rfl, updating, told, part, capacity, content, all⟩ :=
    setPortValues_idle arranged.loaded distinct members paused set
  have placed := (arranged.revalued restored.revalued).placed
  have tells : ∃ told : List (JalvPort × UInt32), told.Sublist entries ∧ toUi'.capacity = toUi ∧
      toUi'.content = stream UiMessage.encode (told.map valueMessage) ∧
      (16 * entries.length ≤ toUi → told = entries) :=
    ⟨told, part, capacity, content, fun room => all room⟩
  have shown := showsGiven_of_restored placed restored
  dsimp only at asks
  split at asks
  · cases asks
    obtain ⟨same, content, room⟩ := attempt_stateRequest toPlugin
    exact ⟨restored.revalued, shown, restored.paused paused, updating, same, content, room, tells⟩
  · cases asks
    refine ⟨restored.revalued, shown, restored.paused paused, updating, rfl, Or.inl rfl, ?_, tells⟩
    change toPlugin ≤ toPlugin - 0 + 8
    omega

end

def startupTestPlugin : LilvPlugin where
  ports := [{ lookupTestPort true with symbol := [103] }, { lookupTestPort false with symbol := [97] }]
  few := by decide
  defaults := [0, 0]
  writable := []
  readable := []
  threadSafeRestore := false

def startupTestOpened : JalvImpl :=
  match jalvOpen startupTestPlugin 1024 0 (fun _ _ => 0) (fun _ => 0) lookupTestHost with
  | some (.ok jalv) => jalv
  | _ => lookupTestHost

def startupTestEntry : JalvPort × UInt32 := (⟨[103], .control, .input, 0⟩, 0x3F800000)

def startupTestValues : Option (JalvImpl × ZixRing × ZixRing) :=
  jalvOpenValues (fun _ => some 0x40000000) ([startupTestEntry].map (savedValue startupTestOpened.forge.float))
    [[103, 61, 50]] startupTestOpened (.empty 4095) (.empty 4095)

def startupTestProcess : JackProcess :=
  match startupTestValues with
  | some (jalv, uiToPlugin, pluginToUi) => ⟨jalv.process, uiToPlugin, pluginToUi⟩
  | none => ⟨startupTestOpened.process, .empty 4095, .empty 4095⟩

end Jalv
