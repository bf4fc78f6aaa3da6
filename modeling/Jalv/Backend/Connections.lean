import Jalv.Backend.Cycle
import Jalv.Backend.Host
import Jalv.Foundation.Ledger
import Jalv.Foundation.Transition
import Jalv.Host.RingSize

/-! What the ports of the plugin are connected to under JACK (`jack.c` and `process_setup.c`).

Event buffers are numbered for each port, in the order in which they are allocated, and all
allocations succeed. A buffer of JACK is there for one cycle.
-/

set_option autoImplicit false

namespace Jalv

open Foundation

inductive Connection where
  | null
  -- The value of the port in `controls_buf`
  | control
  -- The event buffer of the port with this number
  | evbuf (number : Nat)
  -- The buffer that JACK has for the port in the cycle with this number
  | system (cycle : Nat)

structure PortWiring where
  connection : Option Connection
  evbufs : Account

namespace PortWiring

def unconnected : PortWiring := ⟨none, .empty⟩

def connect (wiring : PortWiring) (connection : Connection) : PortWiring :=
  { wiring with connection := some connection }

def activate (midiBufSize : Nat) (port : JalvProcessPort) (wiring : PortWiring) : PortWiring :=
  if port.type = .event then
    let fits := port.evbuf.any fun evbuf => (lv2EvbufGetCapacity evbuf).toNat = port.evbufSize midiBufSize
    let evbufs := if !fits then wiring.evbufs.renew else wiring.evbufs
    { wiring with evbufs }.connect (evbufs.pointer.elim .null .evbuf)
  else wiring

/-- `jalv_backend_activate_port`, as far as it connects the port. -/
def backendActivatePort (port : JalvProcessPort) (wiring : PortWiring) : PortWiring :=
  -- Connect unsupported ports to NULL (known to be optional by this point)
  if port.flow = .unknown ∨ port.type = .unknown then wiring.connect .null
  else if port.type = .control then wiring.connect .control
  else wiring

/-- `pre_process_port`, as far as it connects the port. -/
def preProcessPort (cycle : Nat) (port : JalvProcessPort) (wiring : PortWiring) : PortWiring :=
  if port.sysPort ∧ (port.type = .audio ∨ port.type = .cv) then wiring.connect (.system cycle) else wiring

def deactivate (wiring : PortWiring) : PortWiring :=
  { wiring with evbufs := wiring.evbufs.release.drop }.connect .null

end PortWiring

abbrev Wiring := Nat → PortWiring

-- A loop over the ports, in which the turn of a port is only about the port itself.
def Wiring.forPorts (wiring : Wiring) (ports : List JalvProcessPort)
    (turn : JalvProcessPort → PortWiring → PortWiring) : Wiring := fun index =>
  match ports[index]? with
  | some port => turn port (wiring index)
  | none => wiring index

/-- `jalv_backend_activate_port`, as far as it registers a port with JACK. -/
def JalvProcessPort.backendActivatePort (registers : Bool) (port : JalvProcessPort) : JalvProcessPort :=
  if port.flow = .unknown ∨ port.type = .unknown then port
  else match port.type with
  | .unknown | .control => port
  | .audio | .cv => { port with sysPort := registers }
  | .event => if port.supportsMidi then { port with sysPort := registers } else port

def jalvProcessDeactivate (proc : JalvProcess) : JalvProcess :=
  { proc with processMsg := [], ports := proc.ports.map fun port => { port with evbuf := none } }

/-- The program under JACK, with the connections of the plugin, the number of cycles that have called
it, and the cycle that does so right now. -/
structure WiredHost where
  host : JackHost
  wiring : Wiring
  cycles : Nat
  called : Option (JalvProcessStatus × JackProcess)
  closed : Bool

/-- The calls in the process thread and around them. The main thread does whatever it likes with
everything but the ports, and during a cycle but the process state. -/
inductive WiredStep (backend : JalvBackend) : WiredHost → WiredHost → Prop where
  | main {state : WiredHost} {host : JackHost} (same : host.jalv.process.ports = state.host.jalv.process.ports)
      (shared : state.called.isSome → host.jalv.process = state.host.jalv.process) :
      WiredStep backend state { state with host }
  | bufferSize {state : WiredHost} (answer : Option Nat) (updateFrames : UInt32) (contents : Nat → Memory Byte)
      (message : Memory Byte) (idle : state.called = none) (opened : state.closed = false) :
      WiredStep backend state { state with
        host := { state.host with jalv := bufferSizeCb state.host.jalv answer updateFrames contents message }
        wiring :=
          if state.host.jalv.process.runState = .running then
            state.wiring.forPorts state.host.jalv.process.ports
              (PortWiring.activate (answer.getD state.host.jalv.settings.midiBufSize))
          else state.wiring }
  | silent {state : WiredHost} {jack : JackProcess} (cycle : JackCycle) (idle : state.called = none)
      (opened : state.closed = false) (paused : state.host.jalv.process.runState = .paused)
      (done : processSilent state.host.jack cycle.nframes = some jack) :
      WiredStep backend state { state with host := state.host.processed jack }
  | begin {state : WiredHost} {pst : JalvProcessStatus} {jack : JackProcess} (cycle : JackCycle)
      (idle : state.called = none) (opened : state.closed = false)
      (running : state.host.jalv.process.runState = .running)
      (begun : processCbBegin backend state.host.jack cycle = some (pst, jack)) :
      WiredStep backend state { state with
        wiring := state.wiring.forPorts state.host.jalv.process.ports (PortWiring.preProcessPort (state.cycles + 1))
        cycles := state.cycles + 1
        called := some (pst, jack) }
  | finish {state : WiredHost} {pst : JalvProcessStatus} {jack next : JackProcess} {nframes : UInt32}
      {output : PluginOutput} {midi : List (Nat × JackMidiEvent)} (called : state.called = some (pst, jack))
      (done : processCbEnd backend pst jack nframes output = some (next, midi)) :
      WiredStep backend state { state with host := state.host.processed next, called := none }
  -- `jalv_deactivate` and `jalv_process_deactivate`
  | close {state : WiredHost} (idle : state.called = none) (opened : state.closed = false) :
      WiredStep backend state { state with
        host := { state.host with jalv := { state.host.jalv with
          process := { jalvProcessDeactivate state.host.jalv.process with runState := .paused } } }
        wiring := state.wiring.forPorts state.host.jalv.process.ports fun _ => PortWiring.deactivate
        closed := true }

def Wiring.opened (midiBufSize : Nat) (ports : List JalvProcessPort) : Wiring :=
  let wiring := Wiring.forPorts (fun _ => .unconnected) ports fun port =>
    .activate midiBufSize { port with evbuf := none }
  wiring.forPorts ports PortWiring.backendActivatePort

def wiredSystem (backend : JalvBackend) : TransitionSystem WiredHost where
  initial state := ∃ plugin midiBufSize updateFrames contents message jalv opened,
    ∃ registers : Nat → Bool, jalvOpen plugin midiBufSize updateFrames contents message jalv = some (.ok opened) ∧
      state.host.jalv.process.ports =
        opened.process.ports.mapIdx (fun index => JalvProcessPort.backendActivatePort (registers index)) ∧
      state.wiring = .opened midiBufSize opened.process.ports ∧ state.called = none ∧ state.closed = false
  step := WiredStep backend

/-- What the plugin finds a port connected to in a cycle. -/
structure PortWiring.Connected (wiring : PortWiring) (cycle : Nat) (port : JalvProcessPort) : Prop where
  unsupported : port.flow = .unknown ∨ port.type = .unknown → wiring.connection = some .null ∨
    ∃ number, wiring.connection = some (.evbuf number) ∧ wiring.evbufs.Live number
  control : port.flow ≠ .unknown → port.type = .control → wiring.connection = some .control
  -- A port that JACK did not register was never connected
  audio : port.flow ≠ .unknown → port.type = .audio ∨ port.type = .cv →
    wiring.connection = if port.sysPort then some (.system cycle) else none
  -- Of all the buffers of the port, the one that it is connected to is the only one that was not released
  event : port.flow ≠ .unknown → port.type = .event → port.evbuf.isSome ∧
    ∃ number, wiring.connection = some (.evbuf number) ∧ ∀ other, wiring.evbufs.Live other ↔ other = number

/-- Whenever the plugin is called, its ports are connected to memory that is there. In the end, all are
disconnected, and every event buffer was released once. -/
structure WiredHost.Safe (state : WiredHost) : Prop where
  called : ∀ pst jack, state.called = some (pst, jack) → ∀ index port, jack.proc.ports[index]? = some port →
    (state.wiring index).Connected state.cycles port
  closed : state.closed → ∀ index, (state.wiring index).evbufs.Settled ∧
    ((state.wiring index).connection = none ∨ (state.wiring index).connection = some .null)

def JalvProcess.sysPorts (proc : JalvProcess) : List Bool := proc.ports.map JalvProcessPort.sysPort

structure PortWiring.Fits (wiring : PortWiring) (port : JalvProcessPort) : Prop where
  tidy : wiring.evbufs.Tidy
  pointer : port.evbuf.isSome → wiring.evbufs.pointer.isSome
  buffer : port.type = .event → port.evbuf.isSome
  registered : port.sysPort → port.flow ≠ .unknown
  unsupported : port.flow = .unknown ∨ port.type = .unknown → wiring.connection = some .null ∨
    ∃ number, wiring.connection = some (.evbuf number) ∧ wiring.evbufs.pointer = some number
  control : port.flow ≠ .unknown → port.type = .control → wiring.connection = some .control
  audio : port.flow ≠ .unknown → port.type = .audio ∨ port.type = .cv → port.sysPort = false →
    wiring.connection = none
  event : port.flow ≠ .unknown → port.type = .event →
    ∃ number, wiring.connection = some (.evbuf number) ∧ wiring.evbufs.pointer = some number

structure WiredHost.Wired (state : WiredHost) : Prop where
  fits : state.closed = false → ∀ index port, state.host.jalv.process.ports[index]? = some port →
    (state.wiring index).Fits port
  behind : ∀ index, state.host.jalv.process.ports[index]? = none → state.wiring index = .unconnected
  called : ∀ pst jack, state.called = some (pst, jack) → state.closed = false ∧
    jack.proc.shapes = state.host.jalv.process.shapes ∧ jack.proc.sysPorts = state.host.jalv.process.sysPorts ∧
    ∀ index port, state.host.jalv.process.ports[index]? = some port →
      (state.wiring index).Connected state.cycles port
  closed : state.closed → ∀ index, (state.wiring index).evbufs.Settled ∧
    ((state.wiring index).connection = none ∨ (state.wiring index).connection = some .null)

section

variable {backend : JalvBackend} {cycle : JackCycle} {index : Nat} {port changed : JalvProcessPort}

theorem preProcessPort_sysPort {before after : PreState} {xport : TransportData} {bpm : UInt32}
    {midi : Nat → List JackMidiEvent}
    (prepared : preProcessPort backend xport bpm midi index port before = some (changed, after)) :
    changed.sysPort = port.sysPort := by
  unfold preProcessPort at prepared
  split at prepared
  · cases prepared
    rfl
  · split at prepared
    · obtain ⟨evbuf, _, same⟩ := Option.bind_eq_some_iff.mp prepared
      cases same
      rfl
    · split at prepared
      · obtain ⟨evbuf, _, same⟩ := Option.bind_eq_some_iff.mp prepared
        cases same
        rfl
      · split at prepared
        · split at prepared <;> cases prepared
          rfl
        · cases prepared
          rfl

theorem finishPort_sysPort {before after : PostState} {controlsBuf : List UInt32} {sendUpdates : Bool}
    (finished : finishPort backend controlsBuf sendUpdates index port before = some (changed, after)) :
    changed.sysPort = port.sysPort := by
  unfold finishPort at finished
  split at finished
  · obtain ⟨evbuf, _, same⟩ := Option.bind_eq_some_iff.mp finished
    cases same
    rfl
  · split at finished
    · obtain ⟨state, _, same⟩ := Option.map_eq_some_iff.mp finished
      cases same
      rfl
    · cases finished
      rfl

variable {proc after : JalvProcess} {ring rest : ZixRing} {nframes : UInt32} {status : JalvProcessStatus}

theorem MessageEffect.sysPorts {message : UiMessage} (effect : MessageEffect proc nframes after message) :
    after.sysPorts = proc.sysPorts := by
  have appended {index : Nat} {atom : Atom} (appended : appendEvent proc index nframes atom = some after) :
      after.sysPorts = proc.sysPorts := by
    obtain ⟨port, evbuf, found, _, rfl⟩ := appendEvent_cases appended
    exact map_set_of_same JalvProcessPort.sysPort found rfl
  cases effect with
  | controlPortChange _ same => rw [same]; rfl
  | runStateChange same => rw [same]; rfl
  | eventTransfer event => exact appended event
  | stateRequest _ _ _ event => exact appended event

theorem applyUiEvents_sysPorts (applied : applyUiEvents proc ring nframes = some (status, after, rest)) :
    after.sysPorts = proc.sysPorts :=
  applyUiEvents_invariant (fun _ _ same => same) (fun _ _ _ same effect => effect.sysPorts.trans same) applied rfl

theorem lilvInstanceRun_sysPorts (proc : JalvProcess) (output : PluginOutput) :
    (lilvInstanceRun proc output).sysPorts = proc.sysPorts := by
  apply List.ext_getElem?
  intro index
  simp only [JalvProcess.sysPorts, lilvInstanceRun, List.getElem?_map, List.getElem?_mapIdx, Option.map_map]
  congr 1
  funext port
  simp only [Function.comp_apply, PluginOutput.writePort]
  split <;> rfl

variable {jack next : JackProcess} {pst : JalvProcessStatus}

theorem processCbBegin_sysPorts (begun : processCbBegin backend jack cycle = some (pst, next)) :
    next.proc.sysPorts = jack.proc.sysPorts := by
  obtain ⟨ports, state, prepared, applied, _⟩ := processCbBegin_eq_some_iff.mp begun
  exact (applyUiEvents_sysPorts applied).trans
    (changeFrom_map JalvProcessPort.sysPort (fun _ _ _ _ _ prepared => preProcessPort_sysPort prepared) prepared)

theorem processCbEnd_sysPorts {output : PluginOutput} {midi : List (Nat × JackMidiEvent)}
    (done : processCbEnd backend pst jack nframes output = some (next, midi)) :
    next.proc.sysPorts = jack.proc.sysPorts := by
  obtain ⟨_, _, ports, state, finished, rfl⟩ := processCbEnd_cases done
  exact (changeFrom_map JalvProcessPort.sysPort (fun _ _ _ _ _ finished => finishPort_sysPort finished) finished).trans
    (lilvInstanceRun_sysPorts jack.proc output)

theorem JalvProcess.registered_at (shapes : after.shapes = proc.shapes) (sysPorts : after.sysPorts = proc.sysPorts)
    (found : after.ports[index]? = some port) :
    ∃ before, proc.ports[index]? = some before ∧ port.shape = before.shape ∧ port.sysPort = before.sysPort := by
  obtain ⟨before, here, shape⟩ := JalvProcess.shape_at shapes found
  refine ⟨before, here, shape, ?_⟩
  have same := congrArg (·[index]?) sysPorts
  simpa [JalvProcess.sysPorts, List.getElem?_map, found, here] using same

theorem JalvProcess.ports_none (shapes : after.shapes = proc.shapes) (ends : after.ports[index]? = none) :
    proc.ports[index]? = none := by
  rw [List.getElem?_eq_none_iff] at ends ⊢
  exact (JalvProcess.length_of_shapes shapes).symm.trans_le ends

end

theorem JalvProcessPort.backendActivatePort_eq (port : JalvProcessPort) (registers : Bool) :
    ∃ sysPort, port.backendActivatePort registers = { port with sysPort } ∧
      (sysPort = true → port.sysPort = false → port.flow ≠ .unknown) := by
  unfold backendActivatePort
  split
  · exact ⟨port.sysPort, rfl, fun system fresh => absurd (fresh.symm.trans system) Bool.false_ne_true⟩
  · next known =>
    have flow : port.flow ≠ .unknown := fun unknown => known (.inl unknown)
    split
    · exact ⟨port.sysPort, rfl, fun _ _ => flow⟩
    · exact ⟨port.sysPort, rfl, fun _ _ => flow⟩
    · exact ⟨registers, rfl, fun _ _ => flow⟩
    · exact ⟨registers, rfl, fun _ _ => flow⟩
    · split
      · exact ⟨registers, rfl, fun _ _ => flow⟩
      · exact ⟨port.sysPort, rfl, fun _ _ => flow⟩

namespace PortWiring

variable {wiring : PortWiring} {port other : JalvProcessPort}

theorem Fits.congr (fits : wiring.Fits port) (shape : other.shape = port.shape)
    (sysPort : other.sysPort = port.sysPort) : wiring.Fits other := by
  obtain ⟨type, flow, held⟩ := PortLayout.mk.inj (JalvProcessPort.layout_of_shape shape)
  constructor
  · exact fits.tidy
  · rw [held]; exact fits.pointer
  · rw [type, held]; exact fits.buffer
  · rw [flow, sysPort]; exact fits.registered
  · rw [type, flow]; exact fits.unsupported
  · rw [type, flow]; exact fits.control
  · rw [type, flow, sysPort]; exact fits.audio
  · rw [type, flow]; exact fits.event

theorem Connected.congr {cycle : Nat} (connected : wiring.Connected cycle port) (shape : other.shape = port.shape)
    (sysPort : other.sysPort = port.sysPort) : wiring.Connected cycle other := by
  obtain ⟨type, flow, held⟩ := PortLayout.mk.inj (JalvProcessPort.layout_of_shape shape)
  constructor
  · rw [type, flow]; exact connected.unsupported
  · rw [type, flow]; exact connected.control
  · rw [type, flow, sysPort]; exact connected.audio
  · rw [type, flow, held]; exact connected.event

theorem activate_other (midiBufSize : Nat) (other : port.type ≠ .event) :
    wiring.activate midiBufSize port = wiring := by
  rw [activate, if_neg other]

theorem activate_event (midiBufSize : Nat) (event : port.type = .event) (tidy : wiring.evbufs.Tidy)
    (pointer : port.evbuf.isSome → wiring.evbufs.pointer.isSome) :
    (wiring.activate midiBufSize port).evbufs.Tidy ∧
      ∃ number, (wiring.activate midiBufSize port).connection = some (.evbuf number) ∧
        (wiring.activate midiBufSize port).evbufs.pointer = some number := by
  simp only [activate, if_pos event, connect]
  split
  · exact ⟨tidy.renew, _, rfl, rfl⟩
  · next kept =>
    have some : port.evbuf.isSome := by
      cases buffer : port.evbuf with
      | none => simp [buffer] at kept
      | some evbuf => rfl
    obtain ⟨number, points⟩ := Option.isSome_iff_exists.mp (pointer some)
    exact ⟨tidy, number, by rw [points]; rfl, points⟩

theorem Fits.activate (fits : wiring.Fits port) (midiBufSize : Nat) (type : other.type = port.type)
    (flow : other.flow = port.flow) (sysPort : other.sysPort = port.sysPort)
    (buffer : other.evbuf.isSome = port.evbuf.isSome) : (wiring.activate midiBufSize port).Fits other := by
  by_cases event : port.type = .event
  · obtain ⟨tidy, number, connected, points⟩ := activate_event midiBufSize event fits.tidy fits.pointer
    constructor
    · exact tidy
    · exact fun _ => by rw [points]; rfl
    · exact fun _ => buffer.trans (fits.buffer event)
    · rw [flow, sysPort]; exact fits.registered
    · exact fun _ => .inr ⟨number, connected, points⟩
    · exact fun _ control => absurd (type.symm.trans control) (by simp [event])
    · exact fun _ audio => absurd audio (by simp [type, event])
    · exact fun _ _ => ⟨number, connected, points⟩
  · rw [activate_other midiBufSize event]
    constructor
    · exact fits.tidy
    · rw [buffer]; exact fits.pointer
    · rw [type, buffer]; exact fits.buffer
    · rw [flow, sysPort]; exact fits.registered
    · rw [type, flow]; exact fits.unsupported
    · rw [type, flow]; exact fits.control
    · rw [type, flow, sysPort]; exact fits.audio
    · rw [type, flow]; exact fits.event

theorem Fits.deactivate (fits : wiring.Fits port) : wiring.deactivate.evbufs.Settled :=
  (fits.tidy.release.drop.settled_iff).mpr rfl

/-- What the plugin finds in a cycle for which the port has been prepared. -/
theorem Fits.connected (fits : wiring.Fits port) (cycle : Nat) :
    (wiring.preProcessPort cycle port).Connected cycle port := by
  unfold preProcessPort
  split
  · next system =>
    obtain ⟨registered, audio⟩ := system
    have known := fits.registered registered
    constructor
    · exact fun unknown => absurd unknown (by rcases audio with type | type <;> simp [known, type])
    · exact fun _ control => absurd audio (by simp [control])
    · exact fun _ _ => by rw [if_pos registered]; rfl
    · exact fun _ event => absurd audio (by simp [event])
  · next other =>
    constructor
    · intro unknown
      obtain null | ⟨number, connected, points⟩ := fits.unsupported unknown
      · exact .inl null
      · exact .inr ⟨number, connected, fits.tidy.live_iff.mpr points⟩
    · exact fits.control
    · intro known audio
      have unregistered : port.sysPort = false := Bool.eq_false_iff.mpr fun registered => other ⟨registered, audio⟩
      rw [fits.audio known audio unregistered, unregistered, if_neg Bool.false_ne_true]
    · intro known event
      obtain ⟨number, connected, points⟩ := fits.event known event
      refine ⟨fits.buffer event, number, connected, fun live => ?_⟩
      rw [fits.tidy.live_iff, points, Option.some_inj, eq_comm]

theorem Fits.preProcessPort (fits : wiring.Fits port) (cycle : Nat) : (wiring.preProcessPort cycle port).Fits port := by
  unfold PortWiring.preProcessPort
  split
  · next system =>
    obtain ⟨registered, audio⟩ := system
    have known := fits.registered registered
    constructor
    · exact fits.tidy
    · exact fits.pointer
    · exact fits.buffer
    · exact fits.registered
    · exact fun unknown => absurd unknown (by rcases audio with type | type <;> simp [known, type])
    · exact fun _ control => absurd audio (by simp [control])
    · exact fun _ _ none => absurd registered (by simp [none])
    · exact fun _ event => absurd audio (by simp [event])
  · exact fits

theorem backendActivatePort_unknown (unknown : port.flow = .unknown ∨ port.type = .unknown) :
    wiring.backendActivatePort port = wiring.connect .null := by
  rw [backendActivatePort, if_pos unknown]

theorem backendActivatePort_control (known : port.flow ≠ .unknown) (control : port.type = .control) :
    wiring.backendActivatePort port = wiring.connect .control := by
  rw [backendActivatePort, if_neg (by simp [known, control]), if_pos control]

theorem backendActivatePort_other (known : port.flow ≠ .unknown) (type : port.type ≠ .unknown)
    (control : port.type ≠ .control) : wiring.backendActivatePort port = wiring := by
  rw [backendActivatePort, if_neg (by simp [known, type]), if_neg control]

@[simp] theorem backendActivatePort_evbufs : (wiring.backendActivatePort port).evbufs = wiring.evbufs := by
  unfold backendActivatePort
  split
  · rfl
  · split <;> rfl

theorem fits_opened (midiBufSize : Nat) (type : other.type = port.type) (flow : other.flow = port.flow)
    (registered : other.sysPort → port.flow ≠ .unknown)
    (buffer : other.evbuf.isSome = decide (port.type = .event)) :
    ((unconnected.activate midiBufSize { port with evbuf := none }).backendActivatePort port).Fits other := by
  by_cases event : port.type = .event
  · obtain ⟨tidy, number, connected, points⟩ :=
      @activate_event unconnected { port with evbuf := none } midiBufSize event Account.empty_tidy Bool.noConfusion
    constructor
    · rwa [backendActivatePort_evbufs]
    · exact fun _ => by rw [backendActivatePort_evbufs, points]; rfl
    · exact fun _ => by simp [buffer, event]
    · rwa [flow]
    · rw [type, flow]
      exact fun unknown => .inl (by rw [backendActivatePort_unknown unknown]; rfl)
    · exact fun _ control => absurd (type.symm.trans control) (by simp [event])
    · exact fun _ audio => absurd audio (by simp [type, event])
    · rw [flow]
      intro known _
      rw [backendActivatePort_other known (by simp [event]) (by simp [event])]
      exact ⟨number, connected, points⟩
  · rw [@activate_other unconnected { port with evbuf := none } midiBufSize event]
    constructor
    · rw [backendActivatePort_evbufs]
      exact Account.empty_tidy
    · exact fun held => absurd (buffer.symm.trans held) (by simp [event])
    · exact fun same => absurd (type.symm.trans same) event
    · rwa [flow]
    · rw [type, flow]
      exact fun unknown => .inl (by rw [backendActivatePort_unknown unknown]; rfl)
    · rw [type, flow]
      exact fun known control => by rw [backendActivatePort_control known control]; rfl
    · rw [type, flow]
      intro known audio _
      have others : port.type ≠ .unknown ∧ port.type ≠ .control := by
        rcases audio with same | same <;> simp [same]
      rw [backendActivatePort_other known others.1 others.2]
      rfl
    · exact fun _ same => absurd (type.symm.trans same) event

end PortWiring

namespace WiredHost

variable {backend : JalvBackend} {state next : WiredHost}

theorem Wired.idle (wired : state.Wired) (opened : state.closed = false) (idle : next.called = none)
    (open_ : next.closed = false)
    (ports : ∀ index port, next.host.jalv.process.ports[index]? = some port →
      ∃ before, state.host.jalv.process.ports[index]? = some before ∧
        ((state.wiring index).Fits before → (next.wiring index).Fits port))
    (behind : ∀ index, next.host.jalv.process.ports[index]? = none →
      state.host.jalv.process.ports[index]? = none ∧ next.wiring index = state.wiring index) : next.Wired := by
  constructor
  · intro _ index port found
    obtain ⟨before, here, fit⟩ := ports index port found
    exact fit (wired.fits opened index before here)
  · intro index ends
    obtain ⟨ended, same⟩ := behind index ends
    exact same.trans (wired.behind index ended)
  · intro pst jack called
    exact absurd (idle.symm.trans called) (by simp)
  · exact fun closed => absurd (open_.symm.trans closed) (by simp)

theorem Wired.processed (wired : state.Wired) (opened : state.closed = false) (idle : next.called = none)
    (open_ : next.closed = false) (wiring : next.wiring = state.wiring)
    (shapes : next.host.jalv.process.shapes = state.host.jalv.process.shapes)
    (sysPorts : next.host.jalv.process.sysPorts = state.host.jalv.process.sysPorts) : next.Wired := by
  refine wired.idle opened idle open_ ?_ ?_
  · intro index port found
    obtain ⟨before, here, shape, sysPort⟩ := JalvProcess.registered_at shapes sysPorts found
    exact ⟨before, here, fun fits => wiring ▸ fits.congr shape sysPort⟩
  · exact fun index ends => ⟨JalvProcess.ports_none shapes ends, by rw [wiring]⟩

theorem forPorts_some {wiring : Wiring} {ports : List JalvProcessPort} {index : Nat} {port : JalvProcessPort}
    {turn : JalvProcessPort → PortWiring → PortWiring} (found : ports[index]? = some port) :
    wiring.forPorts ports turn index = turn port (wiring index) := by
  rw [Wiring.forPorts, found]

theorem forPorts_none {wiring : Wiring} {ports : List JalvProcessPort} {index : Nat}
    {turn : JalvProcessPort → PortWiring → PortWiring} (ends : ports[index]? = none) :
    wiring.forPorts ports turn index = wiring index := by
  rw [Wiring.forPorts, ends]

theorem activatePort_frame (urids : JalvURIDs) (midiBufSize : Nat) (contents : Memory Byte) (port : JalvProcessPort) :
    ∃ evbuf, activatePort urids midiBufSize contents port = { port with evbuf } ∧
      evbuf.isSome = (decide (port.type = .event) || port.evbuf.isSome) := by
  unfold activatePort
  split
  · next event => exact ⟨_, rfl, by simp [event]⟩
  · next other => exact ⟨port.evbuf, rfl, by simp [other]⟩

theorem wired_step (wired : state.Wired) (stepped : WiredStep backend state next) : next.Wired := by
  cases stepped with
  | main same shared =>
    constructor
    · rw [same]
      exact wired.fits
    · rw [same]
      exact wired.behind
    · intro pst jack called
      obtain ⟨opened, shapes, sysPorts, connected⟩ := wired.called pst jack called
      rw [shared (called ▸ rfl)]
      exact ⟨opened, shapes, sysPorts, connected⟩
    · exact wired.closed
  | bufferSize answer updateFrames contents message idle opened =>
    by_cases running : state.host.jalv.process.runState = .running
    · simp only [bufferSizeCb, if_pos running, JalvImpl.activate, jalvProcessActivate]
      refine wired.idle opened idle opened ?_ ?_
      · intro index port found
        rw [List.getElem?_mapIdx] at found
        obtain ⟨before, here, rfl⟩ := Option.map_eq_some_iff.mp found
        obtain ⟨evbuf, same, held⟩ := activatePort_frame state.host.jalv.urids
          (answer.getD state.host.jalv.settings.midiBufSize) (contents index) before
        rw [same]
        refine ⟨before, here, fun fits => ?_⟩
        simp only [forPorts_some here]
        refine fits.activate _ rfl rfl rfl (held.trans ?_)
        by_cases event : before.type = .event <;> simp [event, fits.buffer]
      · intro index ends
        rw [List.getElem?_mapIdx, Option.map_eq_none_iff] at ends
        exact ⟨ends, forPorts_none ends⟩
    · simp only [bufferSizeCb, if_neg running]
      exact wired.processed opened idle opened rfl rfl rfl
  | silent cycle idle opened paused done =>
    obtain ⟨⟨proc, ring⟩, bypassed, same⟩ := Option.bind_eq_some_iff.mp done
    obtain ⟨⟨status, applied, rest⟩, found, equal⟩ := Option.map_eq_some_iff.mp bypassed
    cases equal
    cases same
    exact wired.processed opened idle opened rfl (applyUiEvents_shapes found) (applyUiEvents_sysPorts found)
  | begin cycle idle opened running begun =>
    constructor
    · intro _ index port found
      simp only [forPorts_some found]
      exact (wired.fits opened index port found).preProcessPort _
    · intro index ends
      simp only [forPorts_none ends]
      exact wired.behind index ends
    · intro pst jack called
      cases called
      refine ⟨opened, processCbBegin_shapes begun, processCbBegin_sysPorts begun, fun index port found => ?_⟩
      simp only [forPorts_some found]
      exact (wired.fits opened index port found).connected _
    · exact fun closed => absurd (opened.symm.trans closed) (by simp)
  | finish called done =>
    obtain ⟨opened, shapes, sysPorts, _⟩ := wired.called _ _ called
    exact wired.processed opened rfl opened rfl ((processCbEnd_shapes done).trans shapes)
      ((processCbEnd_sysPorts done).trans sysPorts)
  | close idle opened =>
    constructor
    · exact fun closed => absurd closed (by simp)
    · intro index ends
      simp only [jalvProcessDeactivate, List.getElem?_map, Option.map_eq_none_iff] at ends
      simp only [forPorts_none ends]
      exact wired.behind index ends
    · intro pst jack called
      exact absurd (idle.symm.trans called) (by simp)
    · intro _ index
      cases found : state.host.jalv.process.ports[index]? with
      | none =>
        simp only [forPorts_none found, wired.behind index found]
        exact ⟨Account.empty_tidy.settled_iff.mpr rfl, .inl rfl⟩
      | some port =>
        simp only [forPorts_some found]
        exact ⟨(wired.fits opened index port found).deactivate, .inr rfl⟩

structure IsOpened (port : JalvProcessPort) : Prop where
  unregistered : port.sysPort = false
  buffer : port.evbuf.isSome = decide (port.type = .event)

theorem jalvProcessPortInit_sysPort {useJackMetadata : Bool} {lilvPort : LilvPort} {port : JalvProcessPort}
    (initialized : jalvProcessPortInit useJackMetadata lilvPort = some port) : port.sysPort = false := by
  rw [jalvProcessPortInit] at initialized
  split at initialized
  · cases initialized
  · cases initialized
    rfl

/-- Opening a plugin adds event buffers to ports that have been initialized. -/
theorem jalvOpen_ports {plugin : LilvPlugin} {midiBufSize : Nat} {updateFrames : UInt32} {contents : Nat → Memory Byte}
    {message : Memory Byte} {jalv opened : JalvImpl} {holds : JalvProcessPort → Prop}
    (created : ∀ useJackMetadata lilvPort port, jalvProcessPortInit useJackMetadata lilvPort = some port → holds port)
    (opens : jalvOpen plugin midiBufSize updateFrames contents message jalv = some (.ok opened)) :
    ∀ port ∈ opened.process.ports, ∃ before evbuf, holds before ∧ port = { before with evbuf } ∧
      evbuf.isSome = (decide (before.type = .event) || before.evbuf.isSome) := by
  obtain ⟨ported, proposal, controls, ports, rfl⟩ := jalvOpen_ok opens
  have fresh : ∀ port ∈ ported.process.ports, holds port := by
    have all := (createPortsFrom_forall (fun _ => True) ports).mp fun _ _ => trivial
    refine (createPortsFrom_forall holds ports).mpr ⟨fun _ member => absurd member List.not_mem_nil, ?_⟩
    intro lilvPort member
    obtain ⟨port, initialized, _⟩ := all.2 lilvPort member
    exact ⟨port, initialized, created _ lilvPort port initialized⟩
  intro port member
  obtain ⟨index, inside, rfl⟩ := List.mem_mapIdx.mp member
  have inside : index < ported.process.ports.length := inside
  obtain ⟨evbuf, same, held⟩ := activatePort_frame ported.urids midiBufSize (contents index) ported.process.ports[index]
  exact ⟨ported.process.ports[index], evbuf, fresh _ (List.getElem_mem inside), same, held⟩

theorem jalvOpen_isOpened {plugin : LilvPlugin} {midiBufSize : Nat} {updateFrames : UInt32}
    {contents : Nat → Memory Byte} {message : Memory Byte} {jalv opened : JalvImpl}
    (opens : jalvOpen plugin midiBufSize updateFrames contents message jalv = some (.ok opened)) :
    ∀ port ∈ opened.process.ports, IsOpened port := by
  let holds (port : JalvProcessPort) : Prop := port.sysPort = false ∧ port.evbuf = none
  have created (useJackMetadata : Bool) (lilvPort : LilvPort) (port : JalvProcessPort)
      (initialized : jalvProcessPortInit useJackMetadata lilvPort = some port) : holds port :=
    ⟨jalvProcessPortInit_sysPort initialized, (jalvProcessPortInit_spec initialized).2.2⟩
  intro port member
  obtain ⟨before, evbuf, ⟨unregistered, buffer⟩, rfl, held⟩ := jalvOpen_ports created opens port member
  exact ⟨unregistered, held.trans (by rw [buffer]; simp)⟩

theorem wired_initial (initial : (wiredSystem backend).initial state) : state.Wired := by
  obtain ⟨plugin, midiBufSize, updateFrames, contents, message, jalv, opened, registers, opens, ports, wiring, idle,
    open_⟩ := initial
  have fresh := jalvOpen_isOpened opens
  constructor
  · intro _ index port found
    rw [ports, List.getElem?_mapIdx] at found
    obtain ⟨before, here, rfl⟩ := Option.map_eq_some_iff.mp found
    obtain ⟨unregistered, buffer⟩ := fresh before (List.mem_of_getElem? here)
    obtain ⟨sysPort, same, registered⟩ := before.backendActivatePort_eq (registers index)
    rw [wiring, same]
    simp only [Wiring.opened, forPorts_some here]
    exact PortWiring.fits_opened midiBufSize rfl rfl (fun system => registered system unregistered) buffer
  · intro index ends
    rw [ports, List.getElem?_mapIdx, Option.map_eq_none_iff] at ends
    rw [wiring]
    simp only [Wiring.opened, forPorts_none ends]
  · intro pst jack called
    exact absurd (idle.symm.trans called) (by simp)
  · exact fun closed => absurd (open_.symm.trans closed) (by simp)

theorem Wired.safe (wired : state.Wired) : state.Safe := by
  constructor
  · intro pst jack called index port found
    obtain ⟨_, shapes, sysPorts, connected⟩ := wired.called pst jack called
    obtain ⟨before, here, shape, sysPort⟩ := JalvProcess.registered_at shapes sysPorts found
    exact (connected index before here).congr shape sysPort
  · exact wired.closed

end WiredHost

/-- In every run, the plugin is only called with its ports connected to memory that is there. -/
theorem ports_connected {backend : JalvBackend} {state : WiredHost}
    (reachable : (wiredSystem backend).Reachable state) : state.Safe := by
  have wired : state.Wired := TransitionSystem.invariant (fun _ => WiredHost.wired_initial)
    (fun _ _ wired stepped => WiredHost.wired_step wired stepped) reachable
  exact wired.safe

def connectionTestPlugin : LilvPlugin where
  ports := [{ lookupTestPort false with isAudio := false, isAtom := true }, lookupTestPort false]
  few := by decide
  defaults := [0, 0]
  writable := []
  readable := []
  threadSafeRestore := false

def connectionTestOpened : JalvImpl :=
  match jalvOpen connectionTestPlugin 1024 0 (fun _ _ => 0) (fun _ => 0) lookupTestHost with
  | some (.ok jalv) => jalv
  | _ => lookupTestHost

def connectionTestStart : WiredHost where
  host := ⟨{ connectionTestOpened with process := { connectionTestOpened.process with
    ports := connectionTestOpened.process.ports.mapIdx fun _ => JalvProcessPort.backendActivatePort true } },
    .empty 4095, .empty 4095⟩
  wiring := .opened 1024 connectionTestOpened.process.ports
  cycles := 0
  called := none
  closed := false

/-- Behind a change of the buffer size, the plugin finds the second buffer of its event port, and the
audio buffer of this cycle. -/
theorem ports_connected_test : ∃ state : WiredHost, state.called.isSome ∧
    (state.wiring 0).connection = some (.evbuf 1) ∧ (state.wiring 1).connection = some (.system 1) ∧ state.Safe := by
  have start : (wiredSystem jackTestBackend).Reachable connectionTestStart :=
    ⟨_, ⟨connectionTestPlugin, 1024, 0, fun _ _ => 0, fun _ => 0, lookupTestHost, connectionTestOpened, fun _ => true,
      rfl, rfl, rfl, rfl, rfl⟩, .refl⟩
  let running : JackHost := { connectionTestStart.host with jalv := { connectionTestStart.host.jalv with
    process := { connectionTestStart.host.jalv.process with runState := .running } } }
  have activated := start.step (@WiredStep.main jackTestBackend connectionTestStart running rfl Bool.noConfusion)
  have resized := activated.step (.bufferSize (some 2048) 0 (fun _ _ => 0) (fun _ => 0) rfl rfl)
  have called := resized.step (.begin jackTestCycle rfl rfl rfl rfl)
  exact ⟨_, rfl, rfl, rfl, ports_connected called⟩

end Jalv
