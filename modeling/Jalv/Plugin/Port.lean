import Jalv.Event.Buffer
import Mathlib.Data.Nat.Basic

/-! Ports of a plugin, and their setup in the process thread (`process_setup.c`).

What lilv reports about a plugin is data. A port description lists the answers
to the queries that the setup makes. Whether CV ports are known is decided when
the program is built.
-/

set_option autoImplicit false

namespace Jalv

inductive PortFlow where | unknown | input | output
  deriving DecidableEq, Repr

inductive PortType where | unknown | control | audio | event | cv
  deriving DecidableEq, Repr

abbrev Text := List Foundation.Byte

/-- A node in the data of a plugin. A float is given by its bits. -/
inductive LilvNode where
  | uri (text : Text)
  | string (text : Text)
  | float (bits : UInt32)
  | int (value : Int32)
  | bool (value : Bool)
  | blank (text : Text)
  deriving DecidableEq

structure LilvPort where
  node : LilvNode
  symbol : Text
  isInput : Bool
  isOutput : Bool
  isControl : Bool
  isAudio : Bool
  isCV : Bool
  isAtom : Bool
  connectionOptional : Bool
  -- `rsz:minimumSize`, if it is there and an integer
  minimumSize : Option Int32
  default : Option LilvNode
  designatedControl : Bool
  reportsLatency : Bool
  designatedLatency : Bool
  designatedBeatsPerMinute : Bool
  supportsMidi : Bool
  supportsPosition : Bool

/-- A port in the process thread. `sysPort` says whether the backend has a port for it. -/
structure JalvProcessPort where
  type : PortType
  flow : PortFlow
  sysPort : Bool
  symbol : Text
  evbuf : Option LV2Evbuf
  bufSize : UInt32
  reportsLatency : Bool
  isPrimary : Bool
  isBpm : Bool
  supportsMidi : Bool
  supportsPos : Bool

def LilvPort.flow (port : LilvPort) : PortFlow :=
  if port.isInput then .input else if port.isOutput then .output else .unknown

-- `useJackMetadata` is the build option `USE_JACK_METADATA`.
def LilvPort.type (useJackMetadata : Bool) (port : LilvPort) : PortType :=
  if port.isControl then .control
  else if port.isAudio then .audio
  else if useJackMetadata ∧ port.isCV then .cv
  else if port.isAtom then .event
  else .unknown

def LilvPort.bufSize (port : LilvPort) : UInt32 :=
  match port.minimumSize with
  | some size => (max size 0).toUInt32
  | none => 0

/-- `set_port_types` and the rest of the port initialization, or `none` when a
mandatory port has an unknown type. -/
def jalvProcessPortInit (useJackMetadata : Bool) (port : LilvPort) : Option JalvProcessPort :=
  let flow := port.flow
  let type := port.type useJackMetadata
  if (flow = .unknown ∨ type = .unknown) ∧ !port.connectionOptional then none
  else some {
    type, flow
    sysPort := false
    symbol := port.symbol
    evbuf := none
    bufSize := port.bufSize
    isPrimary := type = .event ∧ port.designatedControl
    reportsLatency := flow = .output ∧ type = .control ∧ (port.reportsLatency ∨ port.designatedLatency)
    supportsMidi := port.supportsMidi
    supportsPos := port.supportsPosition
    isBpm := flow = .input ∧ type = .control ∧ port.designatedBeatsPerMinute }

theorem jalvProcessPortInit_spec {useJackMetadata : Bool} {port : LilvPort} {process : JalvProcessPort}
    (initialized : jalvProcessPortInit useJackMetadata port = some process) :
    process.type = port.type useJackMetadata ∧ process.flow = port.flow ∧ process.evbuf = none := by
  rw [jalvProcessPortInit] at initialized
  split at initialized
  · cases initialized
  · cases initialized
    exact ⟨rfl, rfl, rfl⟩

theorem LilvPort.type_eq_control_iff (useJackMetadata : Bool) (port : LilvPort) :
    port.type useJackMetadata = .control ↔ port.isControl = true := by
  rw [LilvPort.type]
  split
  · next isControl => simp [isControl]
  · next other => grind

end Jalv
