import Jalv.Control.Control
import Jalv.Process.Process

/-! Loading a plugin: its ports and its controls (`jalv.c`).

`none` is the undefined behavior of a value that could not be set. It does not
occur here, because every value starts as zero.
-/

set_option autoImplicit false

namespace Jalv

structure LilvPlugin where
  ports : List LilvPort
  few : ports.length < 2 ^ 32
  -- The default values of all ports, as bits.
  defaults : List UInt32
  writable : List LilvNode
  readable : List LilvNode
  threadSafeRestore : Bool

structure JalvPort where
  symbol : Text
  type : PortType
  flow : PortFlow
  index : UInt32

structure JalvSettings where
  midiBufSize : Nat
  ringSize : UInt32

/-- State of the main thread. `proposal` are the answers to its next allocations for values. -/
structure JalvImpl where
  world : World
  forge : Forge
  urids : JalvURIDs
  useJackMetadata : Bool
  proposal : Nat → Option UInt64
  optsRingSize : UInt32
  settings : JalvSettings
  ports : List JalvPort
  controls : List Control
  uiMsg : Foundation.Memory Foundation.Byte
  uiMsgSize : Nat
  process : JalvProcess
  safeRestore : Bool
  updating : Bool

def JalvImpl.nextProposals (jalv : JalvImpl) : Nat → Option UInt64 := fun index => jalv.proposal (index + 1)

def nBufferCycles : UInt32 := 16

/-- The size of the buffer of a port, in the 32 bits of `buf_size`. -/
def portBufSize (pport : JalvProcessPort) (midiBufSize : Nat) : UInt32 :=
  if pport.bufSize ≠ 0 then pport.bufSize else UInt32.ofNat midiBufSize

def createPortControl (jalv : JalvImpl) (portIndex : UInt32) (port : LilvPort) : Option (List Control) :=
  if port.isControl then do
    let control ← newPortControl jalv.world jalv.forge (jalv.proposal 0) port portIndex
    return addControl jalv.controls control
  else some jalv.controls

def JalvImpl.addPort (jalv : JalvImpl) (portIndex : UInt32) (pport : JalvProcessPort) (controls : List Control) :
    JalvImpl :=
  let bufSize := portBufSize pport jalv.settings.midiBufSize
  let process := { jalv.process with
    ports := jalv.process.ports ++ [pport]
    controlIn :=
      -- Store index if this is the designated control input port
      if jalv.process.controlIn = uint32Max ∧ pport.isPrimary ∧ pport.flow = .input ∧ pport.type = .event then
        portIndex
      else jalv.process.controlIn
    processMsgSize :=
      if pport.flow = .input then max jalv.process.processMsgSize bufSize.toNat else jalv.process.processMsgSize }
  { jalv with
    proposal := jalv.nextProposals
    ports := jalv.ports ++ [⟨pport.symbol, pport.type, pport.flow, portIndex⟩]
    controls, process
    optsRingSize := max jalv.optsRingSize (bufSize * nBufferCycles)
    uiMsgSize := if pport.flow = .output then max jalv.uiMsgSize bufSize.toNat else jalv.uiMsgSize }

/-- Fails with the symbol of a mandatory port that has an unknown type. -/
def createPort (jalv : JalvImpl) (portIndex : UInt32) (port : LilvPort) : Option (Except Text JalvImpl) :=
  match jalvProcessPortInit jalv.useJackMetadata port with
  | none => some (.error port.symbol)
  | some pport => (createPortControl jalv portIndex port).map fun controls =>
      .ok (jalv.addPort portIndex pport controls)

def createPortsFrom (portIndex : UInt32) : List LilvPort → JalvImpl → Option (Except Text JalvImpl)
  | [], jalv => some (.ok jalv)
  | port :: rest, jalv =>
    match createPort jalv portIndex port with
    | some (.ok next) => createPortsFrom (portIndex + 1) rest next
    | failed => failed

def jalvCreatePorts (plugin : LilvPlugin) (jalv : JalvImpl) : Option (Except Text JalvImpl) :=
  createPortsFrom 0 plugin.ports
    { jalv with ports := [], process := { jalv.process with ports := [], controlsBuf := plugin.defaults } }

def markReadable (controls : List Control) (property : LilvNode) : Option (List Control) :=
  match controls.findIdx? fun control => control.node = property with
  | some pointer => modifyControl controls pointer fun control => some { control with isReadable := true }
  | none => none

def addProperty (jalv : JalvImpl) (writable : Bool) (property : LilvNode) : Option JalvImpl := do
  let record ← newPropertyControl jalv.world jalv.forge (jalv.proposal 0) property
  let record := if writable then { record with isWritable := true } else { record with isReadable := true }
  let jalv := { jalv with proposal := jalv.nextProposals }
  if record.valueType ≠ 0 then return { jalv with controls := addControl jalv.controls record }
  else return jalv

def createControl (plugin : LilvPlugin) (writable : Bool) (jalv : JalvImpl) (property : LilvNode) :
    Option JalvImpl :=
  if !writable ∧ property ∈ plugin.writable then
    match markReadable jalv.controls property with
    | some controls => some { jalv with controls }
    | none => addProperty jalv writable property
  else addProperty jalv writable property

def jalvCreateControls (plugin : LilvPlugin) (writable : Bool) (jalv : JalvImpl) : Option JalvImpl :=
  (if writable then plugin.writable else plugin.readable).foldlM (createControl plugin writable) jalv

def openControls (plugin : LilvPlugin) (jalv : JalvImpl) : Option (Except Text JalvImpl) :=
  match jalvCreatePorts plugin jalv with
  | some (.ok ported) => do
    let ported ← jalvCreateControls plugin true ported
    let ported ← jalvCreateControls plugin false ported
    return .ok ported
  | failed => failed

theorem createPort_ok {jalv next : JalvImpl} {portIndex : UInt32} {port : LilvPort}
    (created : createPort jalv portIndex port = some (.ok next)) :
    ∃ pport controls, jalvProcessPortInit jalv.useJackMetadata port = some pport ∧
      createPortControl jalv portIndex port = some controls ∧ next = jalv.addPort portIndex pport controls := by
  unfold createPort at created
  split at created
  · cases created
  · next pport initialized =>
    obtain ⟨controls, added, same⟩ := Option.map_eq_some_iff.mp created
    cases same
    exact ⟨pport, controls, initialized, added, rfl⟩

def propertyControl (jalv : JalvImpl) (writable : Bool) (property : LilvNode) (value : ValueStore) : Control where
  id := .property (jalv.world.map property)
  node := property
  symbol := jalv.world.symbol property
  valueType := propertyValueType jalv.world jalv.forge property
  value
  isWritable := writable
  isReadable := !writable

section

variable {plugin : LilvPlugin} {jalv next : JalvImpl} {writable : Bool} {property : LilvNode}

theorem addProperty_eq {value : ValueStore}
    (set : defaultValue jalv.world jalv.forge (jalv.proposal 0) (jalv.world.default property) = some value) :
    addProperty jalv writable property = some { jalv with
      proposal := jalv.nextProposals
      controls := if propertyValueType jalv.world jalv.forge property = 0 then jalv.controls
        else addControl jalv.controls (propertyControl jalv writable property value) } := by
  by_cases known : propertyValueType jalv.world jalv.forge property = 0 <;> cases writable <;>
    simp [addProperty, newPropertyControl, propertyControl, set, known]

/-- A property adds its control, unless the type of its value is unknown. -/
theorem addProperty_some (added : addProperty jalv writable property = some next) :
    ∃ value, defaultValue jalv.world jalv.forge (jalv.proposal 0) (jalv.world.default property) = some value ∧
      next = { jalv with
        proposal := jalv.nextProposals
        controls := if propertyValueType jalv.world jalv.forge property = 0 then jalv.controls
          else addControl jalv.controls (propertyControl jalv writable property value) } := by
  obtain ⟨record, made, _⟩ := Option.bind_eq_some_iff.mp added
  obtain ⟨value, set, _⟩ := Option.bind_eq_some_iff.mp made
  exact ⟨value, set, Option.some.inj (added.symm.trans (addProperty_eq set))⟩

theorem markReadable_some {controls marked : List Control} (found : markReadable controls property = some marked) :
    ∃ pointer control, controls[pointer]? = some control ∧
      marked = controls.set pointer { control with isReadable := true } := by
  unfold markReadable at found
  split at found
  · obtain ⟨control, here, same⟩ := Option.bind_eq_some_iff.mp found
    cases same
    exact ⟨_, control, here, rfl⟩
  · cases found

/-- A turn of the loop over the properties marks a control that there is already, or adds the property. -/
theorem createControl_cases (created : createControl plugin writable jalv property = some next) :
    (∃ marked, markReadable jalv.controls property = some marked ∧ next = { jalv with controls := marked } ∧
      writable = false ∧ property ∈ plugin.writable) ∨ addProperty jalv writable property = some next := by
  unfold createControl at created
  split at created
  · next asked =>
    split at created
    · next marked found =>
      cases created
      exact Or.inl ⟨marked, found, rfl, by simpa using asked.1, asked.2⟩
    · exact Or.inr created
  · exact Or.inr created

end

end Jalv
