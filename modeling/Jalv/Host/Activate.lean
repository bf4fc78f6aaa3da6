import Jalv.Host.Sending
import Jalv.Process.Setup

/-! Opening a plugin, as far as the sizes of its buffers depend on it (`jalv_open` of `jalv.c`).

The plugin is instantiated, and nothing else that is opened on the way fails.
-/

set_option autoImplicit false

namespace Jalv

open Foundation

def JalvImpl.activate (jalv : JalvImpl) (updateFrames : UInt32) (contents : Nat → Memory Byte)
    (message : Memory Byte) : JalvImpl :=
  { jalv with
    process := jalvProcessActivate jalv.process jalv.urids jalv.settings.midiBufSize updateFrames contents message }

/-- `jalv_open` from the creation of the ports on. The backend reports the size of a MIDI buffer. -/
def jalvOpen (plugin : LilvPlugin) (midiBufSize : Nat) (updateFrames : UInt32) (contents : Nat → Memory Byte)
    (message : Memory Byte) (jalv : JalvImpl) : Option (Except Text JalvImpl) :=
  match jalvCreatePorts plugin jalv with
  | some (.ok jalv) => do
    let jalv := { jalv with settings := { jalv.settings with midiBufSize } }
    -- Create input and output control structures
    let jalv ← jalvCreateControls plugin true jalv
    let jalv ← jalvCreateControls plugin false jalv
    -- Create Plugin => UI communication buffers
    let jalv := { jalv with uiMsgSize := max jalv.uiMsgSize jalv.settings.midiBufSize }
    -- Allocate port buffers
    return .ok (jalv.activate updateFrames contents message)
  | failed => failed

/-- The message buffer is as large as the minimum size of each output port. -/
def JalvImpl.OutputsFit (jalv : JalvImpl) : Prop :=
  ∀ port ∈ jalv.process.ports, port.flow = .output → port.bufSize.toNat ≤ jalv.uiMsgSize

section

variable {plugin : LilvPlugin} {jalv next : JalvImpl}

theorem JalvImpl.OutputsFit.addPort (fit : jalv.OutputsFit) (index : UInt32) (pport : JalvProcessPort)
    (controls : List Control) : (jalv.addPort index pport controls).OutputsFit := by
  have grows : jalv.uiMsgSize ≤ (jalv.addPort index pport controls).uiMsgSize := by
    simp only [JalvImpl.addPort]
    split
    · exact Nat.le_max_left _ _
    · exact Nat.le_refl _
  have last (output : pport.flow = .output) : pport.bufSize.toNat ≤ (jalv.addPort index pport controls).uiMsgSize := by
    simp only [JalvImpl.addPort, if_pos output]
    by_cases own : pport.bufSize = 0
    · simp [own]
    · rw [portBufSize, if_pos own]
      exact Nat.le_max_right _ _
  exact forall_mem_concat (fun port member output => (fit port member output).trans grows) last

theorem createPortsFrom_outputsFit {ports : List LilvPort} {index : UInt32} (fit : jalv.OutputsFit)
    (created : createPortsFrom index ports jalv = some (.ok next)) : next.OutputsFit := by
  induction ports generalizing index jalv with
  | nil =>
    cases created
    exact fit
  | cons port rest ih =>
    unfold createPortsFrom at created
    split at created
    · next first =>
      obtain ⟨pport, controls, _, _, rfl⟩ := createPort_ok first
      exact ih (fit.addPort index pport controls) created
    · next failed => exact absurd created (failed next)

theorem jalvCreatePorts_outputsFit (created : jalvCreatePorts plugin jalv = some (.ok next)) :
    next.OutputsFit :=
  createPortsFrom_outputsFit (fun _ member => by cases member) created

theorem addProperty_frame {writable : Bool} {property : LilvNode}
    (added : addProperty jalv writable property = some next) :
    ∃ proposal controls, next = { jalv with proposal, controls } := by
  obtain ⟨value, _, rfl⟩ := addProperty_some added
  exact ⟨_, _, rfl⟩

theorem jalvCreateControls_frame {writable : Bool} (created : jalvCreateControls plugin writable jalv = some next) :
    ∃ proposal controls, next = { jalv with proposal, controls } := by
  unfold jalvCreateControls at created
  generalize (if writable then plugin.writable else plugin.readable) = properties at created
  induction properties generalizing jalv with
  | nil =>
    cases created
    exact ⟨_, _, rfl⟩
  | cons property rest ih =>
    rw [List.foldlM_cons] at created
    obtain ⟨middle, first, others⟩ := Option.bind_eq_some_iff.mp created
    have frame : ∃ proposal controls, middle = { jalv with proposal, controls } := by
      rcases createControl_cases first with ⟨marked, _, rfl, _, _⟩ | added
      · exact ⟨_, _, rfl⟩
      · exact addProperty_frame added
    obtain ⟨_, _, rfl⟩ := frame
    obtain ⟨_, _, same⟩ := ih others
    exact ⟨_, _, same⟩

/-- An opened plugin is a state with its ports and some controls that has been activated. -/
theorem jalvOpen_ok {midiBufSize : Nat} {updateFrames : UInt32} {contents : Nat → Memory Byte}
    {message : Memory Byte}
    (opened : jalvOpen plugin midiBufSize updateFrames contents message jalv = some (.ok next)) :
    ∃ ported proposal controls, jalvCreatePorts plugin jalv = some (.ok ported) ∧
      next = JalvImpl.activate { ported with
        proposal, controls
        settings := { ported.settings with midiBufSize }
        uiMsgSize := max ported.uiMsgSize midiBufSize } updateFrames contents message := by
  unfold jalvOpen at opened
  split at opened
  · next ported created =>
    obtain ⟨first, writable, rest⟩ := Option.bind_eq_some_iff.mp opened
    obtain ⟨second, readable, same⟩ := Option.bind_eq_some_iff.mp rest
    obtain ⟨_, _, rfl⟩ := jalvCreateControls_frame writable
    obtain ⟨proposal, controls, rfl⟩ := jalvCreateControls_frame readable
    cases same
    exact ⟨ported, proposal, controls, created, rfl⟩
  · next other => exact absurd opened (other next)

end

end Jalv
