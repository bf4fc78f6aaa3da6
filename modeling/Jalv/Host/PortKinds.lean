import Jalv.Host.Activate
import Jalv.Process.Decode

/-! The kinds of the ports, as they are known in both threads.

The ports of an opened plugin have the same types and flows in the main and in the
process thread, and the control input port is an event input port.
-/

set_option autoImplicit false

namespace Jalv

open Foundation

def JalvPort.kind (port : JalvPort) : PortType × PortFlow := (port.type, port.flow)

structure JalvImpl.Consistent (jalv : JalvImpl) : Prop where
  kinds : jalv.ports.map JalvPort.kind = jalv.process.kinds
  control : jalv.process.controlIn ≠ uint32Max →
    jalv.process.kinds[jalv.process.controlIn.toNat]? = some (.event, .input)

section

variable {plugin : LilvPlugin} {jalv next : JalvImpl}

theorem JalvImpl.Consistent.addPort (consistent : jalv.Consistent) {index : UInt32}
    (place : index.toNat = jalv.process.ports.length) (pport : JalvProcessPort) (controls : List Control) :
    (jalv.addPort index pport controls).Consistent := by
  have kinds : (jalv.addPort index pport controls).process.kinds = jalv.process.kinds ++ [pport.kind] := by
    simp [JalvImpl.addPort, JalvProcess.kinds]
  refine ⟨?_, fun known => ?_⟩
  · rw [kinds, ← consistent.kinds]
    simp [JalvImpl.addPort, JalvPort.kind, JalvProcessPort.kind]
  · rw [kinds]
    simp only [JalvImpl.addPort] at known ⊢
    split
    · next designated =>
      rw [place, List.getElem?_append_right (by simp [JalvProcess.kinds])]
      simp [JalvProcess.kinds, JalvProcessPort.kind, designated.2.2.1, designated.2.2.2]
    · next other =>
      rw [if_neg other] at known
      have found := consistent.control known
      obtain ⟨inside, _⟩ := List.getElem?_eq_some_iff.mp found
      rw [List.getElem?_append_left inside, found]

theorem createPortsFrom_consistent {ports : List LilvPort} {index : UInt32} (consistent : jalv.Consistent)
    (place : index.toNat = jalv.process.ports.length) (few : jalv.process.ports.length + ports.length < 2 ^ 32)
    (created : createPortsFrom index ports jalv = some (.ok next)) : next.Consistent := by
  induction ports generalizing index jalv with
  | nil =>
    cases created
    exact consistent
  | cons port rest ih =>
    rw [List.length_cons] at few
    unfold createPortsFrom at created
    split at created
    · next first =>
      obtain ⟨pport, controls, _, _, rfl⟩ := createPort_ok first
      have count : (jalv.addPort index pport controls).process.ports.length = jalv.process.ports.length + 1 := by
        simp [JalvImpl.addPort]
      have step : (index + 1).toNat = index.toNat + 1 := by
        simp only [UInt32.toNat_add, UInt32.reduceToNat]
        omega
      exact ih (consistent.addPort place pport controls) (by omega) (by omega) created
    · next failed => exact absurd created (failed next)

theorem jalvCreatePorts_consistent (fresh : jalv.process.controlIn = uint32Max)
    (created : jalvCreatePorts plugin jalv = some (.ok next)) : next.Consistent := by
  have begins : JalvImpl.Consistent { jalv with
      ports := [], process := { jalv.process with ports := [], controlsBuf := plugin.defaults } } :=
    ⟨rfl, fun known => absurd fresh known⟩
  have few := plugin.few
  exact createPortsFrom_consistent begins rfl (by simpa using few) created

theorem activatePort_kind (urids : JalvURIDs) (midiBufSize : Nat) (contents : Memory Byte) (port : JalvProcessPort) :
    (activatePort urids midiBufSize contents port).kind = port.kind := by
  unfold activatePort
  split <;> rfl

theorem activate_kinds (jalv : JalvImpl) (updateFrames : UInt32) (contents : Nat → Memory Byte)
    (message : Memory Byte) : (jalv.activate updateFrames contents message).process.kinds = jalv.process.kinds := by
  apply List.ext_getElem?
  intro index
  simp only [JalvProcess.kinds, JalvImpl.activate, jalvProcessActivate, List.getElem?_map, List.getElem?_mapIdx,
    Option.map_map]
  congr 1
  funext port
  exact activatePort_kind _ _ _ port

theorem jalvOpen_consistent {midiBufSize : Nat} {updateFrames : UInt32} {contents : Nat → Memory Byte}
    {message : Memory Byte} (fresh : jalv.process.controlIn = uint32Max)
    (opened : jalvOpen plugin midiBufSize updateFrames contents message jalv = some (.ok next)) : next.Consistent := by
  obtain ⟨ported, proposal, controls, created, rfl⟩ := jalvOpen_ok opened
  have consistent := jalvCreatePorts_consistent fresh created
  constructor
  · rw [activate_kinds]
    exact consistent.kinds
  · rw [activate_kinds]
    exact consistent.control

end

end Jalv
