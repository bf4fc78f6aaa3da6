import Jalv.Host.Activate
import Jalv.Host.Lookup

/-! The size of the rings between the two threads (`jalv_open` of `jalv.c`).

The settings get the size from the options before the ports have been created, and
the ports raise the one in the options. What is left for the rings is the size of a
MIDI buffer.
-/

set_option autoImplicit false

namespace Jalv

open Foundation

def JalvImpl.startSettings (jalv : JalvImpl) : JalvSettings := { midiBufSize := 1024, ringSize := jalv.optsRingSize }

def jalvInitUiSettings (settings : JalvSettings) : JalvSettings :=
  let ringSize := if settings.ringSize = 0 then UInt32.ofNat (settings.midiBufSize * nBufferCycles.toNat)
    else settings.ringSize
  { settings with ringSize := max 4096 ringSize }

/-- `jalv_open` with its settings, and the size with which `jalv_process_activate` creates the rings. -/
def jalvOpenRings (plugin : LilvPlugin) (midiBufSize : Nat) (updateFrames : UInt32) (contents : Nat → Memory Byte)
    (message : Memory Byte) (jalv : JalvImpl) : Option (Except Text (JalvImpl × UInt32)) :=
  match jalvCreatePorts plugin { jalv with settings := jalv.startSettings } with
  | some (.ok jalv) => do
    let jalv := { jalv with settings := { jalv.settings with midiBufSize } }
    let jalv ← jalvCreateControls plugin true jalv
    let jalv ← jalvCreateControls plugin false jalv
    let jalv := { jalv with settings := jalvInitUiSettings jalv.settings }
    let jalv := { jalv with uiMsgSize := max jalv.uiMsgSize jalv.settings.midiBufSize }
    return .ok (jalv.activate updateFrames contents message, jalv.settings.ringSize)
  | some (.error symbol) => some (.error symbol)
  | none => none

/-- A ring holds several times as much as the buffer of each event port, and an event that
fits into the buffer is written to such a ring when it is empty. -/
structure JalvImpl.RingsCover (jalv : JalvImpl) (ringSize : UInt32) : Prop where
  size : ∀ port ∈ jalv.process.ports, port.type = .event →
    nBufferCycles.toNat * port.evbufSize jalv.settings.midiBufSize ≤ ringSize.toNat
  -- One byte of a ring is never used
  room : ∀ port ∈ jalv.process.ports, port.type = .event → ∀ (ring : ZixRing) (index : UInt32) (atom : Atom),
    8 + sizeofAtomEvent + atom.size.toNat ≤ port.evbufSize jalv.settings.midiBufSize →
    ring.content = [] → ringSize.toNat ≤ ring.capacity + 1 → (jalvWriteEvent ring index atom).1 = .success

/-- The minimum sizes of the event ports are not larger than a MIDI buffer. A port without one
needs this buffer itself, sixteen times. -/
def LilvPlugin.Covered (plugin : LilvPlugin) (useJackMetadata : Bool) (midiBufSize : Nat) : Prop :=
  ∀ port ∈ plugin.ports, port.type useJackMetadata = .event →
    if port.bufSize = 0 then midiBufSize < 2 ^ 28 else port.bufSize.toNat ≤ max 256 (midiBufSize % 2 ^ 28)

section

variable {plugin : LilvPlugin} {jalv next : JalvImpl}

theorem toNat_max32 (first second : UInt32) : (max first second).toNat = max first.toNat second.toNat := by
  have chosen : max first second = if first ≤ second then second else first := rfl
  rw [chosen]
  split
  · next below => exact (Nat.max_eq_right (UInt32.le_iff_toNat_le.mp below)).symm
  · next above => exact (Nat.max_eq_left (Nat.le_of_not_le (mt UInt32.le_iff_toNat_le.mpr above))).symm

theorem jalvInitUiSettings_default {settings : JalvSettings} (unset : settings.ringSize = 0) :
    (jalvInitUiSettings settings).ringSize.toNat = 16 * max 256 (settings.midiBufSize % 2 ^ 28) := by
  have factor : nBufferCycles.toNat = 16 := rfl
  have least : (4096 : UInt32).toNat = 4096 := rfl
  simp only [jalvInitUiSettings, if_pos unset, toNat_max32, UInt32.toNat_ofNat', factor, least]
  omega

/-- The created ports are those of the plugin, whatever is said about them. -/
theorem createPortsFrom_forall {ports : List LilvPort} {index : UInt32} (holds : JalvProcessPort → Prop)
    (created : createPortsFrom index ports jalv = some (.ok next)) :
    (∀ pport ∈ next.process.ports, holds pport) ↔ (∀ pport ∈ jalv.process.ports, holds pport) ∧
      ∀ port ∈ ports, ∃ pport, jalvProcessPortInit jalv.useJackMetadata port = some pport ∧ holds pport := by
  induction ports generalizing index jalv with
  | nil =>
    cases created
    simp
  | cons port rest ih =>
    unfold createPortsFrom at created
    split at created
    · next first =>
      obtain ⟨pport, controls, initialized, _, rfl⟩ := createPort_ok first
      have ports : (jalv.addPort index pport controls).process.ports = jalv.process.ports ++ [pport] := rfl
      have build : (jalv.addPort index pport controls).useJackMetadata = jalv.useJackMetadata := rfl
      rw [ih created, ports, build, List.forall_mem_append, List.forall_mem_singleton, List.forall_mem_cons, and_assoc]
      simp [initialized]
    · next failed => exact absurd created (failed next)

theorem createPortsFrom_settings {ports : List LilvPort} {index : UInt32}
    (created : createPortsFrom index ports jalv = some (.ok next)) : next.settings = jalv.settings := by
  induction ports generalizing index jalv with
  | nil =>
    cases created
    rfl
  | cons port rest ih =>
    unfold createPortsFrom at created
    split at created
    · next first =>
      obtain ⟨pport, controls, _, _, rfl⟩ := createPort_ok first
      exact (ih created).trans rfl
    · next failed => exact absurd created (failed next)

/-- What `jalv_open` leaves, with the default size of the rings. -/
theorem jalvOpenRings_ok {midiBufSize : Nat} {updateFrames ringSize : UInt32} {contents : Nat → Memory Byte}
    {message : Memory Byte} (unset : jalv.optsRingSize = 0)
    (opened : jalvOpenRings plugin midiBufSize updateFrames contents message jalv = some (.ok (next, ringSize))) :
    ∃ ported, jalvCreatePorts plugin { jalv with settings := jalv.startSettings } = some (.ok ported) ∧
      ringSize.toNat = 16 * max 256 (midiBufSize % 2 ^ 28) ∧ next.settings.midiBufSize = midiBufSize ∧
      next.process.ports = ported.process.ports.mapIdx fun index port =>
        activatePort ported.urids midiBufSize (contents index) port := by
  unfold jalvOpenRings at opened
  split at opened
  · next ported created =>
    obtain ⟨first, writable, rest⟩ := Option.bind_eq_some_iff.mp opened
    obtain ⟨second, readable, same⟩ := Option.bind_eq_some_iff.mp rest
    obtain ⟨_, _, rfl⟩ := jalvCreateControls_frame writable
    obtain ⟨_, _, rfl⟩ := jalvCreateControls_frame readable
    have settings := createPortsFrom_settings created
    cases same
    refine ⟨ported, created, ?_, rfl, rfl⟩
    exact jalvInitUiSettings_default (by simp [settings, JalvImpl.startSettings, unset])
  · cases opened
  · cases opened

theorem jalvProcessPortInit_bufSize {useJackMetadata : Bool} {port : LilvPort} {pport : JalvProcessPort}
    (initialized : jalvProcessPortInit useJackMetadata port = some pport) : pport.bufSize = port.bufSize := by
  rw [jalvProcessPortInit] at initialized
  split at initialized
  · cases initialized
  · cases initialized
    rfl

theorem activatePort_sizes (urids : JalvURIDs) (midiBufSize : Nat) (contents : Memory Byte) (port : JalvProcessPort) :
    (activatePort urids midiBufSize contents port).type = port.type ∧
      (activatePort urids midiBufSize contents port).bufSize = port.bufSize := by
  unfold activatePort
  split <;> exact ⟨rfl, rfl⟩

/-- The event ports of an opened plugin have the minimum sizes that the plugin declares. -/
theorem jalvCreatePorts_bufSizes {ported : JalvImpl} (created : jalvCreatePorts plugin jalv = some (.ok ported))
    (midiBufSize : Nat) (contents : Nat → Memory Byte) (holds : UInt32 → Prop) :
    (∀ pport ∈ ported.process.ports.mapIdx (fun index port =>
        activatePort ported.urids midiBufSize (contents index) port), pport.type = .event → holds pport.bufSize) ↔
      ∀ port ∈ plugin.ports, port.type jalv.useJackMetadata = .event → holds port.bufSize := by
  have activated : (∀ pport ∈ ported.process.ports.mapIdx (fun index port =>
        activatePort ported.urids midiBufSize (contents index) port), pport.type = .event → holds pport.bufSize) ↔
      ∀ pport ∈ ported.process.ports, pport.type = .event → holds pport.bufSize := by
    simp only [List.forall_mem_iff_getElem, List.length_mapIdx, List.getElem_mapIdx, (activatePort_sizes _ _ _ _).1,
      (activatePort_sizes _ _ _ _).2]
  rw [activated, createPortsFrom_forall (fun pport => pport.type = .event → holds pport.bufSize) created]
  constructor
  · rintro ⟨_, created⟩ port member event
    obtain ⟨pport, initialized, sized⟩ := created port member
    rw [← jalvProcessPortInit_bufSize initialized]
    exact sized ((jalvProcessPortInit_spec initialized).1.trans event)
  · intro sized
    have all := (createPortsFrom_forall (fun _ => True) created).mp fun _ _ => trivial
    refine ⟨by simp, fun port member => ?_⟩
    obtain ⟨pport, initialized, _⟩ := all.2 port member
    refine ⟨pport, initialized, fun event => ?_⟩
    rw [jalvProcessPortInit_bufSize initialized]
    exact sized port member ((jalvProcessPortInit_spec initialized).1.symm.trans event)

theorem jalvWriteEvent_success {ring : ZixRing} (index : UInt32) {atom : Atom}
    (room : 20 + atom.size.toNat ≤ ring.writeSpace) : (jalvWriteEvent ring index atom).1 = .success := by
  have length : (UiMessage.eventTransfer index atom).encode.length = 20 + atom.size.toNat := by
    simp [UiMessage.length_encode, UiMessage.payload, sizeofHeader, atom.sized]
    omega
  rw [jalvWriteEvent_eq]
  cases sent : ring.writeAll (UiMessage.eventTransfer index atom).parts with
  | some next => rfl
  | none =>
    rw [writeAll_parts_eq_none_iff, length] at sent
    omega

theorem JalvImpl.RingsCover.of_size {ringSize : UInt32}
    (size : ∀ port ∈ jalv.process.ports, port.type = .event →
      nBufferCycles.toNat * port.evbufSize jalv.settings.midiBufSize ≤ ringSize.toNat) :
    jalv.RingsCover ringSize where
  size := size
  room port member event ring index atom fits empty large := by
    have covers := size port member event
    have factor : nBufferCycles.toNat = 16 := rfl
    unfold sizeofAtomEvent at fits
    rw [factor] at covers
    apply jalvWriteEvent_success
    rw [Fifo.writeSpace, empty, List.length_nil]
    omega

/-- The rings cover each event port exactly if no port declares a larger minimum size than
that of a MIDI buffer, with sizes that do not overflow. -/
theorem ringsCover_iff {midiBufSize : Nat} {updateFrames ringSize : UInt32} {contents : Nat → Memory Byte}
    {message : Memory Byte} (unset : jalv.optsRingSize = 0)
    (opened : jalvOpenRings plugin midiBufSize updateFrames contents message jalv = some (.ok (next, ringSize))) :
    next.RingsCover ringSize ↔ plugin.Covered jalv.useJackMetadata midiBufSize := by
  obtain ⟨ported, created, size, midi, ports⟩ := jalvOpenRings_ok unset opened
  have factor : nBufferCycles.toNat = 16 := rfl
  have sizes : next.RingsCover ringSize ↔ ∀ port ∈ next.process.ports, port.type = .event →
      16 * (if port.bufSize ≠ 0 then port.bufSize.toNat else midiBufSize) ≤
        16 * max 256 (midiBufSize % 2 ^ 28) := by
    rw [← size, ← midi]
    exact ⟨fun cover => cover.size, JalvImpl.RingsCover.of_size⟩
  rw [sizes, ports, jalvCreatePorts_bufSizes created midiBufSize contents fun bufSize =>
    16 * (if bufSize ≠ 0 then bufSize.toNat else midiBufSize) ≤ 16 * max 256 (midiBufSize % 2 ^ 28)]
  refine forall₃_congr fun port _ _ => ?_
  by_cases none : port.bufSize = 0
  · rw [if_neg (not_not.mpr none), if_pos none]
    omega
  · rw [if_pos none, if_neg none]
    omega

end

def ringTestPort (minimumSize : Option Int32) : LilvPort :=
  { lookupTestPort false with isAudio := false, isAtom := true, minimumSize }

def ringTestPlugin (minimumSize : Option Int32) : LilvPlugin where
  ports := [ringTestPort minimumSize]
  few := by simp
  defaults := [0]
  writable := []
  readable := []
  threadSafeRestore := false

def ringTestHost : JalvImpl := { lookupTestHost with optsRingSize := 0 }

theorem ringsCover_iff_test :
    ∃ next, jalvOpenRings (ringTestPlugin (some 2048)) 4096 0 (fun _ _ => 0) (fun _ => 0) ringTestHost =
        some (.ok (next, 65536)) ∧ next.RingsCover 65536 := by
  obtain ⟨next, opened⟩ : ∃ next, jalvOpenRings (ringTestPlugin (some 2048)) 4096 0 (fun _ _ => 0) (fun _ => 0)
      ringTestHost = some (.ok (next, 65536)) := ⟨_, rfl⟩
  refine ⟨next, opened, (ringsCover_iff rfl opened).mpr ?_⟩
  intro port member _
  cases List.mem_singleton.mp member
  decide

theorem ringsCover_refuted :
    ∃ next, jalvOpenRings (ringTestPlugin (some 8192)) 4096 0 (fun _ _ => 0) (fun _ => 0) ringTestHost =
        some (.ok (next, 65536)) ∧ ¬next.RingsCover 65536 := by
  refine ⟨_, rfl, fun cover => ?_⟩
  have sizes := cover.size _ (List.mem_singleton_self _) rfl
  revert sizes
  decide

end Jalv
