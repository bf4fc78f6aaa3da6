import Jalv.Host.Loaded

/-! Refreshing the user interface (`jalv_refresh_ui`).

One index runs over the ports and the controls, of which those of the control ports
are the first ones.
-/

set_option autoImplicit false

namespace Jalv

open Foundation

def notifiedControls (jalv : JalvImpl) : List Nat :=
  (List.range (min jalv.ports.length jalv.controls.length)).filter fun i =>
    jalv.ports[i]?.map JalvPort.type = some .control

/-- The calls of the frontend, and the state and the ring after the message for the plugin. -/
def jalvRefreshUi (jalv : JalvImpl) (uiToPlugin : ZixRing) : Option (List Nat × JalvImpl × ZixRing) := do
  -- Update control port values
  let notified := notifiedControls jalv
  if jalv.process.controlIn ≠ uint32Max then
    -- Send patch:Get message for initial parameters/etc
    let forge ← lv2AtomForgeObject jalv.forge 32 0 jalv.urids.patchGet
    let buf : Memory Byte := Memory.store (fun _ => 0) 0 forge.buffer
    let (jalv, uiToPlugin) ← jalvSendToPlugin jalv uiToPlugin jalv.process.controlIn (8 + (atomAt buf 0).size)
      jalv.urids.atomEventTransfer buf
    return (notified, jalv, uiToPlugin)
  else return (notified, jalv, uiToPlugin)

def RefreshesControls (plugin : LilvPlugin) (jalv : JalvImpl) (uiToPlugin : ZixRing) : Prop :=
  ∃ notified next after, jalvRefreshUi jalv uiToPlugin = some (notified, next, after) ∧
    notified.map (fun position => jalv.controls[position]?.map Control.id) =
      (portControlIds 0 plugin.ports).map some

section

variable {plugin : LilvPlugin} {jalv loaded next : JalvImpl}

theorem lv2AtomObjectGet_empty {memory : Memory Byte} (size : wordValue (memory.load 0 4) = 8) (keys : List URID) :
    lv2AtomObjectGet memory 0 keys = some (keys.map fun _ => none) := by
  have stop : objectEnd memory 0 = 16 := by
    rw [objectEnd, size]
    rfl
  have unanswered :
      keys.map ((fun query => query.2) ∘ fun key => (key, (none : Option Nat))) = keys.map fun _ => none :=
    rfl
  simp only [lv2AtomObjectGet, stop, objectGetFrom, ge_iff_le, Nat.le_refl, if_true, List.map_map, unanswered]

theorem patchChangedProperties_empty {memory : Memory Byte} (size : wordValue (memory.load 0 4) = 8) (forge : Forge)
    (urids : JalvURIDs) : patchChangedProperties forge urids memory 0 = some [] := by
  simp only [patchChangedProperties, patchSetGet, patchPutGet, lv2AtomObjectGet_empty size]
  split
  · rfl
  · split <;> rfl

theorem jalvSendToPlugin_empty (jalv : JalvImpl) (uiToPlugin : ZixRing) (portIndex bufferSize protocol : UInt32)
    {buffer : Memory Byte} (size : wordValue (buffer.load 0 4) = 8) :
    ∃ next after, jalvSendToPlugin jalv uiToPlugin portIndex bufferSize protocol buffer = some (next, after) := by
  have unchanged : changeProperties jalv buffer = some jalv := by
    rw [changeProperties, patchChangedProperties_empty size]
    split <;> rfl
  unfold jalvSendToPlugin
  split
  · exact ⟨_, _, rfl⟩
  · split
    · split <;> exact ⟨_, _, rfl⟩
    · split
      · simp only [unchanged, Option.bind_eq_bind, Option.bind_some]
        split <;> exact ⟨_, _, rfl⟩
      · exact ⟨_, _, rfl⟩

theorem jalvRefreshUi_returns (uiToPlugin : ZixRing) :
    ∃ next after, jalvRefreshUi jalv uiToPlugin = some (notifiedControls jalv, next, after) := by
  by_cases known : jalv.process.controlIn ≠ uint32Max
  · let header := word 8 ++ word jalv.forge.object ++ word 0 ++ word jalv.urids.patchGet
    have forged : lv2AtomForgeObject jalv.forge 32 0 jalv.urids.patchGet = some ⟨32, header⟩ := by
      rw [lv2AtomForgeObject, lv2AtomForgeRaw_room _ _ (by simp)]
      rfl
    let buf : Memory Byte := Memory.store (fun _ => 0) 0 header
    -- The size is the first word of the object
    have size : wordValue (buf.load 0 4) = 8 := by
      have whole : buf.load 0 (4 + 12) = header := Memory.load_store (fun _ => 0) 0 header
      rw [Memory.load_append] at whole
      have parts : header = word 8 ++ (word jalv.forge.object ++ word 0 ++ word jalv.urids.patchGet) := by
        simp only [header, List.append_assoc]
      have first : buf.load 0 4 = word 8 := List.append_inj_left (whole.trans parts) (by simp)
      rw [first, wordValue_word]
    obtain ⟨next, after, sent⟩ := jalvSendToPlugin_empty jalv uiToPlugin jalv.process.controlIn
      (8 + (atomAt buf 0).size) jalv.urids.atomEventTransfer size
    refine ⟨next, after, ?_⟩
    simp only [jalvRefreshUi, if_pos known, forged, Option.bind_eq_bind, Option.bind_some]
    change (jalvSendToPlugin jalv uiToPlugin jalv.process.controlIn (8 + (atomAt buf 0).size)
      jalv.urids.atomEventTransfer buf).bind _ = _
    rw [sent]
    rfl
  · exact ⟨jalv, uiToPlugin, by simp only [jalvRefreshUi, if_neg known]; rfl⟩

theorem createPortsFrom_isControl {ports : List LilvPort} {index : UInt32}
    (created : createPortsFrom index ports jalv = some (.ok next)) :
    next.ports.map JalvPort.isControl = jalv.ports.map JalvPort.isControl ++ ports.map LilvPort.isControl := by
  induction ports generalizing index jalv with
  | nil =>
    cases created
    exact (List.append_nil _).symm
  | cons port rest ih =>
    unfold createPortsFrom at created
    split at created
    · next middle first =>
      obtain ⟨pport, controls, initialized, _, rfl⟩ := createPort_ok first
      have type : decide (pport.type = .control) = port.isControl := by
        rw [(jalvProcessPortInit_spec initialized).1, Bool.eq_iff_iff, decide_eq_true_iff, LilvPort.type_eq_control_iff]
      rw [ih created]
      simp [JalvImpl.addPort, JalvPort.isControl, type]
    · next failed => exact absurd created (failed next)

theorem openControls_isControl (opened : openControls plugin jalv = some (.ok loaded)) :
    loaded.ports.map JalvPort.isControl = plugin.ports.map LilvPort.isControl := by
  unfold openControls at opened
  split at opened
  · next ported created =>
    obtain ⟨first, writable, rest⟩ := Option.bind_eq_some_iff.mp opened
    obtain ⟨second, readable, same⟩ := Option.bind_eq_some_iff.mp rest
    cases same
    obtain ⟨_, _, rfl⟩ := jalvCreateControls_frame writable
    obtain ⟨_, _, rfl⟩ := jalvCreateControls_frame readable
    exact createPortsFrom_isControl created
  · next failed => exact absurd opened (failed loaded)

structure LilvPlugin.Mirrored (plugin : LilvPlugin) (jalv : JalvImpl) (properties : List URID) : Prop where
  ports : jalv.ports.map JalvPort.isControl = plugin.ports.map LilvPort.isControl
  controls : jalv.controls.map Control.id = portControlIds 0 plugin.ports ++ properties.map .property

theorem mirrored_of_opened (fresh : jalv.controls = []) (opened : openControls plugin jalv = some (.ok loaded))
    (revalued : loaded.Revalued next) : ∃ properties, plugin.Mirrored next properties := by
  obtain ⟨properties, ids, _⟩ := openControls_ids fresh opened
  refine ⟨properties, revalued.ports ▸ openControls_isControl opened, ?_⟩
  have names := congrArg (List.map Prod.fst) revalued.names
  rw [List.map_map, List.map_map] at names
  exact names.trans ids

theorem length_portControlIds_eq (index : UInt32) (ports : List LilvPort) :
    (portControlIds index ports).length = ports.countP LilvPort.isControl := by
  induction ports generalizing index with
  | nil => rfl
  | cons port rest ih =>
    rw [portControlIds, List.countP_cons]
    split
    · rw [List.length_cons, ih]
    · rw [ih, Nat.add_zero]

theorem mem_portControlIds {index : UInt32} {ports : List LilvPort} {id : ControlId}
    (member : id ∈ portControlIds index ports) : ∃ portIndex, id = .port portIndex := by
  induction ports generalizing index with
  | nil => cases member
  | cons port rest ih =>
    rw [portControlIds] at member
    split at member
    · rcases List.mem_cons.mp member with same | behind
      · exact ⟨index, same⟩
      · exact ih behind
    · exact ih member

/-- If the control ports come first, then they are as many as their controls. -/
theorem controlAt_iff_of_first (first : plugin.ControlPortsFirst) (position : Nat) :
    plugin.ControlAt position ↔ position < (portControlIds 0 plugin.ports).length := by
  have here := getElem?_portControlIds 0 (fun early late port before found control =>
    first early late before ⟨port, found, control⟩) position
  constructor
  · rintro ⟨port, found, control⟩
    rw [found, Option.filter_some_pos control, Option.map_some] at here
    exact (List.getElem?_eq_some_iff.mp here).1
  · intro inside
    rw [List.getElem?_eq_getElem inside] at here
    obtain ⟨port, selected, _⟩ := Option.map_eq_some_iff.mp here.symm
    exact ⟨port, Option.filter_eq_some_iff.mp selected⟩

/-- If as many ports as there are control ports begin with control ports, no other one follows. -/
theorem controlAt_lt (early : ∀ position < (portControlIds 0 plugin.ports).length, plugin.ControlAt position)
    {late : Nat} (control : plugin.ControlAt late) : late < (portControlIds 0 plugin.ports).length := by
  have count := length_portControlIds_eq 0 plugin.ports
  have fewer := length_portControlIds 0 plugin.ports
  by_contra behind
  have begins : (plugin.ports.take (portControlIds 0 plugin.ports).length).countP LilvPort.isControl =
      (portControlIds 0 plugin.ports).length := by
    rw [List.countP_eq_length.mpr, List.length_take, Nat.min_eq_left fewer]
    intro port member
    obtain ⟨position, inside, same⟩ := List.mem_iff_getElem.mp member
    rw [List.length_take, Nat.lt_min] at inside
    obtain ⟨other, found, isControl⟩ := early position inside.1
    rw [List.getElem_take] at same
    rw [List.getElem?_eq_getElem inside.2, same] at found
    cases found
    exact isControl
  obtain ⟨port, found, isControl⟩ := control
  have another : 0 < (plugin.ports.drop (portControlIds 0 plugin.ports).length).countP LilvPort.isControl := by
    rw [List.countP_pos_iff]
    refine ⟨port, List.mem_of_getElem? (i := late - (portControlIds 0 plugin.ports).length) ?_, isControl⟩
    rw [List.getElem?_drop, Nat.add_sub_cancel' (Nat.not_lt.mp behind), found]
  have total : (plugin.ports.take (portControlIds 0 plugin.ports).length).countP LilvPort.isControl +
      (plugin.ports.drop (portControlIds 0 plugin.ports).length).countP LilvPort.isControl =
        (portControlIds 0 plugin.ports).length := by
    rw [← List.countP_append, List.take_append_drop, count]
  omega

section

variable {properties : List URID} (mirrored : plugin.Mirrored jalv properties)
include mirrored

theorem type_eq_control_iff (position : Nat) :
    jalv.ports[position]?.map JalvPort.type = some .control ↔ plugin.ControlAt position := by
  have same : jalv.ports[position]?.map JalvPort.isControl = plugin.ports[position]?.map LilvPort.isControl := by
    rw [← List.getElem?_map, ← List.getElem?_map, mirrored.ports]
  have read : jalv.ports[position]?.map JalvPort.type = some .control ↔
      jalv.ports[position]?.map JalvPort.isControl = some true := by
    simp [JalvPort.isControl]
  rw [read, same, Option.map_eq_some_iff]
  rfl

/-- The identifier of a control, which for a position behind those of the ports is a property's. -/
theorem id_eq (position : Nat) :
    jalv.controls[position]?.map Control.id =
      if position < (portControlIds 0 plugin.ports).length then (portControlIds 0 plugin.ports)[position]?
      else (properties.map ControlId.property)[position - (portControlIds 0 plugin.ports).length]? := by
  rw [← List.getElem?_map, mirrored.controls, List.getElem?_append]

theorem length_portControlIds_le :
    (portControlIds 0 plugin.ports).length ≤ min jalv.ports.length jalv.controls.length := by
  have ports := congrArg List.length mirrored.ports
  have controls := congrArg List.length mirrored.controls
  have fewer := length_portControlIds 0 plugin.ports
  simp only [List.length_map, List.length_append] at ports controls
  omega

theorem notified_of_first (first : plugin.ControlPortsFirst) :
    notifiedControls jalv = List.range (portControlIds 0 plugin.ports).length := by
  have bound := length_portControlIds_le mirrored
  have selected (position : Nat) : jalv.ports[position]?.map JalvPort.type = some .control ↔
      position < (portControlIds 0 plugin.ports).length :=
    (type_eq_control_iff mirrored position).trans (controlAt_iff_of_first first position)
  simp only [notifiedControls, selected]
  obtain ⟨others, total⟩ := Nat.exists_eq_add_of_le bound
  rw [total, List.range_add, List.filter_append, List.filter_eq_self.mpr (by simp),
    List.filter_eq_nil_iff.mpr (by simp), List.append_nil]

theorem refreshed_of_first (first : plugin.ControlPortsFirst) :
    (notifiedControls jalv).map (fun position => jalv.controls[position]?.map Control.id) =
      (portControlIds 0 plugin.ports).map some := by
  rw [notified_of_first mirrored first]
  apply List.ext_getElem (by simp)
  intro position inside bound
  rw [List.length_map] at bound
  rw [List.getElem_map, List.getElem_range, id_eq mirrored, if_pos bound, List.getElem?_eq_getElem bound,
    List.getElem_map]

/-- Only the control of a control port has the identifier of one. -/
theorem first_of_refreshed (refreshed : (notifiedControls jalv).map
      (fun position => jalv.controls[position]?.map Control.id) = (portControlIds 0 plugin.ports).map some) :
    plugin.ControlPortsFirst := by
  have below : notifiedControls jalv ⊆ List.range (portControlIds 0 plugin.ports).length := by
    intro position member
    have listed := refreshed ▸ List.mem_map_of_mem (f := fun position => jalv.controls[position]?.map Control.id) member
    obtain ⟨id, known, same⟩ := List.mem_map.mp listed
    obtain ⟨index, rfl⟩ := mem_portControlIds known
    rw [List.mem_range]
    by_contra behind
    rw [id_eq mirrored, if_neg behind, eq_comm, List.getElem?_map, Option.map_eq_some_iff] at same
    obtain ⟨_, _, other⟩ := same
    cases other
  have length : (notifiedControls jalv).length = (portControlIds 0 plugin.ports).length := by
    have lengths := congrArg List.length refreshed
    rwa [List.length_map, List.length_map] at lengths
  -- As many positions as there are control ports are notified, all among the first ones
  have perm :=
    ((List.nodup_range.filter _).subperm below).perm_of_length_le (by rw [List.length_range]; exact length.ge)
  have early (position : Nat) (inside : position < (portControlIds 0 plugin.ports).length) :
      plugin.ControlAt position := by
    have member := perm.mem_iff.mpr (List.mem_range.mpr inside)
    have kind := (List.mem_filter.mp member).2
    exact (type_eq_control_iff mirrored position).mp (by simpa using kind)
  intro position late before control
  refine early position (Nat.lt_trans before ?_)
  exact controlAt_lt early control

end

/-- The refresh notifies the controls of the control ports exactly if these ports come first. -/
theorem refreshesControls_iff (fresh : jalv.controls = []) (opened : openControls plugin jalv = some (.ok loaded))
    (revalued : loaded.Revalued next) (uiToPlugin : ZixRing) :
    RefreshesControls plugin next uiToPlugin ↔ plugin.ControlPortsFirst := by
  obtain ⟨properties, mirrored⟩ := mirrored_of_opened fresh opened revalued
  obtain ⟨final, after, result⟩ := @jalvRefreshUi_returns next uiToPlugin
  constructor
  · rintro ⟨notified, _, _, refreshed, ids⟩
    cases result.symm.trans refreshed
    exact first_of_refreshed mirrored ids
  · intro first
    exact ⟨_, final, after, result, refreshed_of_first mirrored first⟩

end

theorem refreshesControls_test :
    ∃ next, openControls (lookupTestPlugin false) lookupTestHost = some (.ok next) ∧
      (RefreshesControls (lookupTestPlugin false) next ⟨4095, [], by decide⟩ ↔
        (lookupTestPlugin false).ControlPortsFirst) :=
  ⟨_, rfl, refreshesControls_iff rfl rfl (.refl _) _⟩

/-- With the audio port first, no port has both a control at its position and the type of a control. -/
theorem refreshesControls_refuted :
    ∃ next, openControls (lookupTestPlugin true) lookupTestHost = some (.ok next) ∧
      notifiedControls next = [] ∧ next.controls.map Control.id = [.port 1] ∧
      ¬RefreshesControls (lookupTestPlugin true) next ⟨4095, [], by decide⟩ := by
  refine ⟨_, rfl, rfl, rfl, ?_⟩
  rintro ⟨notified, next, after, refreshed, ids⟩
  cases refreshed
  cases ids

end Jalv
