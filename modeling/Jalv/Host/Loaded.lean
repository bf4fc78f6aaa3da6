import Jalv.Host.Activate
import Jalv.Host.Lookup
import Jalv.Host.State
import Jalv.Host.Update

/-! The ports and controls of a plugin in every state that a run reaches.

The controls of the control ports are the first ones, in the order of the ports. What
happens after a plugin has been opened only changes values, which can always be freed.
-/

set_option autoImplicit false

namespace Jalv

open Foundation

def Control.name (control : Control) : ControlId × Text := (control.id, control.symbol)

def JalvPort.controlName (port : JalvPort) : ControlId × Text := (.port port.index, port.symbol)

def JalvPort.isControl (port : JalvPort) : Bool := port.type = .control

/-- Each port has its position for an index and a value in the process, and the control ports
have the first controls. -/
structure JalvImpl.Loaded (jalv : JalvImpl) : Prop where
  indices : ∀ (position : Nat) (port : JalvPort), jalv.ports[position]? = some port → port.index.toNat = position
  controls : (jalv.ports.filter JalvPort.isControl).map JalvPort.controlName <+: jalv.controls.map Control.name
  freeable : ∀ control ∈ jalv.controls, control.value.Freeable
  ports : jalv.process.ports.length = jalv.ports.length
  values : jalv.process.controlsBuf.length = jalv.ports.length
  types : jalv.forge.float ≠ jalv.forge.double

/-- Another state with the same ports and controls, up to the values, which can be freed if they could before. -/
structure JalvImpl.Revalued (jalv next : JalvImpl) : Prop where
  ports : next.ports = jalv.ports
  forge : next.forge = jalv.forge
  names : next.controls.map Control.name = jalv.controls.map Control.name
  freeable : (∀ control ∈ jalv.controls, control.value.Freeable) → ∀ control ∈ next.controls, control.value.Freeable
  processPorts : next.process.ports.length = jalv.process.ports.length
  values : next.process.controlsBuf.length = jalv.process.controlsBuf.length

theorem JalvImpl.Revalued.refl (jalv : JalvImpl) : jalv.Revalued jalv := ⟨rfl, rfl, rfl, id, rfl, rfl⟩

theorem JalvImpl.Revalued.trans {jalv middle next : JalvImpl} (first : jalv.Revalued middle)
    (second : middle.Revalued next) : jalv.Revalued next where
  ports := second.ports.trans first.ports
  forge := second.forge.trans first.forge
  names := second.names.trans first.names
  freeable free := second.freeable (first.freeable free)
  processPorts := second.processPorts.trans first.processPorts
  values := second.values.trans first.values

theorem JalvImpl.Loaded.revalued {jalv next : JalvImpl} (loaded : jalv.Loaded) (revalued : jalv.Revalued next) :
    next.Loaded where
  indices := revalued.ports ▸ loaded.indices
  controls := by
    rw [revalued.ports, revalued.names]
    exact loaded.controls
  freeable := revalued.freeable loaded.freeable
  ports := by rw [revalued.processPorts, revalued.ports, loaded.ports]
  values := by rw [revalued.values, revalued.ports, loaded.values]
  types := revalued.forge ▸ loaded.types

section

variable {jalv next : JalvImpl} {ring after : ZixRing}

theorem setControlValue_revalued {pointer status : Nat} {atom : Atom}
    (set : setControlValue jalv pointer atom = some (status, next)) : jalv.Revalued next := by
  obtain ⟨control, found, rest⟩ := Option.bind_eq_some_iff.mp set
  obtain ⟨⟨_, value⟩, stored, same⟩ := Option.bind_eq_some_iff.mp rest
  cases same
  refine ⟨rfl, rfl, map_set_of_same Control.name found rfl, fun free other member => ?_, rfl, rfl⟩
  rcases List.mem_or_eq_of_mem_set member with before | rfl
  · exact free other before
  · exact anyValueSet_freeable stored

theorem JalvImpl.SetsValues.revalued (sets : jalv.SetsValues next) : jalv.Revalued next := by
  induction sets with
  | refl => exact .refl _
  | set _ stored ih => exact ih.trans (setControlValue_revalued stored)
  | message uiMsg updating _ ih => exact ih.trans ⟨rfl, rfl, rfl, id, rfl, rfl⟩

theorem setPortValue_revalued {pluginToUi toPlugin toUi : ZixRing} {symbol : Text} {atom : Atom}
    (set : setPortValue jalv ring pluginToUi symbol atom = some (next, toPlugin, toUi)) : jalv.Revalued next := by
  unfold setPortValue at set
  split at set
  · cases set
    exact .refl _
  · split at set
    · cases set
      exact .refl _
    · obtain ⟨⟨status, middle⟩, stored, rest⟩ := Option.bind_eq_some_iff.mp set
      have first := setControlValue_revalued stored
      simp only at rest
      split at rest
      · obtain ⟨control, _, rest⟩ := Option.bind_eq_some_iff.mp rest
        split at rest
        · split at rest
          · split at rest <;>
            · cases rest
              exact first.trans ⟨rfl, rfl, rfl, id, rfl, List.length_set⟩
          · cases rest
        · split at rest <;>
          · cases rest
            exact first
      · cases rest
        exact first

structure JalvImpl.Creating (jalv : JalvImpl) : Prop where
  indices : ∀ (position : Nat) (port : JalvPort), jalv.ports[position]? = some port → port.index.toNat = position
  controls : jalv.controls.map Control.name = (jalv.ports.filter JalvPort.isControl).map JalvPort.controlName
  freeable : ∀ control ∈ jalv.controls, control.value.Freeable
  ports : jalv.process.ports.length = jalv.ports.length

theorem defaultValue_freeable {world : World} {forge : Forge} {proposal : Option UInt64} {node : Option LilvNode}
    {value : ValueStore} (set : defaultValue world forge proposal node = some value) : value.Freeable := by
  cases node with
  | none =>
    cases set
    exact ValueStore.freeable_initial
  | some node =>
    obtain ⟨⟨status, after⟩, stored, rfl⟩ := Option.map_eq_some_iff.mp set
    cases node with
    | uri text =>
      rw [anyValueSetNode] at stored
      split at stored <;> exact anyValueSet_freeable stored
    | blank text =>
      cases stored
      exact ValueStore.freeable_initial
    | string text =>
      rw [anyValueSetNode] at stored
      exact anyValueSet_freeable stored
    | float bits =>
      rw [anyValueSetNode] at stored
      exact anyValueSet_freeable stored
    | int number =>
      rw [anyValueSetNode] at stored
      exact anyValueSet_freeable stored
    | bool truth =>
      rw [anyValueSetNode] at stored
      exact anyValueSet_freeable stored

theorem createPortControl_ok {index : UInt32} {port : LilvPort} {controls : List Control}
    (created : createPortControl jalv index port = some controls) :
    controls.map Control.name = jalv.controls.map Control.name ++
        (if port.isControl then [(.port index, port.symbol)] else []) ∧
      ((∀ control ∈ jalv.controls, control.value.Freeable) → ∀ control ∈ controls, control.value.Freeable) := by
  unfold createPortControl at created
  split at created
  · next isControl =>
    obtain ⟨control, made, same⟩ := Option.bind_eq_some_iff.mp created
    cases same
    obtain ⟨value, set, same⟩ := Option.bind_eq_some_iff.mp made
    cases same
    refine ⟨?_, fun free => forall_mem_concat free (defaultValue_freeable set)⟩
    rw [addControl, List.map_append, if_pos isControl]
    rfl
  · next other =>
    cases created
    exact ⟨by rw [if_neg other, List.append_nil], id⟩

theorem JalvImpl.Creating.addPort {index : UInt32} {port : LilvPort} (creating : jalv.Creating)
    (place : index.toNat = jalv.ports.length) (created : createPort jalv index port = some (.ok next)) :
    next.Creating ∧ next.ports.length = jalv.ports.length + 1 ∧
      next.process.controlsBuf = jalv.process.controlsBuf ∧ next.forge = jalv.forge := by
  obtain ⟨pport, controls, initialized, added, rfl⟩ := createPort_ok created
  obtain ⟨names, freeable⟩ := createPortControl_ok added
  have type : pport.type = .control ↔ port.isControl = true := by
    rw [(jalvProcessPortInit_spec initialized).1, LilvPort.type_eq_control_iff]
  have symbol : pport.symbol = port.symbol := by
    rw [jalvProcessPortInit] at initialized
    split at initialized <;> cases initialized
    rfl
  have ports : (jalv.addPort index pport controls).ports =
      jalv.ports ++ [⟨pport.symbol, pport.type, pport.flow, index⟩] :=
    rfl
  refine ⟨⟨?_, ?_, freeable creating.freeable, ?_⟩, ?_, rfl, rfl⟩
  · intro position other found
    rw [ports] at found
    rcases Nat.lt_trichotomy position jalv.ports.length with before | rfl | behind
    · rw [List.getElem?_append_left before] at found
      exact creating.indices position other found
    · rw [List.getElem?_append_right (Nat.le_refl _), Nat.sub_self] at found
      cases found
      exact place
    · rw [List.getElem?_append_right (Nat.le_of_lt behind)] at found
      obtain ⟨inside, _⟩ := List.getElem?_eq_some_iff.mp found
      rw [List.length_singleton] at inside
      omega
  · have same : (jalv.addPort index pport controls).controls = controls := rfl
    rw [same, names, creating.controls, ports, List.filter_append, List.map_append]
    by_cases isControl : port.isControl = true
    · simp [isControl, JalvPort.isControl, type.mpr isControl, JalvPort.controlName, symbol]
    · simp [isControl, JalvPort.isControl, mt type.mp isControl]
  · simp [JalvImpl.addPort, creating.ports]
  · rw [ports, List.length_append, List.length_singleton]

theorem createPortsFrom_creating {ports : List LilvPort} {index : UInt32} (creating : jalv.Creating)
    (place : index.toNat = jalv.ports.length) (few : jalv.ports.length + ports.length < 2 ^ 32)
    (created : createPortsFrom index ports jalv = some (.ok next)) :
    next.Creating ∧ next.ports.length = jalv.ports.length + ports.length ∧
      next.process.controlsBuf = jalv.process.controlsBuf ∧ next.forge = jalv.forge := by
  induction ports generalizing index jalv with
  | nil =>
    cases created
    exact ⟨creating, rfl, rfl, rfl⟩
  | cons port rest ih =>
    rw [List.length_cons] at few
    unfold createPortsFrom at created
    split at created
    · next middle first =>
      obtain ⟨still, length, values, forge⟩ := creating.addPort place first
      have step : (index + 1).toNat = index.toNat + 1 := by
        simp only [UInt32.toNat_add, UInt32.reduceToNat]
        omega
      obtain ⟨done, total, kept, same⟩ := ih still (by omega) (by omega) created
      refine ⟨done, ?_, kept.trans values, same.trans forge⟩
      rw [total, length, List.length_cons]
      omega
    · next failed => exact absurd created (failed next)

theorem addProperty_loaded {writable : Bool} {property : LilvNode} (loaded : jalv.Loaded)
    (added : addProperty jalv writable property = some next) : next.Loaded := by
  obtain ⟨value, set, rfl⟩ := addProperty_some added
  by_cases unknown : propertyValueType jalv.world jalv.forge property = 0
  · rw [if_pos unknown]
    exact ⟨loaded.indices, loaded.controls, loaded.freeable, loaded.ports, loaded.values, loaded.types⟩
  · rw [if_neg unknown]
    refine ⟨loaded.indices, ?_, forall_mem_concat loaded.freeable (defaultValue_freeable set), loaded.ports,
      loaded.values, loaded.types⟩
    rw [addControl, List.map_append]
    exact loaded.controls.trans (List.prefix_append _ _)

theorem createControl_loaded {plugin : LilvPlugin} {writable : Bool} {property : LilvNode} (loaded : jalv.Loaded)
    (created : createControl plugin writable jalv property = some next) : next.Loaded := by
  rcases createControl_cases created with ⟨marked, found, rfl, _, _⟩ | added
  · obtain ⟨pointer, control, here, rfl⟩ := markReadable_some found
    refine ⟨loaded.indices, ?_, fun other member => ?_, loaded.ports, loaded.values, loaded.types⟩
    · have same := @map_set_of_same _ _ Control.name _ _ _ { control with isReadable := true } here rfl
      exact same ▸ loaded.controls
    · rcases List.mem_or_eq_of_mem_set member with before | rfl
      · exact loaded.freeable other before
      · exact loaded.freeable control (List.mem_of_getElem? here)
  · exact addProperty_loaded loaded added

theorem createControls_loaded {plugin : LilvPlugin} {writable : Bool} {properties : List LilvNode}
    (loaded : jalv.Loaded)
    (created : properties.foldlM (createControl plugin writable) jalv = some next) : next.Loaded := by
  induction properties generalizing jalv with
  | nil =>
    cases created
    exact loaded
  | cons property rest ih =>
    rw [List.foldlM_cons] at created
    obtain ⟨middle, first, others⟩ := Option.bind_eq_some_iff.mp created
    exact ih (createControl_loaded loaded first) others

/-- An opened plugin is loaded, if there is a default value for each port and there were no controls before. -/
theorem jalvOpen_loaded {plugin : LilvPlugin} {midiBufSize : Nat} {updateFrames : UInt32} {contents : Nat → Memory Byte}
    {message : Memory Byte} (fresh : jalv.controls = []) (types : jalv.forge.float ≠ jalv.forge.double)
    (defaults : plugin.defaults.length = plugin.ports.length)
    (opened : jalvOpen plugin midiBufSize updateFrames contents message jalv = some (.ok next)) : next.Loaded := by
  unfold jalvOpen at opened
  split at opened
  · next ported created =>
    obtain ⟨first, writable, rest⟩ := Option.bind_eq_some_iff.mp opened
    obtain ⟨second, readable, same⟩ := Option.bind_eq_some_iff.mp rest
    cases same
    have begins : JalvImpl.Creating { jalv with
        ports := [], process := { jalv.process with ports := [], controlsBuf := plugin.defaults } } :=
      ⟨by simp, by simp [fresh], by simp [fresh], rfl⟩
    have few := plugin.few
    obtain ⟨creating, length, values, forge⟩ := createPortsFrom_creating begins rfl (by simpa using few) created
    simp only [List.length_nil, Nat.zero_add] at length
    have loaded : ported.Loaded := ⟨creating.indices, by rw [creating.controls], creating.freeable, creating.ports,
      by rw [values, length, defaults], by rw [forge]; exact types⟩
    have settled : JalvImpl.Loaded { ported with settings := { ported.settings with midiBufSize } } :=
      ⟨loaded.indices, loaded.controls, loaded.freeable, loaded.ports, loaded.values, loaded.types⟩
    have final := createControls_loaded (createControls_loaded settled writable) readable
    refine ⟨final.indices, final.controls, final.freeable, ?_, final.values, final.types⟩
    exact List.length_mapIdx.trans final.ports
  · next failed => exact absurd opened (failed next)

/-- The position of each port is its own. -/
theorem JalvImpl.Loaded.positions (loaded : jalv.Loaded) :
    jalv.ports.map (fun port => port.index.toNat) = List.range jalv.ports.length := by
  apply List.ext_getElem?
  intro position
  rw [List.getElem?_map]
  by_cases inside : position < jalv.ports.length
  · have here := List.getElem?_eq_getElem inside
    rw [here, Option.map_some, loaded.indices position _ here, List.getElem?_range inside]
  · rw [List.getElem?_eq_none (Nat.not_lt.mp inside), Option.map_none,
      List.getElem?_eq_none (by rw [List.length_range]; exact Nat.not_lt.mp inside)]

theorem JalvImpl.Loaded.getElem?_index {port : JalvPort} (loaded : jalv.Loaded) (member : port ∈ jalv.ports) :
    jalv.ports[port.index.toNat]? = some port := by
  obtain ⟨position, here⟩ := List.mem_iff_getElem?.mp member
  rw [loaded.indices position port here, here]

theorem getNamedControl_eq (controls : List Control) (symbol : Text) :
    getNamedControl controls symbol = (controls.map Control.name).findIdx? fun name => name.2 = symbol := by
  rw [List.findIdx?_map]
  rfl

theorem JalvImpl.Revalued.getNamedControl (revalued : jalv.Revalued next) (symbol : Text) :
    Jalv.getNamedControl next.controls symbol = Jalv.getNamedControl jalv.controls symbol := by
  rw [getNamedControl_eq, getNamedControl_eq, revalued.names]

/-- If the symbols of the ports are distinct, then the symbol of a control port finds its own control, even if a
property has the same symbol. -/
theorem JalvImpl.Loaded.portControl {port : JalvPort} (loaded : jalv.Loaded)
    (distinct : (jalv.ports.map JalvPort.symbol).Nodup) (member : port ∈ jalv.ports) (type : port.type = .control) :
    ∃ pointer control, getNamedControl jalv.controls port.symbol = some pointer ∧
      jalv.controls[pointer]? = some control ∧ control.name = port.controlName := by
  obtain ⟨others, names⟩ := loaded.controls
  have listed : port.controlName ∈ (jalv.ports.filter JalvPort.isControl).map JalvPort.controlName :=
    List.mem_map_of_mem (List.mem_filter.mpr ⟨member, decide_eq_true type⟩)
  have first : (((jalv.ports.filter JalvPort.isControl).map JalvPort.controlName).findIdx? fun name =>
      name.2 = port.symbol).isSome := by
    rw [List.findIdx?_isSome, List.any_eq_true]
    exact ⟨_, listed, decide_eq_true rfl⟩
  obtain ⟨pointer, found⟩ := Option.isSome_iff_exists.mp first
  obtain ⟨inside, same, _⟩ := List.findIdx?_eq_some_iff_getElem.mp found
  have own : ((jalv.ports.filter JalvPort.isControl).map JalvPort.controlName)[pointer] = port.controlName := by
    obtain ⟨other, among, name⟩ := List.mem_map.mp (List.getElem_mem inside)
    rw [← name] at same ⊢
    rw [List.inj_on_of_nodup_map distinct (List.mem_of_mem_filter among) member (of_decide_eq_true same)]
  have here : (jalv.controls.map Control.name)[pointer]? = some port.controlName := by
    rw [← names, List.getElem?_append_left inside, List.getElem?_eq_getElem inside, own]
  rw [List.getElem?_map] at here
  obtain ⟨control, there, name⟩ := Option.map_eq_some_iff.mp here
  refine ⟨pointer, control, ?_, there, name⟩
  rw [getNamedControl_eq, ← names, List.findIdx?_append, found]
  rfl

end

end Jalv
