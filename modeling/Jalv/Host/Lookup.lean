import Jalv.Console.SetControl
import Jalv.Foundation.Lists

/-! Looking up the control of a port by the index of the port.

The controls of the ports are followed by those of the properties, and a port
without a control leaves no gap. The lookup takes the index of the port for a
position among the controls.
-/

set_option autoImplicit false

namespace Jalv

open Foundation

def LilvPlugin.ControlAt (plugin : LilvPlugin) (index : Nat) : Prop :=
  ∃ port, plugin.ports[index]? = some port ∧ port.isControl = true

def portControlIds (index : UInt32) : List LilvPort → List ControlId
  | [] => []
  | port :: rest =>
    if port.isControl then .port index :: portControlIds (index + 1) rest else portControlIds (index + 1) rest

def JalvImpl.SameWorld (jalv next : JalvImpl) : Prop := next.world = jalv.world ∧ next.forge = jalv.forge

section

variable {plugin : LilvPlugin} {jalv next : JalvImpl}

theorem newPortControl_id {world : World} {forge : Forge} {proposal : Option UInt64} {port : LilvPort}
    {index : UInt32} {control : Control} (made : newPortControl world forge proposal port index = some control) :
    control.id = .port index := by
  obtain ⟨value, _, same⟩ := Option.bind_eq_some_iff.mp made
  cases same
  rfl

theorem createPort_ids {index : UInt32} {port : LilvPort} (created : createPort jalv index port = some (.ok next)) :
    next.controls.map Control.id =
      jalv.controls.map Control.id ++ (if port.isControl then [.port index] else []) ∧
      jalv.SameWorld next := by
  obtain ⟨pport, controls, _, added, rfl⟩ := createPort_ok created
  refine ⟨?_, rfl, rfl⟩
  unfold createPortControl at added
  change controls.map Control.id = _
  split at added
  · next isControl =>
    obtain ⟨control, made, same⟩ := Option.bind_eq_some_iff.mp added
    cases same
    rw [addControl, List.map_append, List.map_singleton, newPortControl_id made, if_pos isControl]
  · next other =>
    cases added
    rw [if_neg other, List.append_nil]

theorem createPortsFrom_ids {ports : List LilvPort} {index : UInt32}
    (created : createPortsFrom index ports jalv = some (.ok next)) :
    next.controls.map Control.id = jalv.controls.map Control.id ++ portControlIds index ports ∧
      jalv.SameWorld next := by
  induction ports generalizing index jalv with
  | nil =>
    cases created
    exact ⟨(List.append_nil _).symm, rfl, rfl⟩
  | cons port rest ih =>
    unfold createPortsFrom at created
    split at created
    · next middle first =>
      obtain ⟨firstIds, world, forge⟩ := createPort_ids first
      obtain ⟨ids, restWorld, restForge⟩ := ih created
      refine ⟨?_, restWorld.trans world, restForge.trans forge⟩
      rw [ids, firstIds, List.append_assoc, portControlIds]
      split <;> rfl
    · next failed => exact absurd created (failed next)

theorem markReadable_ids {controls marked : List Control} {property : LilvNode}
    (found : markReadable controls property = some marked) :
    marked.map Control.id = controls.map Control.id := by
  obtain ⟨pointer, control, here, rfl⟩ := markReadable_some found
  exact map_set_of_same Control.id here rfl

theorem addProperty_ids {writable : Bool} {property : LilvNode}
    (added : addProperty jalv writable property = some next) :
    next.controls.map Control.id = jalv.controls.map Control.id ++
        (if propertyValueType jalv.world jalv.forge property ≠ 0 then [.property (jalv.world.map property)] else []) ∧
      jalv.SameWorld next := by
  obtain ⟨value, _, rfl⟩ := addProperty_some added
  refine ⟨?_, rfl, rfl⟩
  by_cases unknown : propertyValueType jalv.world jalv.forge property = 0
  · simp [unknown]
  · simp [unknown, addControl, propertyControl]

structure AddedIds (jalv next : JalvImpl) (added : List URID) : Prop where
  ids : next.controls.map Control.id = jalv.controls.map Control.id ++ added.map .property
  world : next.world = jalv.world
  forge : next.forge = jalv.forge

-- A turn of the loop over the properties adds nothing for an unknown type, and does not skip a
-- known type that has no control yet.
theorem createControl_ids {writable : Bool} {property : LilvNode}
    (created : createControl plugin writable jalv property = some next) :
    ∃ added, AddedIds jalv next added ∧
      (propertyValueType jalv.world jalv.forge property = 0 → added = []) ∧
      (propertyValueType jalv.world jalv.forge property ≠ 0 →
        writable = true ∨ property ∉ plugin.writable → added ≠ []) := by
  rcases createControl_cases created with ⟨marked, found, rfl, reading, written⟩ | added
  · refine ⟨[], ⟨?_, rfl, rfl⟩, fun _ => rfl, fun _ first => ?_⟩
    · rw [List.map_nil, List.append_nil]
      exact markReadable_ids found
    · rcases first with writing | fresh
      · cases reading.symm.trans writing
      · exact absurd written fresh
  · obtain ⟨ids, world, forge⟩ := addProperty_ids added
    by_cases known : propertyValueType jalv.world jalv.forge property = 0
    · refine ⟨[], ⟨?_, world, forge⟩, fun _ => rfl, fun other => absurd known other⟩
      rw [ids, if_neg (not_not.mpr known), List.map_nil]
    · refine ⟨[jalv.world.map property], ⟨?_, world, forge⟩, fun other => absurd other known,
        fun _ _ => List.cons_ne_nil _ _⟩
      rw [ids, if_pos known, List.map_singleton]

theorem createControls_ids {writable : Bool} {properties : List LilvNode}
    (created : properties.foldlM (createControl plugin writable) jalv = some next) :
    ∃ added, AddedIds jalv next added ∧
      ((∀ property ∈ properties, propertyValueType jalv.world jalv.forge property = 0) → added = []) ∧
      (∀ property ∈ properties, propertyValueType jalv.world jalv.forge property ≠ 0 →
        writable = true ∨ property ∉ plugin.writable → added ≠ []) := by
  induction properties generalizing jalv with
  | nil =>
    cases created
    exact ⟨[], ⟨(List.append_nil _).symm, rfl, rfl⟩, fun _ => rfl, by simp⟩
  | cons property rest ih =>
    rw [List.foldlM_cons] at created
    obtain ⟨middle, turn, others⟩ := Option.bind_eq_some_iff.mp created
    obtain ⟨head, headIds, headUnknown, headKnown⟩ := createControl_ids turn
    obtain ⟨tail, tailIds, tailUnknown, tailKnown⟩ := ih others
    rw [headIds.world, headIds.forge] at tailUnknown tailKnown
    refine ⟨head ++ tail, ⟨?_, tailIds.world.trans headIds.world, tailIds.forge.trans headIds.forge⟩, ?_, ?_⟩
    · rw [tailIds.ids, headIds.ids, List.map_append, List.append_assoc]
    · intro unknown
      rw [headUnknown (unknown property List.mem_cons_self),
        tailUnknown fun other member => unknown other (List.mem_cons_of_mem _ member), List.append_nil]
    · intro other member known first none
      obtain ⟨noHead, noTail⟩ := List.append_eq_nil_iff.mp none
      rcases List.mem_cons.mp member with rfl | member
      · exact headKnown known first noHead
      · exact tailKnown other member known first noTail

/-- The controls of an opened plugin are those of its control ports and then those of
properties, of which there are none exactly if all value types are unknown. -/
theorem openControls_ids (fresh : jalv.controls = []) (opened : openControls plugin jalv = some (.ok next)) :
    ∃ added : List URID, next.controls.map Control.id = portControlIds 0 plugin.ports ++ added.map .property ∧
      (added = [] ↔
        ∀ property ∈ plugin.writable ++ plugin.readable, propertyValueType jalv.world jalv.forge property = 0) := by
  unfold openControls at opened
  split at opened
  · next ported created =>
    obtain ⟨written, writable, rest⟩ := Option.bind_eq_some_iff.mp opened
    obtain ⟨final, readable, same⟩ := Option.bind_eq_some_iff.mp rest
    cases same
    obtain ⟨portIds, world, forge⟩ := createPortsFrom_ids created
    obtain ⟨first, firstIds, firstUnknown, firstKnown⟩ := createControls_ids writable
    obtain ⟨second, secondIds, secondUnknown, secondKnown⟩ := createControls_ids readable
    rw [firstIds.world, firstIds.forge] at secondUnknown secondKnown
    simp only [world, forge] at firstUnknown firstKnown secondUnknown secondKnown
    refine ⟨first ++ second, ?_, ?_⟩
    · rw [secondIds.ids, firstIds.ids, portIds]
      simp [fresh]
    · constructor
      · intro none property member
        obtain ⟨noFirst, noSecond⟩ := List.append_eq_nil_iff.mp none
        by_contra known
        -- A readable property is only skipped when it is also writable, and was added as such
        by_cases inWritable : property ∈ plugin.writable
        · exact firstKnown property inWritable known (Or.inl trivial) noFirst
        · have inReadable := (List.mem_append.mp member).resolve_left inWritable
          exact secondKnown property inReadable known (Or.inr inWritable) noSecond
      · intro unknown
        rw [firstUnknown fun property member => unknown property (List.mem_append_left _ member),
          secondUnknown fun property member => unknown property (List.mem_append_right _ member),
          List.append_nil]
  · next failed => exact absurd opened (failed next)

end

section

variable {ports : List LilvPort}

theorem portControlIds_eq_nil (index : UInt32) (none : ∀ port ∈ ports, port.isControl = false) :
    portControlIds index ports = [] := by
  induction ports generalizing index with
  | nil => rfl
  | cons port rest ih =>
    rw [portControlIds, if_neg (by simp [none port List.mem_cons_self])]
    exact ih (index + 1) fun other member => none other (List.mem_cons_of_mem _ member)

theorem length_portControlIds (index : UInt32) (ports : List LilvPort) :
    (portControlIds index ports).length ≤ ports.length := by
  induction ports generalizing index with
  | nil => exact Nat.le_refl _
  | cons port rest ih =>
    have shorter := ih (index + 1)
    rw [portControlIds]
    split <;> simp only [List.length_cons] <;> omega

theorem getElem?_portControlIds (index : UInt32)
    (first : ∀ (early late : Nat) (port : LilvPort), early < late → ports[late]? = some port →
      port.isControl = true → ∃ other : LilvPort, ports[early]? = some other ∧ other.isControl = true)
    (position : Nat) :
    (portControlIds index ports)[position]? =
      (ports[position]?.filter LilvPort.isControl).map fun _ => .port (index + UInt32.ofNat position) := by
  induction ports generalizing index position with
  | nil => rfl
  | cons port rest ih =>
    by_cases isControl : port.isControl = true
    · rw [portControlIds, if_pos isControl]
      cases position with
      | zero => simp [isControl]
      | succ position =>
        rw [List.getElem?_cons_succ, List.getElem?_cons_succ, ih]
        · have shifted : index + 1 + UInt32.ofNat position = index + UInt32.ofNat (position + 1) := by
            rw [UInt32.ofNat_add, UInt32.add_assoc, UInt32.add_comm 1]
            rfl
          rw [shifted]
        · intro early late other before found control
          obtain ⟨earlier, here, also⟩ := first (early + 1) (late + 1) other (by omega) found control
          exact ⟨earlier, here, also⟩
    -- Behind the first port of another kind there are no control ports
    · have noneBehind (position : Nat) (other : LilvPort) (found : rest[position]? = some other) :
          other.isControl = false := by
        by_contra control
        obtain ⟨earlier, here, also⟩ := first 0 (position + 1) other (by omega) found (by simpa using control)
        cases here
        exact isControl also
      rw [portControlIds, if_neg isControl, portControlIds_eq_nil]
      · cases position with
        | zero => simp [isControl]
        | succ position =>
          rw [List.getElem?_cons_succ, List.getElem?_nil]
          cases found : rest[position]? with
          | none => rfl
          | some other => simp [noneBehind position other found]
      · intro other member
        obtain ⟨position, found⟩ := List.getElem?_of_mem member
        exact noneBehind position other found

end

/-- Every control port comes before every other port. -/
def LilvPlugin.ControlPortsFirst (plugin : LilvPlugin) : Prop :=
  ∀ early late, early < late → plugin.ControlAt late → plugin.ControlAt early

def LilvPlugin.NoProperties (plugin : LilvPlugin) (world : World) (forge : Forge) : Prop :=
  ∀ property ∈ plugin.writable ++ plugin.readable, propertyValueType world forge property = 0

/-- The lookup gives the control of the port for a control port, and null otherwise. -/
def PortLookup (plugin : LilvPlugin) (jalv : JalvImpl) : Prop :=
  ∀ index : UInt32,
    match getPortControl jalv.controls index with
    | some pointer => plugin.ControlAt index.toNat ∧
        ∃ control, jalv.controls[pointer]? = some control ∧ control.id = .port index
    | none => ¬ plugin.ControlAt index.toNat

section

variable {plugin : LilvPlugin} {jalv next : JalvImpl}

theorem getPortControl_some {controls : List Control} {index : UInt32} {pointer : Nat}
    (found : getPortControl controls index = some pointer) :
    pointer = index.toNat ∧ index.toNat < controls.length := by
  unfold getPortControl at found
  split at found
  · next inside =>
    cases found
    exact ⟨rfl, inside⟩
  · cases found

theorem portLookup_of_first {added : List URID} (none : added = []) (first : plugin.ControlPortsFirst)
    (ids : next.controls.map Control.id = portControlIds 0 plugin.ports ++ added.map .property) :
    PortLookup plugin next := by
  subst none
  rw [List.map_nil, List.append_nil] at ids
  -- The identifiers of the controls are those of the ports at the same positions
  have place (index : UInt32) : (next.controls.map Control.id)[index.toNat]? =
      (plugin.ports[index.toNat]?.filter LilvPort.isControl).map fun _ => .port index := by
    rw [ids, getElem?_portControlIds 0 _ index.toNat]
    · simp
    · intro early late port before found control
      exact first early late before ⟨port, found, control⟩
  intro index
  have here := place index
  rw [List.getElem?_map] at here
  cases found : getPortControl next.controls index with
  | none =>
    rintro ⟨port, at', control⟩
    rw [at', Option.filter_some_pos control] at here
    unfold getPortControl at found
    split at found
    · cases found
    · next outside => simp [List.getElem?_eq_none (Nat.not_lt.mp outside)] at here
  | some pointer =>
    obtain ⟨rfl, inside⟩ := getPortControl_some found
    rw [List.getElem?_eq_getElem inside, Option.map_some] at here
    obtain ⟨port, selected, same⟩ := Option.map_eq_some_iff.mp here.symm
    obtain ⟨at', control⟩ := Option.filter_eq_some_iff.mp selected
    exact ⟨⟨port, at', control⟩, _, List.getElem?_eq_getElem inside, same.symm⟩

theorem first_of_portLookup {added : List URID}
    (ids : next.controls.map Control.id = portControlIds 0 plugin.ports ++ added.map .property)
    (lookup : PortLookup plugin next) : plugin.ControlPortsFirst ∧ added = [] := by
  have few := plugin.few
  -- The lookup only compares an index to the number of controls
  have extent (index : UInt32) : plugin.ControlAt index.toNat ↔ index.toNat < next.controls.length := by
    have here := lookup index
    unfold getPortControl at here
    split at here
    · next pointer found =>
      split at found
      · next inside => exact iff_of_true here.1 inside
      · cases found
    · next found =>
      split at found
      · cases found
      · next outside => exact iff_of_false here outside
  -- Indices are compared in 32 bits, which all ports of a plugin have
  have bounded {index : Nat} (control : plugin.ControlAt index) : index < 2 ^ 32 := by
    obtain ⟨port, found, _⟩ := control
    obtain ⟨inside, _⟩ := List.getElem?_eq_some_iff.mp found
    omega
  have small {index : Nat} (bound : index < 2 ^ 32) : (UInt32.ofNat index).toNat = index :=
    UInt32.toNat_ofNat_of_lt' bound
  constructor
  · intro early late before control
    have bound := bounded control
    have lateInside := (extent (UInt32.ofNat late)).mp (by rwa [small bound])
    rw [small bound] at lateInside
    have earlyControl := (extent (UInt32.ofNat early)).mpr (by rw [small (by omega)]; omega)
    rwa [small (by omega)] at earlyControl
  · -- The first property would be found at the index that follows the control ports
    by_contra some
    obtain ⟨property, rest, rfl⟩ := List.exists_cons_of_ne_nil some
    have fewer := length_portControlIds 0 plugin.ports
    have bound : (portControlIds 0 plugin.ports).length < 2 ^ 32 := by omega
    have here := lookup (UInt32.ofNat (portControlIds 0 plugin.ports).length)
    have length := congrArg List.length ids
    simp only [List.length_map, List.length_append, List.length_cons] at length
    have inside : (UInt32.ofNat (portControlIds 0 plugin.ports).length).toNat < next.controls.length := by
      rw [small bound]
      omega
    rw [getPortControl, if_pos inside, small bound] at here
    obtain ⟨_, control, found, id⟩ := here
    have property := congrArg (·[(portControlIds 0 plugin.ports).length]?) ids
    simp only [List.getElem?_map, found, Option.map_some, List.map_cons, List.getElem?_append_right (Nat.le_refl _),
      Nat.sub_self, List.getElem?_cons_zero, Option.some.injEq] at property
    rw [id] at property
    cases property

end

def SetsValue (jalv next : JalvImpl) (pointer : Nat) : Prop :=
  ∃ control value, jalv.controls[pointer]? = some control ∧
    next.controls = jalv.controls.set pointer { control with value }

section

variable {jalv next : JalvImpl} {uiToPlugin ring : ZixRing} {pointer status : Nat} {atom : Atom}

theorem setControlValue_sets (set : setControlValue jalv pointer atom = some (status, next)) :
    SetsValue jalv next pointer := by
  obtain ⟨control, found, rest⟩ := Option.bind_eq_some_iff.mp set
  obtain ⟨⟨_, value⟩, _, same⟩ := Option.bind_eq_some_iff.mp rest
  cases same
  exact ⟨control, value, found, rfl⟩

theorem jalvSetControl_sets {control : Control} {index : UInt32} (found : jalv.controls[pointer]? = some control)
    (id : control.id = .port index)
    (set : jalvSetControl jalv uiToPlugin pointer atom = some (status, next, ring)) :
    SetsValue jalv next pointer := by
  obtain ⟨⟨st, middle⟩, stored, rest⟩ := Option.bind_eq_some_iff.mp set
  obtain ⟨original, value, here, controls⟩ := setControlValue_sets stored
  have sets : SetsValue jalv middle pointer := ⟨original, value, here, controls⟩
  cases found.symm.trans here
  simp only at rest
  split at rest
  · cases rest
    exact sets
  · obtain ⟨after, there, rest⟩ := Option.bind_eq_some_iff.mp rest
    have same : after = { control with value } := by
      obtain ⟨inside, _⟩ := List.getElem?_eq_some_iff.mp found
      rw [controls, List.getElem?_set_self inside, Option.some.injEq] at there
      exact there.symm
    subst same
    simp only [id] at rest
    split at rest <;>
    · cases rest
      exact sets

theorem setControlFromString_sets {parser : NumberParser} {text : Text} {control : Control} {index : UInt32}
    (found : jalv.controls[pointer]? = some control) (id : control.id = .port index)
    (set : setControlFromString parser jalv uiToPlugin pointer text = some (status, next, ring)) :
    next.controls = jalv.controls ∨ SetsValue jalv next pointer := by
  simp only [setControlFromString, found, Option.bind_eq_bind, Option.bind_some] at set
  have direct {atom : Atom} (stored : jalvSetControl jalv uiToPlugin pointer atom = some (status, next, ring)) :
      next.controls = jalv.controls ∨ SetsValue jalv next pointer := Or.inr (jalvSetControl_sets found id stored)
  have rejected {code : Nat} (returned : some (code, jalv, uiToPlugin) = some (status, next, ring)) :
      next.controls = jalv.controls ∨ SetsValue jalv next pointer := by
    cases returned
    exact Or.inl rfl
  split at set
  · split at set
    · exact rejected set
    · obtain ⟨length, _, rest⟩ := Option.bind_eq_some_iff.mp set
      cases length with
      | error => exact rejected rest
      | ok len =>
        obtain ⟨⟨_, middle, _⟩, stored, rest⟩ := Option.bind_eq_some_iff.mp rest
        cases rest
        exact Or.inr (jalvSetControl_sets found id stored)
  · split at set
    · split at set <;> exact direct set
    · split at set
      · split at set <;> exact direct set
      · split at set
        · split at set
          · exact direct set
          · split at set
            · exact rejected set
            · exact direct set
        · exact rejected set

end

/-- An event for a port and the console command that sets a port by its index change at
most the value of the control of this port, and do nothing without a control port. -/
structure PortCommands (plugin : LilvPlugin) (jalv : JalvImpl) : Prop where
  event : ∀ (index bufferSize : UInt32) (buffer : Memory Byte) (next : JalvImpl),
    plugin.ControlAt index.toNat → uiPortEvent jalv index bufferSize 0 buffer = some next →
      ∃ pointer control, jalv.controls[pointer]? = some control ∧ control.id = .port index ∧
        SetsValue jalv next pointer
  noEvent : ∀ (index bufferSize : UInt32) (buffer : Memory Byte), ¬ plugin.ControlAt index.toNat →
    uiPortEvent jalv index bufferSize 0 buffer = some jalv
  command : ∀ (parser : NumberParser) (index : UInt32) (text : Text) (uiToPlugin ring : ZixRing)
      (found : Bool) (next : JalvImpl),
    plugin.ControlAt index.toNat →
      handleSetIndex parser jalv uiToPlugin index text = some (found, next, ring) →
      found = true ∧ ∃ pointer control, jalv.controls[pointer]? = some control ∧ control.id = .port index ∧
        (next.controls = jalv.controls ∨ SetsValue jalv next pointer)
  noCommand : ∀ (parser : NumberParser) (index : UInt32) (text : Text) (uiToPlugin : ZixRing),
    ¬ plugin.ControlAt index.toNat →
      handleSetIndex parser jalv uiToPlugin index text = some (false, jalv, uiToPlugin)

section

variable {plugin : LilvPlugin} {jalv next : JalvImpl}

theorem PortLookup.commands (lookup : PortLookup plugin jalv) : PortCommands plugin jalv := by
  have selected {index : UInt32} (control : plugin.ControlAt index.toNat) :
      ∃ pointer found, getPortControl jalv.controls index = some pointer ∧
        jalv.controls[pointer]? = some found ∧ found.id = .port index := by
    have here := lookup index
    split at here
    · next pointer found =>
      obtain ⟨_, control, there, id⟩ := here
      exact ⟨pointer, control, found, there, id⟩
    · exact absurd control here
  have missing {index : UInt32} (other : ¬ plugin.ControlAt index.toNat) :
      getPortControl jalv.controls index = none := by
    have here := lookup index
    split at here
    · exact absurd here.1 other
    · next found => exact found
  constructor
  · intro index bufferSize buffer next control happened
    obtain ⟨pointer, found, selected, there, id⟩ := selected control
    rw [uiPortEvent, if_pos rfl, selected] at happened
    obtain ⟨⟨status, after⟩, stored, same⟩ := Option.map_eq_some_iff.mp happened
    cases same
    exact ⟨pointer, found, there, id, setControlValue_sets stored⟩
  · intro index bufferSize buffer other
    rw [uiPortEvent, if_pos rfl, missing other]
  · intro parser index text uiToPlugin ring reply next control happened
    obtain ⟨pointer, found, selected, there, id⟩ := selected control
    rw [handleSetIndex, selected] at happened
    obtain ⟨⟨status, after, last⟩, stored, same⟩ := Option.bind_eq_some_iff.mp happened
    cases same
    exact ⟨rfl, pointer, found, there, id, setControlFromString_sets there id stored⟩
  · intro parser index text uiToPlugin other
    rw [handleSetIndex, missing other]

/-- The lookup by index is right exactly for plugins whose control ports come first
and that have no properties of a known type. -/
theorem portLookup_iff (fresh : jalv.controls = []) (opened : openControls plugin jalv = some (.ok next)) :
    (PortLookup plugin next ∧ PortCommands plugin next) ↔
      (plugin.ControlPortsFirst ∧ plugin.NoProperties jalv.world jalv.forge) := by
  obtain ⟨added, ids, none⟩ := openControls_ids fresh opened
  constructor
  · rintro ⟨lookup, _⟩
    obtain ⟨first, empty⟩ := first_of_portLookup ids lookup
    exact ⟨first, none.mp empty⟩
  · rintro ⟨first, unknown⟩
    have lookup := portLookup_of_first (none.mpr unknown) first ids
    exact ⟨lookup, lookup.commands⟩

end

def lookupTestPort (isControl : Bool) : LilvPort where
  node := .blank []
  symbol := []
  isInput := true
  isOutput := false
  isControl := isControl
  isAudio := !isControl
  isCV := false
  isAtom := false
  connectionOptional := false
  minimumSize := none
  default := none
  designatedControl := false
  reportsLatency := false
  designatedLatency := false
  designatedBeatsPerMinute := false
  supportsMidi := false
  supportsPosition := false

def lookupTestHost : JalvImpl where
  world := ⟨fun _ => 0, fun _ => 0, fun _ => 0, fun _ => 1, id, fun _ => [], fun _ => none, fun _ _ => false⟩
  forge := ⟨1, 2, 3, 4, 5, 6, 7, 8, 9, 10, 11, 12⟩
  urids := testUrids
  useJackMetadata := true
  proposal := fun _ => none
  optsRingSize := 4096
  settings := ⟨1024, 4096⟩
  ports := []
  controls := []
  uiMsg := fun _ => 0
  uiMsgSize := 0
  process := jalvProcessInit testUrids
  safeRestore := false
  updating := false

def lookupTestPlugin (audioFirst : Bool) : LilvPlugin where
  ports := if audioFirst then [lookupTestPort false, lookupTestPort true]
    else [lookupTestPort true, lookupTestPort false]
  few := by cases audioFirst <;> decide
  defaults := [0, 0]
  writable := []
  readable := []
  threadSafeRestore := false

theorem portLookup_iff_test :
    ∃ next, openControls (lookupTestPlugin false) lookupTestHost = some (.ok next) ∧
      PortLookup (lookupTestPlugin false) next := by
  have first : (lookupTestPlugin false).ControlPortsFirst := by
    rintro early late before ⟨port, found, control⟩
    match late, found with
    | 1, found =>
      cases found
      cases control
  have unknown : (lookupTestPlugin false).NoProperties lookupTestHost.world lookupTestHost.forge :=
    fun _ member => by cases member
  exact ⟨_, rfl, ((portLookup_iff rfl rfl).mpr ⟨first, unknown⟩).1⟩

/-- With the audio port first, the lookup for this port gives the control of the other one. -/
theorem portLookup_refuted :
    ∃ next, openControls (lookupTestPlugin true) lookupTestHost = some (.ok next) ∧
      ¬ PortLookup (lookupTestPlugin true) next := by
  refine ⟨_, rfl, fun lookup => ?_⟩
  obtain ⟨⟨port, found, control⟩, _⟩ := lookup 0
  cases found
  cases control

end Jalv
