import Jalv.Host.AllOrNothing
import Jalv.Host.Loaded

/-! Collecting the values of ports and applying them again.

Every control input port is saved under its symbol. A saved value finds its port and
its control by the symbol again, because the controls of the ports come first.
-/

set_option autoImplicit false

namespace Jalv

open Foundation

def portValues (jalv : JalvImpl) : List JalvPort → Option (List (Text × Atom))
  | [] => some []
  | port :: rest => do
    let value ← getPortValue jalv port.symbol
    let values ← portValues jalv rest
    return match value with
      | some atom => (port.symbol, atom) :: values
      | none => values

/-- Values that are applied one after the other, with the state and both rings after them. -/
def setPortValues : List (Text × Atom) → JalvImpl → ZixRing → ZixRing → Option (JalvImpl × ZixRing × ZixRing)
  | [], jalv, uiToPlugin, pluginToUi => some (jalv, uiToPlugin, pluginToUi)
  | (symbol, atom) :: rest, jalv, uiToPlugin, pluginToUi => do
    let (jalv, uiToPlugin, pluginToUi) ← setPortValue jalv uiToPlugin pluginToUi symbol atom
    setPortValues rest jalv uiToPlugin pluginToUi

def JalvPort.IsSaved (port : JalvPort) : Prop := port.flow = .input ∧ port.type = .control

instance (port : JalvPort) : Decidable port.IsSaved := inferInstanceAs (Decidable (_ ∧ _))

def JalvImpl.ControlHas (jalv : JalvImpl) (port : JalvPort) (value : UInt32) : Prop :=
  ∃ pointer control, getNamedControl jalv.controls port.symbol = some pointer ∧
    jalv.controls[pointer]? = some control ∧ control.id = .port port.index ∧
    control.value.Holds (.ofBytes jalv.forge.float (word value))

def savedValue (float : URID) (entry : JalvPort × UInt32) : Text × Atom :=
  (entry.1.symbol, .ofBytes float (word entry.2))

def valueMessage (entry : JalvPort × UInt32) : UiMessage := .controlPortChange entry.1.index entry.2

def writeValues (entries : List (JalvPort × UInt32)) (controlsBuf : List UInt32) : List UInt32 :=
  entries.foldl (fun values entry => values.set entry.1.index.toNat entry.2) controlsBuf

section

variable {jalv next : JalvImpl} {port other : JalvPort} {value : UInt32}

theorem jalvPortBySymbol_mem (distinct : (jalv.ports.map JalvPort.symbol).Nodup) (member : port ∈ jalv.ports) :
    jalvPortBySymbol jalv port.symbol = some port := find?_key distinct member

theorem getPortValue_mem (loaded : jalv.Loaded) (distinct : (jalv.ports.map JalvPort.symbol).Nodup)
    (member : port ∈ jalv.ports) :
    if port.IsSaved then ∃ value, jalv.process.controlsBuf[port.index.toNat]? = some value ∧
      getPortValue jalv port.symbol = some (some (.ofBytes jalv.forge.float (word value)))
    else getPortValue jalv port.symbol = some none := by
  rw [getPortValue, jalvPortBySymbol_mem distinct member]
  split
  · next saved =>
    obtain ⟨inside, _⟩ := List.getElem?_eq_some_iff.mp (loaded.getElem?_index member)
    have here := List.getElem?_eq_getElem (inside.trans_eq loaded.values.symm)
    refine ⟨_, here, ?_⟩
    simp only [if_pos (show port.flow = .input ∧ port.type = .control from saved), here, Option.map_some]
  · next other => exact if_neg other

/-- Exactly the values of the control input ports are collected, in the order of the ports. -/
theorem portValues_saved (loaded : jalv.Loaded) (distinct : (jalv.ports.map JalvPort.symbol).Nodup)
    {ports : List JalvPort} (among : ∀ port ∈ ports, port ∈ jalv.ports) :
    ∃ entries : List (JalvPort × UInt32),
      portValues jalv ports = some (entries.map (savedValue jalv.forge.float)) ∧
      entries.map Prod.fst = ports.filter (fun port => port.IsSaved) ∧
      ∀ entry ∈ entries, jalv.process.controlsBuf[entry.1.index.toNat]? = some entry.2 := by
  induction ports with
  | nil => exact ⟨[], rfl, rfl, by simp⟩
  | cons port rest ih =>
    rw [List.forall_mem_cons] at among
    obtain ⟨entries, collected, order, values⟩ := ih among.2
    have here := getPortValue_mem loaded distinct among.1
    split at here
    · next saved =>
      obtain ⟨value, found, got⟩ := here
      refine ⟨(port, value) :: entries, ?_, ?_, List.forall_mem_cons.mpr ⟨found, values⟩⟩
      · simp only [portValues, got, collected, Option.bind_eq_bind, Option.bind_some, Option.pure_def, List.map_cons,
          savedValue]
      · rw [List.map_cons, order, List.filter_cons, if_pos (decide_eq_true saved)]
    · next other =>
      refine ⟨entries, ?_, ?_, values⟩
      · simp only [portValues, here, collected, Option.bind_eq_bind, Option.bind_some, Option.pure_def]
      · rw [order, List.filter_cons, if_neg (by simpa using other)]

/-- A value that another port's control has is not touched when a control is set. -/
theorem JalvImpl.ControlHas.stored {pointer : Nat} {control : Control} {store : ValueStore}
    (has : jalv.ControlHas port value) (found : jalv.controls[pointer]? = some control)
    (apart : port.symbol ≠ control.symbol) (same : next.controls = (jalv.stored pointer control store).controls)
    (forge : next.forge = jalv.forge) : next.ControlHas port value := by
  obtain ⟨own, holder, named, here, id, holds⟩ := has
  have names : next.controls.map Control.name = jalv.controls.map Control.name := by
    rw [same]
    exact map_set_of_same Control.name found rfl
  obtain ⟨inside, symbol, _⟩ := List.findIdx?_eq_some_iff_getElem.mp named
  have different : pointer ≠ own := by
    rintro rfl
    rw [List.getElem?_eq_getElem inside] at found
    cases found
    exact apart (of_decide_eq_true symbol).symm
  refine ⟨own, holder, ?_, ?_, id, forge ▸ holds⟩
  · rw [getNamedControl_eq, names, ← getNamedControl_eq, named]
  · rw [same]
    exact (List.getElem?_set_ne different).trans here

section

variable (jalv) (pointer : Nat) (control : Control) (store : ValueStore)

theorem stored_process : (jalv.stored pointer control store).process = jalv.process := rfl

theorem stored_world : (jalv.stored pointer control store).world = jalv.world := rfl

theorem stored_forge : (jalv.stored pointer control store).forge = jalv.forge := rfl

end

section

variable {pointer : Nat} {control : Control} {store : ValueStore} {atom : Atom}

theorem setPortValue_paused (distinct : (jalv.ports.map JalvPort.symbol).Nodup) (member : port ∈ jalv.ports)
    (type : port.type = .control) (named : getNamedControl jalv.controls port.symbol = some pointer)
    (found : jalv.controls[pointer]? = some control)
    (set : anyValueSet (jalv.proposal 0) control.value atom = some (0, store))
    (number : anyValueFloat jalv.world jalv.forge store.value = value)
    (inside : port.index.toNat < jalv.process.controlsBuf.length) (idle : jalv.process.runState ≠ .running)
    (toPlugin toUi : ZixRing) :
    setPortValue jalv toPlugin toUi port.symbol atom =
      some ({ jalv.stored pointer control store with process := { jalv.process with
        controlsBuf := jalv.process.controlsBuf.set port.index.toNat value } }, toPlugin,
        (jalvWriteControl toUi port.index value).2) := by
  obtain ⟨here, _⟩ := List.getElem?_eq_some_iff.mp found
  have stored : (jalv.stored pointer control store).controls[pointer]? = some { control with value := store } :=
    List.getElem?_set_self here
  rw [setPortValue, jalvPortBySymbol_mem distinct member]
  simp only [named, setControlValue_eq found, set, Option.map_some, Option.bind_eq_bind, Option.bind_some, type,
    if_true, stored, stored_process, stored_world, stored_forge, number, if_pos inside, if_pos idle]
  rfl

theorem setPortValue_running (distinct : (jalv.ports.map JalvPort.symbol).Nodup) (member : port ∈ jalv.ports)
    (type : port.type = .control) (named : getNamedControl jalv.controls port.symbol = some pointer)
    (found : jalv.controls[pointer]? = some control)
    (set : anyValueSet (jalv.proposal 0) control.value atom = some (0, store))
    (number : anyValueFloat jalv.world jalv.forge store.value = value) (busy : jalv.process.runState = .running)
    (toPlugin toUi : ZixRing) :
    ∃ toUi', setPortValue jalv toPlugin toUi port.symbol atom =
      some (jalv.stored pointer control store, (jalvWriteControl toPlugin port.index value).2, toUi') := by
  obtain ⟨here, _⟩ := List.getElem?_eq_some_iff.mp found
  have stored : (jalv.stored pointer control store).controls[pointer]? = some { control with value := store } :=
    List.getElem?_set_self here
  rw [setPortValue, jalvPortBySymbol_mem distinct member]
  simp only [named, setControlValue_eq found, set, Option.map_some, Option.bind_eq_bind, Option.bind_some, type,
    if_true, stored, stored_process, stored_world, stored_forge, number, busy, ne_eq, not_true_eq_false, if_false]
  -- What is sent to the main thread depends on whether the value found room
  cases wrote : jalvWriteControl toPlugin port.index value with
  | mk status after => cases status <;> exact ⟨_, rfl⟩

end

/-- A saved value is stored in the control of its port. In a paused state it is stored in the port as well, and in a
running state it is written to the process. -/
theorem setPortValue_saved (loaded : jalv.Loaded) (distinct : (jalv.ports.map JalvPort.symbol).Nodup)
    (member : port ∈ jalv.ports) (type : port.type = .control) (value : UInt32) (toPlugin toUi : ZixRing) :
    ∃ pointer control store next toPlugin' toUi',
      getNamedControl jalv.controls port.symbol = some pointer ∧ jalv.controls[pointer]? = some control ∧
      control.name = port.controlName ∧ store.Holds (.ofBytes jalv.forge.float (word value)) ∧
      setPortValue jalv toPlugin toUi port.symbol (.ofBytes jalv.forge.float (word value)) =
        some (next, toPlugin', toUi') ∧
      next.controls = (jalv.stored pointer control store).controls ∧
      (jalv.process.runState ≠ .running → next.process = { jalv.process with
        controlsBuf := jalv.process.controlsBuf.set port.index.toNat value }) ∧
      (jalv.process.runState = .running → next.process = jalv.process ∧
        toPlugin' = (jalvWriteControl toPlugin port.index value).2) := by
  obtain ⟨pointer, control, named, found, name⟩ := loaded.portControl distinct member type
  have size : (Atom.ofBytes jalv.forge.float (word value)).size = 4 := by
    rw [Atom.ofBytes_size, length_word]
    rfl
  have shorter : (Atom.ofBytes jalv.forge.float (word value)).size.toNat < sizeofPointer := by
    rw [size]
    decide
  obtain ⟨store, set, held⟩ :=
    anyValueSet_shorter (loaded.freeable control (List.mem_of_getElem? found)) shorter (jalv.proposal 0)
  have number : anyValueFloat jalv.world jalv.forge store.value = value := by
    have body := held.float size rfl loaded.types
    rw [Atom.ofBytes_body _ (by rw [length_word]; decide)] at body
    rw [← wordValue_word (anyValueFloat _ _ _), body, wordValue_word]
  by_cases running : jalv.process.runState = .running
  · obtain ⟨toUi', ran⟩ := setPortValue_running distinct member type named found set number running toPlugin toUi
    exact ⟨pointer, control, store, _, _, toUi', named, found, name, held, ran, rfl, fun idle => absurd running idle,
      fun _ => ⟨rfl, rfl⟩⟩
  · obtain ⟨place, _⟩ := List.getElem?_eq_some_iff.mp (loaded.getElem?_index member)
    have inside := place.trans_eq loaded.values.symm
    have ran := setPortValue_paused distinct member type named found set number inside running toPlugin toUi
    exact ⟨pointer, control, store, _, _, _, named, found, name, held, ran, rfl, fun _ => rfl,
      fun busy => absurd busy running⟩

end

structure JalvImpl.Restored (entries : List (JalvPort × UInt32)) (jalv next : JalvImpl) (ring after : ZixRing) :
    Prop where
  revalued : jalv.Revalued next
  has : ∀ entry ∈ entries, next.ControlHas entry.1 entry.2
  others : ∀ (port : JalvPort) (value : UInt32), port.symbol ∉ entries.map (·.1.symbol) →
    jalv.ControlHas port value → next.ControlHas port value
  paused : jalv.process.runState ≠ .running →
    next.process = { jalv.process with controlsBuf := writeValues entries jalv.process.controlsBuf }
  running : jalv.process.runState = .running → next.process = jalv.process ∧
    ∃ sent : List (JalvPort × UInt32), sent.Sublist entries ∧ after.capacity = ring.capacity ∧
      after.content = ring.content ++ stream UiMessage.encode (sent.map valueMessage) ∧
      (16 * entries.length ≤ ring.writeSpace → sent = entries)

section

variable {jalv middle next : JalvImpl} {ring between after : ZixRing} {entry : JalvPort × UInt32}
  {entries : List (JalvPort × UInt32)}

theorem valueMessage_length (entry : JalvPort × UInt32) : (valueMessage entry).encode.length = 16 := by
  simp [valueMessage, UiMessage.length_encode, UiMessage.payload, sizeofHeader]

theorem JalvImpl.Restored.nil (jalv : JalvImpl) (ring : ZixRing) : JalvImpl.Restored [] jalv jalv ring ring where
  revalued := .refl jalv
  has := by simp
  others _ _ _ has := has
  paused _ := rfl
  running _ := ⟨rfl, [], .slnil, rfl, (List.append_nil _).symm, fun _ => rfl⟩

theorem JalvImpl.Restored.runState (restored : JalvImpl.Restored entries jalv next ring after) :
    next.process.runState = jalv.process.runState := by
  by_cases running : jalv.process.runState = .running
  · rw [(restored.running running).1]
  · rw [restored.paused running]

theorem JalvImpl.Restored.cons (first : JalvImpl.Restored [entry] jalv middle ring between)
    (rest : JalvImpl.Restored entries middle next between after) (fresh : entry.1.symbol ∉ entries.map (·.1.symbol)) :
    JalvImpl.Restored (entry :: entries) jalv next ring after where
  revalued := first.revalued.trans rest.revalued
  has := List.forall_mem_cons.mpr ⟨rest.others _ _ fresh (first.has entry (List.mem_singleton.mpr rfl)), rest.has⟩
  others port value other has := by
    rw [List.map_cons, List.mem_cons, not_or] at other
    exact rest.others port value other.2 (first.others port value (by simpa using other.1) has)
  paused idle := by
    rw [rest.paused (first.runState ▸ idle), first.paused idle]
    rfl
  running busy := by
    have restoredState := first.runState
    obtain ⟨same, here, part, capacity, content, first⟩ := first.running busy
    obtain ⟨still, behind, more, capacity', content', rest⟩ := rest.running (restoredState.trans busy)
    refine ⟨still.trans same, here ++ behind, part.append more, capacity'.trans capacity, ?_, fun room => ?_⟩
    · rw [content', content, List.map_append, stream_append, List.append_assoc]
    · rw [List.length_cons, Fifo.writeSpace] at room
      have own := first (by rw [List.length_singleton, Fifo.writeSpace]; omega)
      have length : between.content.length = ring.content.length + 16 := by
        rw [content, own, List.length_append]
        simp [valueMessage_length]
      rw [own, rest (by rw [Fifo.writeSpace, capacity, length]; omega)]
      rfl

/-- Applying one saved value is defined, and restores it. -/
theorem setPortValue_restored (loaded : jalv.Loaded) (distinct : (jalv.ports.map JalvPort.symbol).Nodup)
    (member : entry.1 ∈ jalv.ports) (type : entry.1.type = .control) (toPlugin toUi : ZixRing) :
    ∃ next toPlugin' toUi', setPortValue jalv toPlugin toUi entry.1.symbol (savedValue jalv.forge.float entry).2 =
        some (next, toPlugin', toUi') ∧ JalvImpl.Restored [entry] jalv next toPlugin toPlugin' := by
  obtain ⟨port, value⟩ := entry
  obtain ⟨pointer, control, store, next, toPlugin', toUi', named, found, name, held, set, controls, paused, running⟩ :=
    setPortValue_saved loaded distinct member type value toPlugin toUi
  obtain ⟨inside, _⟩ := List.getElem?_eq_some_iff.mp found
  have id : control.id = .port port.index := congrArg Prod.fst name
  have symbol : control.symbol = port.symbol := congrArg Prod.snd name
  have revalued := setPortValue_revalued set
  refine ⟨next, toPlugin', toUi', set, revalued, ?_, ?_, paused, fun busy => ?_⟩
  · rw [List.forall_mem_singleton]
    refine ⟨pointer, { control with value := store }, ?_, ?_, id, revalued.forge ▸ held⟩
    · rw [revalued.getNamedControl, named]
    · rw [controls]
      exact List.getElem?_set_self inside
  · intro other number apart before
    exact before.stored found (by simpa [symbol] using apart) controls revalued.forge
  · obtain ⟨same, rfl⟩ := running busy
    refine ⟨same, ?_⟩
    rcases jalvWriteControl_cases toPlugin port.index value with kept | sent
    · have full := (jalvWriteControl_kept_iff toPlugin port.index value).mp kept
      refine ⟨[], List.nil_sublist _, by rw [kept], by rw [kept]; exact (List.append_nil _).symm, fun room => ?_⟩
      rw [List.length_singleton] at room
      omega
    · obtain ⟨capacity, content, _⟩ := sent.content
      refine ⟨_, List.Sublist.refl _, capacity, content.trans ?_, fun _ => rfl⟩
      simp [valueMessage]

/-- Saved values can be applied in any order, and are restored together. -/
theorem setPortValues_restored (loaded : jalv.Loaded) (distinct : (jalv.ports.map JalvPort.symbol).Nodup)
    (members : ∀ entry ∈ entries, entry.1 ∈ jalv.ports ∧ entry.1.type = .control)
    (different : (entries.map (·.1.symbol)).Nodup) (toPlugin toUi : ZixRing) :
    ∃ next toPlugin' toUi', setPortValues (entries.map (savedValue jalv.forge.float)) jalv toPlugin toUi =
        some (next, toPlugin', toUi') ∧ JalvImpl.Restored entries jalv next toPlugin toPlugin' := by
  induction entries generalizing jalv toPlugin toUi with
  | nil => exact ⟨jalv, toPlugin, toUi, rfl, .nil jalv toPlugin⟩
  | cons entry rest ih =>
    rw [List.forall_mem_cons] at members
    rw [List.map_cons, List.nodup_cons] at different
    obtain ⟨middle, between, toUi', set, first⟩ :=
      setPortValue_restored loaded distinct members.1.1 members.1.2 toPlugin toUi
    have ports := first.revalued.ports
    obtain ⟨next, after, toUi'', sets, others⟩ := ih (loaded.revalued first.revalued) (by rw [ports]; exact distinct)
      (by rw [ports]; exact members.2) different.2 between toUi'
    rw [first.revalued.forge] at sets
    refine ⟨next, after, toUi'', ?_, first.cons others different.1⟩
    change (setPortValue jalv toPlugin toUi entry.1.symbol (savedValue jalv.forge.float entry).2).bind _ = _
    rw [set]
    exact sets

end

end Jalv
