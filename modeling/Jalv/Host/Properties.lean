import Jalv.Foundation.Reconcile
import Jalv.Host.AllOrNothing
import Jalv.Host.Shown
import Jalv.Message.Objects

/-! The values that the controls of properties show.

A property changes by a patch message, of the main thread itself or of the plugin. The value
goes to the first control that has the property. If there is no memory for it, the control
has no value at all.
-/

set_option autoImplicit false

namespace Jalv

open Foundation

/-- The changes of properties that a message in memory stands for. `none` is a value that is null. -/
def propertyChanges (forge : Forge) (urids : JalvURIDs) (memory : Memory Byte) : Option (List (URID × Atom)) :=
  if lv2AtomForgeIsObjectType forge (atomAt memory 0).type then do
    let changes ← patchChangedProperties forge urids memory 0
    changes.mapM fun change => change.2.map fun value => (change.1, atomAt memory value)
  else some []

def Atom.bytes (atom : Atom) : List Byte := word atom.size ++ word atom.type ++ atom.body

/-- The changes that an event stands for, with nothing behind it in memory. -/
def Atom.changes (forge : Forge) (urids : JalvURIDs) (atom : Atom) : List (URID × Atom) :=
  (propertyChanges forge urids (Memory.store (fun _ => 0) 0 atom.bytes)).getD []

/-- The changes are within the event, so that it stands for the same with anything behind it. -/
def Atom.Complete (forge : Forge) (urids : JalvURIDs) (atom : Atom) : Prop :=
  ∀ memory, atomAt memory 0 = atom → propertyChanges forge urids memory = some (atom.changes forge urids)

def UiMessage.changes (forge : Forge) (urids : JalvURIDs) : UiMessage → List (URID × Atom)
  | .eventTransfer _ atom => atom.changes forge urids
  | .controlPortChange _ _ | .stateRequest | .runStateChange _ => []

def JalvImpl.setProperty (jalv : JalvImpl) (change : URID × Atom) : Option JalvImpl :=
  match getPropertyControl jalv.controls change.1 with
  | some pointer => (setControlValue jalv pointer change.2).map (·.2)
  | none => some jalv

/-- The control of a property has a value, or none at all. -/
def JalvImpl.ShowsProperty (jalv : JalvImpl) (property : URID) (atom : Atom) : Prop :=
  ∃ pointer control, getPropertyControl jalv.controls property = some pointer ∧
    jalv.controls[pointer]? = some control ∧ (control.value.Holds atom ∨ control.value.value = .zero)

def JalvImpl.ShowsLast (jalv : JalvImpl) (given : List (URID × Atom)) (property : URID) : Prop :=
  ∀ atom, (getPropertyControl jalv.controls property).isSome → assigned given property none = some atom →
    jalv.ShowsProperty property atom

section

variable {jalv next : JalvImpl} {pointer status : Nat} {control : Control} {property : URID} {atom : Atom}
  {given : List (URID × Atom)} {store : ValueStore}

theorem getPropertyControl_id {controls : List Control} (known : getPropertyControl controls property = some pointer) :
    ∃ control, controls[pointer]? = some control ∧ control.id = .property property := by
  obtain ⟨inside, id, _⟩ := List.findIdx?_eq_some_iff_getElem.mp known
  exact ⟨_, List.getElem?_eq_getElem inside, of_decide_eq_true id⟩

theorem setControlValue_cases (set : setControlValue jalv pointer atom = some (status, next)) :
    ∃ control store, jalv.controls[pointer]? = some control ∧ next = jalv.stored pointer control store ∧
      (store.Holds atom ∨ store.value = .zero) := by
  obtain ⟨control, found, _⟩ := Option.bind_eq_some_iff.mp set
  rw [setControlValue_eq found] at set
  obtain ⟨⟨reply, store⟩, stored, same⟩ := Option.map_eq_some_iff.mp set
  obtain ⟨_, rfl⟩ := Prod.mk.inj same
  refine ⟨control, store, found, rfl, ?_⟩
  rcases anyValueSet_cases stored with ⟨_, held⟩ | ⟨_, zero, _⟩
  · exact Or.inl held
  · exact Or.inr zero

theorem JalvImpl.stored_known (found : jalv.controls[pointer]? = some control) :
    getPropertyControl (jalv.stored pointer control store).controls property =
      getPropertyControl jalv.controls property := getPropertyControl_set found store

theorem JalvImpl.ShowsProperty.stored (shown : jalv.ShowsProperty property atom)
    (found : jalv.controls[pointer]? = some control) (other : control.id ≠ .property property) :
    (jalv.stored pointer control store).ShowsProperty property atom := by
  obtain ⟨first, holder, known, here, held⟩ := shown
  have apart : pointer ≠ first := by
    rintro rfl
    obtain ⟨owner, there, id⟩ := getPropertyControl_id known
    rw [found, Option.some.injEq] at there
    exact other (there ▸ id)
  exact ⟨first, holder, (stored_known found).trans known, (List.getElem?_set_ne apart).trans here, held⟩

theorem JalvImpl.ShowsLast.stored (shown : jalv.ShowsLast given property)
    (found : jalv.controls[pointer]? = some control) (other : control.id ≠ .property property) :
    (jalv.stored pointer control store).ShowsLast given property := by
  intro atom known last
  rw [stored_known found] at known
  exact (shown atom known last).stored found other

theorem JalvImpl.setProperty_shows (others : ∀ key, key ≠ property → jalv.ShowsLast given key)
    (set : jalv.setProperty (property, atom) = some next) (key : URID) :
    next.ShowsLast (given ++ [(property, atom)]) key := by
  intro latest has last
  rw [assigned_append] at last
  unfold setProperty at set
  split at set
  · next pointer known =>
    obtain ⟨⟨status, _⟩, stored, same⟩ := Option.map_eq_some_iff.mp set
    subst same
    obtain ⟨control, store, found, rfl, held⟩ := setControlValue_cases stored
    obtain ⟨inside, _⟩ := List.getElem?_eq_some_iff.mp found
    by_cases own : property = key
    · subst own
      have value : some atom = some latest := by
        rw [← last]
        exact (if_pos rfl).symm
      rw [Option.some.injEq] at value
      subst value
      exact ⟨pointer, _, (stored_known found).trans known, List.getElem?_set_self inside, held⟩
    · have kept : assigned given key none = some latest := by
        rw [← last]
        exact (if_neg own).symm
      rw [stored_known found] at has
      obtain ⟨owner, here, id⟩ := getPropertyControl_id known
      rw [found, Option.some.injEq] at here
      refine (others key (Ne.symm own) latest has kept).stored found ?_
      rw [here, id]
      exact fun same => own (ControlId.property.inj same)
  · next unknown =>
    rw [Option.some.injEq] at set
    subst set
    have own : property ≠ key := by
      rintro rfl
      dsimp only at unknown
      rw [unknown] at has
      cases has
    have kept : assigned given key none = some latest := by
      rw [← last]
      exact (if_neg own).symm
    exact others key (Ne.symm own) latest has kept

theorem JalvImpl.setProperties_shows {changes : List (URID × Atom)} (shown : ∀ key, jalv.ShowsLast given key)
    (set : changes.foldlM setProperty jalv = some next) (key : URID) : next.ShowsLast (given ++ changes) key := by
  induction changes generalizing jalv given with
  | nil =>
    rw [List.foldlM_nil, Option.pure_def, Option.some.injEq] at set
    subst set
    rw [List.append_nil]
    exact shown key
  | cons change rest ih =>
    rw [List.foldlM_cons] at set
    obtain ⟨middle, first, others⟩ := Option.bind_eq_some_iff.mp set
    have all := ih (setProperty_shows (fun key _ => shown key) first) others
    rwa [List.append_assoc] at all

end

section

variable {jalv next : JalvImpl} {memory : Memory Byte} {atom : Atom} {given : List (URID × Atom)}

theorem propertiesChanged_eq {changes : List (URID × Option Nat)} {values : List (URID × Atom)} (jalv : JalvImpl)
    (found : (changes.mapM fun change => change.2.map fun value => (change.1, atomAt memory value)) = some values) :
    changes.foldlM (propertyChanged memory) jalv = values.foldlM JalvImpl.setProperty jalv := by
  induction changes generalizing jalv values with
  | nil =>
    cases found
    rfl
  | cons change rest ih =>
    rw [List.mapM_cons] at found
    obtain ⟨first, own, more⟩ := Option.bind_eq_some_iff.mp found
    obtain ⟨others, behind, same⟩ := Option.bind_eq_some_iff.mp more
    cases same
    obtain ⟨value, place, rfl⟩ := Option.map_eq_some_iff.mp own
    have step (state : JalvImpl) : propertyChanged memory state change =
        state.setProperty (change.1, atomAt memory value) := by
      rw [propertyChanged, place]
      rfl
    simp only [List.foldlM_cons, step, ih _ behind]

/-- An event that is looked into sets the properties that it stands for. -/
theorem changeProperties_eq (complete : atom.Complete jalv.forge jalv.urids) (here : atomAt memory 0 = atom) :
    changeProperties jalv memory = (atom.changes jalv.forge jalv.urids).foldlM JalvImpl.setProperty jalv := by
  have whole := complete memory here
  unfold propertyChanges at whole
  unfold changeProperties
  split at whole
  · next isObject =>
    obtain ⟨changes, reported, values⟩ := Option.bind_eq_some_iff.mp whole
    rw [if_pos isObject, reported, Option.bind_eq_bind, Option.bind_some]
    exact propertiesChanged_eq jalv values
  · next plain =>
    rw [if_neg plain, ← Option.some.inj whole]
    rfl

theorem atomAt_eq {place : Nat} (loaded : memory.load place atom.bytes.length = atom.bytes) :
    atomAt memory place = atom := by
  rw [Atom.bytes, List.append_assoc] at loaded
  obtain ⟨size, behindSize⟩ := load_words_split loaded
  obtain ⟨type, behindType⟩ := load_words_split behindSize
  simp only [Nat.add_assoc, Nat.reduceAdd, atom.sized] at type behindType
  refine Atom.ext type ?_
  rw [atomAt_body, show (atomAt memory place).size = atom.size from size]
  exact behindType

theorem atomAt_bytes (memory : Memory Byte) (place : Nat) :
    memory.load place (8 + (atomAt memory place).size.toNat) = (atomAt memory place).bytes := by
  have size : word (atomAt memory place).size = memory.load place 4 := word_wordValue (Memory.length_load _ _ _)
  have type : word (atomAt memory place).type = memory.load (place + 4) 4 := word_wordValue (Memory.length_load _ _ _)
  rw [Memory.load_append, Memory.load_append memory place 4 4, Atom.bytes, atomAt_body, size, type]

theorem atomAt_payload (memory : Memory Byte) (portIndex : UInt32) (atom : Atom) :
    atomAt ((memory.store 0 (UiMessage.eventTransfer portIndex atom).payload).shift 4) 0 = atom := by
  refine atomAt_eq ?_
  have payload : (UiMessage.eventTransfer portIndex atom).payload = word portIndex ++ atom.bytes := by
    simp only [UiMessage.payload, Atom.bytes, List.append_assoc]
  have part := Memory.load_store_part memory 0 (word portIndex) atom.bytes []
  rw [List.append_nil, length_word] at part
  rw [Memory.load_shift, payload]
  exact part

theorem changeProperties_shows (jalv : JalvImpl) (complete : atom.Complete jalv.forge jalv.urids)
    (here : atomAt memory 0 = atom) (shown : ∀ key, jalv.ShowsLast given key)
    (changed : changeProperties jalv memory = some next) (key : URID) :
    next.ShowsLast (given ++ atom.changes jalv.forge jalv.urids) key := by
  rw [changeProperties_eq complete here] at changed
  exact JalvImpl.setProperties_shows shown changed key

end

def UiMessage.Heard (jalv : JalvImpl) : UiMessage → Prop
  | .controlPortChange portIndex _ => ∀ control, jalv.controls[portIndex.toNat]? = some control →
      ∃ index, control.id = .port index
  | .eventTransfer _ atom => atom.Complete jalv.forge jalv.urids
  | .stateRequest | .runStateChange _ => False

section

variable {jalv next : JalvImpl} {ring after : ZixRing} {pointer : Nat} {control : Control} {property : URID}
  {atom : Atom} {given : List (URID × Atom)}

theorem getPropertyControl_ids (ids : next.controls.map Control.id = jalv.controls.map Control.id) :
    getPropertyControl next.controls property = getPropertyControl jalv.controls property := by
  have whole (controls : List Control) : getPropertyControl controls property =
      (controls.map Control.id).findIdx? fun id => id = .property property := by
    rw [List.findIdx?_map]
    rfl
  rw [whole, whole, ids]

theorem control_of_ids (ids : next.controls.map Control.id = jalv.controls.map Control.id) {index : Nat}
    {control : Control} (found : next.controls[index]? = some control) :
    ∃ before, jalv.controls[index]? = some before ∧ before.id = control.id := by
  have same := congrArg (·[index]?) ids
  simp only [List.getElem?_map, found, Option.map_some] at same
  exact Option.map_eq_some_iff.mp same.symm

theorem UiMessage.Heard.congr {message : UiMessage} (heard : message.Heard jalv) (urids : next.urids = jalv.urids)
    (forge : next.forge = jalv.forge) (ids : next.controls.map Control.id = jalv.controls.map Control.id) :
    message.Heard next := by
  cases message with
  | controlPortChange portIndex value =>
    intro control found
    obtain ⟨before, here, id⟩ := control_of_ids ids found
    obtain ⟨index, port⟩ := heard before here
    exact ⟨index, id.symm.trans port⟩
  | eventTransfer portIndex atom =>
    change atom.Complete next.forge next.urids
    rw [urids, forge]
    exact heard
  | stateRequest | runStateChange => exact heard.elim

theorem JalvImpl.SetsValues.ids (sets : jalv.SetsValues next) :
    next.controls.map Control.id = jalv.controls.map Control.id := by
  have names := congrArg (List.map Prod.fst) sets.revalued.names
  rwa [List.map_map, List.map_map] at names

theorem propertyChanges_setMessage (fits : SetFits jalv atom) (memory : Memory Byte) :
    propertyChanges jalv.forge jalv.urids (memory.store 0 (setMessage jalv property atom).bytes) =
      some [(property, atom)] := by
  let blank : JalvImpl := jalv.written memory
  have fits' : SetFits blank atom := ⟨fits.room, fits.small⟩
  have words : HasSetWords blank (setMessage blank property atom).size property atom (setBuffer blank property atom) :=
    fun index inside => setBuffer_word fits' inside
  have large : 48 ≤ (setMessage blank property atom).size.toNat := by
    rw [(setMessage_body fits').2]
    omega
  have reported : patchChangedProperties jalv.forge jalv.urids (setBuffer blank property atom) 0 =
      some [(property, some 48)] := by
    rw [← Reads.run_patchChangedProperties]
    exact (Reads.within_patchChangedProperties.mpr ⟨by omega, words.reports large⟩).1
  have isObject : lv2AtomForgeIsObjectType jalv.forge (atomAt (setBuffer blank property atom) 0).type = true := by
    rw [setBuffer_object fits']
    simp [lv2AtomForgeIsObjectType, setMessage, Atom.ofBytes, blank, JalvImpl.written]
  have changes : propertyChanges jalv.forge jalv.urids (setBuffer blank property atom) = some [(property, atom)] := by
    rw [propertyChanges, if_pos isObject, reported]
    simp [setBuffer_value fits']
  exact changes

/-- The message that sets a property stands for this change. -/
theorem setMessage_changes (fits : SetFits jalv atom) :
    (setMessage jalv property atom).changes jalv.forge jalv.urids = [(property, atom)] :=
  congrArg (·.getD []) (propertyChanges_setMessage fits _)

/-- Nothing behind the message that sets a property counts. -/
theorem setMessage_complete (fits : SetFits jalv atom) :
    (setMessage jalv property atom).Complete jalv.forge jalv.urids := by
  intro memory here
  have same : memory.store 0 (setMessage jalv property atom).bytes = memory := by
    rw [← here, ← atomAt_bytes, Memory.store_load]
  rw [setMessage_changes fits, ← propertyChanges_setMessage fits memory, same]

/-- A property that is set shows its value, and a message for the plugin is written if there is room for it. -/
theorem jalvSetControl_property_shows (found : jalv.controls[pointer]? = some control)
    (id : control.id = .property property) (updating : jalv.updating = false)
    (known : jalv.process.controlIn ≠ uint32Max) (inside : jalv.process.controlIn.toNat < jalv.ports.length)
    (fits : SetFits jalv atom) (shown : ∀ key, jalv.ShowsLast given key)
    (set : jalvSetControl jalv ring pointer atom = some (0, next, after)) :
    (∀ key, next.ShowsLast (given ++ [(property, atom)]) key) ∧
      after = (jalvWriteEvent ring jalv.process.controlIn (setMessage jalv property atom)).2 := by
  obtain ⟨⟨status, middle⟩, stores, _⟩ := Option.bind_eq_some_iff.mp set
  rw [setControlValue_eq found] at stores
  obtain ⟨⟨reply, store⟩, stored, _⟩ := Option.map_eq_some_iff.mp stores
  have success : reply = 0 := by
    by_contra failed
    rw [jalvSetControl_failed found stored failed, Option.some.injEq, Prod.mk.injEq] at set
    exact failed set.1
  subst success
  rw [jalvSetControl_property found stored updating id known fits, if_pos inside, propertyChanged_setBuffer fits] at set
  obtain ⟨final, changed, same⟩ := Option.map_eq_some_iff.mp set
  cases same
  refine ⟨JalvImpl.setProperty_shows (fun key other => ?_) changed, rfl⟩
  exact (shown key).stored found fun own => other (ControlId.property.inj (own.symm.trans id))

/-- The controls of properties show what is told about the properties. -/
theorem handleMessage_properties {message : UiMessage} (heard : message.Heard jalv)
    (shown : ∀ key, jalv.ShowsLast given key) (handled : handleMessage jalv message = some next) (key : URID) :
    next.ShowsLast (given ++ message.changes jalv.forge jalv.urids) key := by
  unfold handleMessage at handled
  split at handled
  · rw [Option.join_eq_some_iff] at handled
    cases message with
    | controlPortChange portIndex value =>
      rw [UiMessage.changes, List.append_nil]
      have payload : (UiMessage.controlPortChange portIndex value).payload = word portIndex ++ word value := rfl
      have first : wordValue ((jalv.uiMsg.store 0 (word portIndex ++ word value)).load 0 4) = portIndex := by
        have part := Memory.load_store_part jalv.uiMsg 0 [] (word portIndex) (word value)
        simpa using congrArg wordValue part
      simp only [updateMessage, UiMessage.header, payload, first, if_true] at handled
      obtain ⟨after, changed, same⟩ := Option.map_eq_some_iff.mp handled
      obtain rfl := Option.some.inj same
      rw [uiPortEvent, if_pos rfl] at changed
      split at changed
      · next pointer known =>
        obtain ⟨⟨status, _⟩, stored, same⟩ := Option.map_eq_some_iff.mp changed
        subst same
        obtain ⟨control, store, found, rfl, _⟩ := setControlValue_cases stored
        unfold getPortControl at known
        split at known
        · cases known
          obtain ⟨index, id⟩ := heard control found
          have other : control.id ≠ .property key := by
            rw [id]
            exact ControlId.noConfusion
          exact (shown key).stored found other
        · cases known
      · obtain rfl := Option.some.inj changed
        exact shown key
    | eventTransfer portIndex atom =>
      simp only [updateMessage, UiMessage.header, JalvMessageType.code, if_true] at handled
      obtain ⟨after, changed, same⟩ := Option.map_eq_some_iff.mp handled
      obtain rfl := Option.some.inj same
      unfold uiPortEvent at changed
      rw [if_neg jalv.urids.transferNonzero, if_pos rfl] at changed
      let read := jalv.written (jalv.uiMsg.store 0 (UiMessage.eventTransfer portIndex atom).payload)
      have complete : atom.Complete read.forge read.urids := heard
      have before (key : URID) : read.ShowsLast given key := shown key
      have final := changeProperties_shows read complete (atomAt_payload jalv.uiMsg portIndex atom) before changed key
      exact final
    | stateRequest | runStateChange => exact heard.elim
  · cases handled

end

end Jalv
