import Jalv.Host.PortState

/-! The values that the controls of ports show.

The control of a port has the position of the port. A value for a property changes no
control of a port, whether it is set in the main thread or comes from the plugin.
-/

set_option autoImplicit false

namespace Jalv

open Foundation

def JalvImpl.Shows (jalv : JalvImpl) (index value : UInt32) : Prop :=
  ∃ control, jalv.controls[index.toNat]? = some control ∧ control.id = .port index ∧
    control.value.Holds (.ofBytes jalv.forge.float (word value))

/-- The control of each control port is at the position of the port, and there are no others of ports. -/
def JalvImpl.Placed (jalv : JalvImpl) : Prop :=
  ∀ (position : Nat) (control : Control) (index : UInt32), jalv.controls[position]? = some control →
    control.id = .port index → position = index.toNat

structure JalvImpl.KeepsPorts (jalv next : JalvImpl) : Prop where
  forge : next.forge = jalv.forge
  updating : next.updating = jalv.updating
  controls : ∀ (position : Nat) (control : Control) (index : UInt32), jalv.controls[position]? = some control →
    control.id = .port index → next.controls[position]? = some control

theorem JalvImpl.KeepsPorts.refl (jalv : JalvImpl) : jalv.KeepsPorts jalv := ⟨rfl, rfl, fun _ _ _ found _ => found⟩

theorem JalvImpl.KeepsPorts.trans {jalv middle next : JalvImpl} (first : jalv.KeepsPorts middle)
    (second : middle.KeepsPorts next) : jalv.KeepsPorts next where
  forge := second.forge.trans first.forge
  updating := second.updating.trans first.updating
  controls position control index found id :=
    second.controls position control index (first.controls position control index found id) id

theorem JalvImpl.KeepsPorts.shows {jalv next : JalvImpl} {index value : UInt32} (keeps : jalv.KeepsPorts next)
    (shows' : jalv.Shows index value) : next.Shows index value := by
  obtain ⟨control, found, id, holds⟩ := shows'
  exact ⟨control, keeps.controls _ _ _ found id, id, keeps.forge ▸ holds⟩

def floatAtom (jalv : JalvImpl) (value : UInt32) : Atom := .ofBytes jalv.forge.float (word value)

theorem floatAtom_size (jalv : JalvImpl) (value : UInt32) : (floatAtom jalv value).size = 4 := by
  rw [floatAtom, Atom.ofBytes_size, length_word]
  rfl

theorem floatAtom_body (jalv : JalvImpl) (value : UInt32) : (floatAtom jalv value).body = word value :=
  Atom.ofBytes_body _ (by rw [length_word]; decide)

section

variable {jalv next : JalvImpl} {ring after : ZixRing} {pointer status : Nat} {control : Control} {atom : Atom}

theorem setControlValue_keepsPorts {property : URID} (found : jalv.controls[pointer]? = some control)
    (id : control.id = .property property) (set : setControlValue jalv pointer atom = some (status, next)) :
    jalv.KeepsPorts next := by
  rw [setControlValue_eq found] at set
  obtain ⟨⟨_, value⟩, _, same⟩ := Option.map_eq_some_iff.mp set
  obtain ⟨_, rfl⟩ := Prod.mk.inj same
  refine ⟨rfl, rfl, fun position other index there port => ?_⟩
  have apart : pointer ≠ position := by
    rintro rfl
    rw [found, Option.some.injEq] at there
    rw [← there, id] at port
    cases port
  exact (List.getElem?_set_ne apart).trans there

theorem propertyChanged_keepsPorts {buffer : Memory Byte} {change : URID × Option Nat}
    (changed : propertyChanged buffer jalv change = some next) : jalv.KeepsPorts next := by
  unfold propertyChanged at changed
  split at changed
  · next pointer known =>
    obtain ⟨inside, id, _⟩ := List.findIdx?_eq_some_iff_getElem.mp known
    obtain ⟨value, _, sets⟩ := Option.bind_eq_some_iff.mp changed
    obtain ⟨⟨status, after⟩, set, same⟩ := Option.map_eq_some_iff.mp sets
    subst same
    exact setControlValue_keepsPorts (List.getElem?_eq_getElem inside) (of_decide_eq_true id) set
  · rw [Option.some.injEq] at changed
    subst changed
    exact .refl _

theorem propertiesChanged_keepsPorts {buffer : Memory Byte} {changes : List (URID × Option Nat)}
    (changed : changes.foldlM (propertyChanged buffer) jalv = some next) : jalv.KeepsPorts next := by
  induction changes generalizing jalv with
  | nil =>
    rw [List.foldlM_nil, Option.pure_def, Option.some.injEq] at changed
    subst changed
    exact .refl _
  | cons change rest ih =>
    rw [List.foldlM_cons] at changed
    obtain ⟨middle, first, others⟩ := Option.bind_eq_some_iff.mp changed
    exact (propertyChanged_keepsPorts first).trans (ih others)

theorem changeProperties_keepsPorts {buffer : Memory Byte} (changed : changeProperties jalv buffer = some next) :
    jalv.KeepsPorts next := by
  unfold changeProperties at changed
  split at changed
  · obtain ⟨changes, _, folded⟩ := Option.bind_eq_some_iff.mp changed
    exact propertiesChanged_keepsPorts folded
  · rw [Option.some.injEq] at changed
    subst changed
    exact .refl _

/-- A user interface that writes an event changes values of properties only. -/
theorem jalvSendToPlugin_keepsPorts {portIndex bufferSize protocol : UInt32} {buffer : Memory Byte}
    (wrote : jalvSendToPlugin jalv ring portIndex bufferSize protocol buffer = some (next, after)) :
    jalv.KeepsPorts next := by
  have none : jalv.KeepsPorts jalv := .refl _
  unfold jalvSendToPlugin at wrote
  split at wrote
  · obtain ⟨rfl, rfl⟩ := Prod.mk.inj (Option.some.inj wrote)
    exact none
  · split at wrote
    · split at wrote <;>
      · obtain ⟨rfl, rfl⟩ := Prod.mk.inj (Option.some.inj wrote)
        exact none
    · split at wrote
      · obtain ⟨middle, changed, rest⟩ := Option.bind_eq_some_iff.mp wrote
        have keeps := changeProperties_keepsPorts changed
        split at rest <;>
        · obtain ⟨rfl, rfl⟩ := Prod.mk.inj (Option.some.inj rest)
          exact keeps
      · obtain ⟨rfl, rfl⟩ := Prod.mk.inj (Option.some.inj wrote)
        exact none

theorem jalvSetControl_keepsPorts {property : URID} (found : jalv.controls[pointer]? = some control)
    (id : control.id = .property property)
    (set : jalvSetControl jalv ring pointer atom = some (status, next, after)) : jalv.KeepsPorts next := by
  obtain ⟨⟨st, middle⟩, stored, rest⟩ := Option.bind_eq_some_iff.mp set
  have keeps := setControlValue_keepsPorts found id stored
  simp only at rest
  split at rest
  · cases rest
    exact keeps
  · obtain ⟨held, _, rest⟩ := Option.bind_eq_some_iff.mp rest
    split at rest
    · split at rest <;>
      · cases rest
        exact keeps
    · split at rest
      · obtain ⟨object, _, rest⟩ := Option.bind_eq_some_iff.mp rest
        obtain ⟨⟨final, last⟩, wrote, rest⟩ := Option.bind_eq_some_iff.mp rest
        cases rest
        -- The message buffer is no part of the controls
        have written (uiMsg : Memory Byte) : middle.KeepsPorts { middle with uiMsg } :=
          ⟨rfl, rfl, fun _ _ _ found _ => found⟩
        exact keeps.trans ((written _).trans (jalvSendToPlugin_keepsPorts wrote))
      · cases rest
        exact keeps

/-- Setting the control of a port stores the value, and writes it to the process if there is room for it. -/
theorem jalvSetControl_port {index value : UInt32} (free : control.value.Freeable)
    (found : jalv.controls[pointer]? = some control) (id : control.id = .port index)
    (types : jalv.forge.float ≠ jalv.forge.double) (updating : jalv.updating = false)
    (set : jalvSetControl jalv ring pointer (floatAtom jalv value) = some (status, next, after)) :
    ∃ store : ValueStore, store.Holds (floatAtom jalv value) ∧ status = 0 ∧ next = jalv.stored pointer control store ∧
      after = (jalvWriteControl ring index value).2 := by
  have size := floatAtom_size jalv value
  have shorter : (floatAtom jalv value).size.toNat < sizeofPointer := by
    rw [size]
    decide
  obtain ⟨store, stored, held⟩ := anyValueSet_shorter free shorter (jalv.proposal 0)
  have number : anyValueFloat jalv.world jalv.forge store.value = value := by
    have body := held.float size rfl types
    rw [floatAtom_body] at body
    rw [← wordValue_word (anyValueFloat _ _ _), body, wordValue_word]
  rw [jalvSetControl_stored found stored updating, id] at set
  simp only [floatAtom, Atom.ofBytes, if_true, number, Option.some.injEq, Prod.mk.injEq] at set
  exact ⟨store, held, set.1.symm, set.2.1.symm, set.2.2.symm⟩

theorem JalvImpl.Shows.stored {index value other old : UInt32} {store : ValueStore} (placed : jalv.Placed)
    (found : jalv.controls[pointer]? = some control) (id : control.id = .port index)
    (held : store.Holds (floatAtom jalv value)) :
    (jalv.stored pointer control store).Shows index value ∧
      (other ≠ index → jalv.Shows other old → (jalv.stored pointer control store).Shows other old) := by
  obtain ⟨inside, _⟩ := List.getElem?_eq_some_iff.mp found
  have place := placed pointer control index found id
  subst place
  refine ⟨⟨{ control with value := store }, List.getElem?_set_self inside, id, held⟩, fun apart shows' => ?_⟩
  obtain ⟨holder, there, port, holds⟩ := shows'
  refine ⟨holder, (List.getElem?_set_ne fun same => apart ?_).trans there, port, holds⟩
  exact (UInt32.toNat_inj.mp same).symm

end

def handleMessage (jalv : JalvImpl) (message : UiMessage) : Option JalvImpl :=
  if message.payload.length ≤ jalv.uiMsgSize then
    (updateMessage { jalv with uiMsg := jalv.uiMsg.store 0 message.payload } message.header.type).join
  else none

/-- A value of a port or an event, which is what the process thread writes. -/
def UiMessage.ForUi : UiMessage → Prop
  | .controlPortChange _ _ | .eventTransfer _ _ => True
  | .stateRequest | .runStateChange _ => False

section

variable {jalv next : JalvImpl} {ring rest : ZixRing} {status : UpdateStatus} {messages : List UiMessage}

theorem updateMessage_forUi {message : UiMessage} (forUi : message.ForUi) (state : JalvImpl) :
    updateMessage state message.header.type ≠ some none := by
  cases message with
  | controlPortChange => simp [updateMessage, UiMessage.header]
  | eventTransfer => simp [updateMessage, UiMessage.header, JalvMessageType.code]
  | stateRequest | runStateChange => exact absurd forUi id

theorem jalvUpdateFrom_messages {space fuel i : Nat} (content : ring.content = stream UiMessage.encode messages)
    (small : ring.capacity < 2 ^ 32) (forUi : ∀ message ∈ messages, message.ForUi)
    (whole : space = i + ring.content.length)
    (updated : jalvUpdateFrom space fuel i jalv ring = some (status, next, rest)) :
    rest.capacity = ring.capacity ∧ rest.content = [] ∧ messages.foldlM handleMessage jalv = some next := by
  induction fuel generalizing i jalv ring messages with
  | zero => cases updated
  | succ fuel ih =>
    unfold jalvUpdateFrom at updated
    cases messages with
    | nil =>
      have stop : ¬ i < space := by
        rw [whole, content, stream_nil, List.length_nil]
        omega
      rw [if_neg stop] at updated
      cases updated
      exact ⟨rfl, content, rfl⟩
    | cons message others =>
      obtain ⟨first, remaining⟩ := List.forall_mem_cons.mp forUi
      have length := congrArg List.length content
      rw [stream_cons, List.length_append] at length
      have bounded := ring.bounded
      have bound : message.encode.length < 2 ^ 32 := by omega
      have size := UiMessage.header_size bound
      have more : i < space := by
        have header := message.length_encode
        unfold sizeofHeader at header
        omega
      rw [stream_cons, message.encode_eq, List.append_assoc] at content
      obtain ⟨headless, taken, capacity, behind⟩ := Fifo.read_prefix message.header.length_encode content
      obtain ⟨after, body, same, left⟩ := Fifo.read_prefix rfl behind
      simp only [if_pos more, taken, JalvMessageHeader.length_encode, if_true, JalvMessageHeader.decode_encode, body,
        size] at updated
      have known := updateMessage_forUi first { jalv with uiMsg := jalv.uiMsg.store 0 message.payload }
      split at updated
      · next fits =>
        split at updated
        · cases updated
        · next unknown => exact absurd unknown known
        · next handled =>
          have spaces : space = i + (sizeofHeader + message.payload.length) + after.content.length := by
            rw [whole, length, left, message.length_encode]
            omega
          obtain ⟨kept, empty, folded⟩ := ih left (by rw [same, capacity]; exact small) remaining spaces updated
          refine ⟨kept.trans (same.trans capacity), empty, ?_⟩
          rw [List.foldlM_cons, handleMessage, if_pos fits, handled]
          exact folded
      · cases updated

/-- An update handles all messages that the process thread has written. -/
theorem jalvUpdate_messages (content : ring.content = stream UiMessage.encode messages)
    (small : ring.capacity < 2 ^ 32) (forUi : ∀ message ∈ messages, message.ForUi)
    (updated : jalvUpdate jalv ring = some (status, next, rest)) :
    rest.capacity = ring.capacity ∧ rest.content = [] ∧
      ∃ last, messages.foldlM handleMessage { jalv with updating := true } = some last ∧
        next = { last with updating := false } := by
  obtain ⟨⟨ended, after, last⟩, looped, same⟩ := Option.map_eq_some_iff.mp updated
  cases same
  have space : ring.readSpace = 0 + ring.content.length := (Nat.zero_add _).symm
  obtain ⟨capacity, empty, folded⟩ := jalvUpdateFrom_messages content small forUi space looped
  exact ⟨capacity, empty, after, folded, rfl⟩

theorem handleMessage_event {portIndex : UInt32} {atom : Atom}
    (handled : handleMessage jalv (.eventTransfer portIndex atom) = some next) : jalv.KeepsPorts next := by
  unfold handleMessage at handled
  split at handled
  · have written (uiMsg : Memory Byte) : jalv.KeepsPorts { jalv with uiMsg } :=
      ⟨rfl, rfl, fun _ _ _ found _ => found⟩
    rw [Option.join_eq_some_iff] at handled
    simp only [updateMessage, UiMessage.header, JalvMessageType.code, if_true] at handled
    obtain ⟨after, changed, same⟩ := Option.map_eq_some_iff.mp handled
    obtain rfl := Option.some.inj same
    unfold uiPortEvent at changed
    rw [if_neg jalv.urids.transferNonzero, if_pos rfl] at changed
    exact (written _).trans (changeProperties_keepsPorts changed)
  · cases handled

/-- A value of a port is stored in the control at the position of the port, if there is one. -/
theorem uiPortEvent_control {index value : UInt32} {buffer : Memory Byte}
    (free : ∀ control ∈ jalv.controls, control.value.Freeable) (bytes : buffer.load 0 4 = word value)
    (handled : uiPortEvent jalv index 4 0 buffer = some next) :
    next.forge = jalv.forge ∧
      (∀ position, position ≠ index.toNat → next.controls[position]? = jalv.controls[position]?) ∧
      ∀ control, jalv.controls[index.toNat]? = some control → ∃ store : ValueStore,
        store.Holds (floatAtom jalv value) ∧ next.controls[index.toNat]? = some { control with value := store } := by
  have atom : (⟨4, jalv.forge.float, buffer.load 0 4, Memory.length_load _ _ _⟩ : Atom) = floatAtom jalv value :=
    Atom.ext rfl (bytes.trans (floatAtom_body jalv value).symm)
  rw [uiPortEvent, if_pos rfl, getPortControl] at handled
  by_cases inside : index.toNat < jalv.controls.length
  · have found := List.getElem?_eq_getElem inside
    have shorter : (floatAtom jalv value).size.toNat < sizeofPointer := by
      rw [floatAtom_size]
      decide
    obtain ⟨store, stored, held⟩ :=
      anyValueSet_shorter (free _ (List.mem_of_getElem? found)) shorter (jalv.proposal 0)
    have set : setControlValue jalv index.toNat ⟨4, jalv.forge.float, buffer.load 0 4, Memory.length_load _ _ _⟩ =
        some (0, jalv.stored index.toNat jalv.controls[index.toNat] store) := by
      rw [atom, setControlValue_eq found, stored, Option.map_some]
    simp only [if_pos inside] at handled
    change (setControlValue jalv index.toNat ⟨4, jalv.forge.float, buffer.load 0 4, _⟩).map (·.2) = some next at handled
    rw [set, Option.map_some, Option.some.injEq] at handled
    subst handled
    refine ⟨rfl, fun position apart => List.getElem?_set_ne (Ne.symm apart), fun control here => ?_⟩
    rw [found, Option.some.injEq] at here
    subst here
    exact ⟨store, held, List.getElem?_set_self inside⟩
  · simp only [if_neg inside] at handled
    obtain rfl := Option.some.inj handled
    refine ⟨rfl, fun _ _ => rfl, fun control found => ?_⟩
    obtain ⟨place, _⟩ := List.getElem?_eq_some_iff.mp found
    exact absurd place inside

theorem handleMessage_control {index value : UInt32} (free : ∀ control ∈ jalv.controls, control.value.Freeable)
    (handled : handleMessage jalv (.controlPortChange index value) = some next) :
    next.forge = jalv.forge ∧
      (∀ position, position ≠ index.toNat → next.controls[position]? = jalv.controls[position]?) ∧
      ∀ control, jalv.controls[index.toNat]? = some control → ∃ store : ValueStore,
        store.Holds (floatAtom jalv value) ∧ next.controls[index.toNat]? = some { control with value := store } := by
  unfold handleMessage at handled
  split at handled
  · rw [Option.join_eq_some_iff] at handled
    have payload : (UiMessage.controlPortChange index value).payload = word index ++ word value := rfl
    have first : wordValue ((jalv.uiMsg.store 0 (word index ++ word value)).load 0 4) = index := by
      have part := Memory.load_store_part jalv.uiMsg 0 [] (word index) (word value)
      simpa using congrArg wordValue part
    have second : ((jalv.uiMsg.store 0 (word index ++ word value)).shift 4).load 0 4 = word value := by
      have part := Memory.load_store_part jalv.uiMsg 0 (word index) (word value) []
      rw [Memory.load_shift]
      simpa using part
    simp only [updateMessage, UiMessage.header, payload, first, if_true] at handled
    obtain ⟨after, changed, same⟩ := Option.map_eq_some_iff.mp handled
    obtain rfl := Option.some.inj same
    -- The message buffer is no part of what is stated
    have stored := fun free => uiPortEvent_control free second changed
    exact stored free
  · cases handled

end

end Jalv
