import Jalv.Host.SetMessage

/-! Setting a control and telling the plugin.

The value is stored before the message is written, and what becomes of the message is
not looked at. It is all or nothing exactly if there is room for the whole message.
-/

set_option autoImplicit false

namespace Jalv

open Foundation

/-- The object sets a property to a value, which is wholly inside of it. -/
def Atom.IsSet (object : Atom) (jalv : JalvImpl) (property : URID) (value : Atom) : Prop :=
  object.type = jalv.forge.object ∧
    ∃ padding, padding < 8 ∧ object.body = setBytes jalv property value ++ List.replicate padding 0

section

variable (jalv : JalvImpl) (ring : ZixRing) (pointer : Nat) (control : Control) (atom : Atom)

/-- A float for a control port, or a value for a property of a plugin with a control input. -/
def ForPlugin : Prop :=
  match control.id with
  | .port _ => atom.type = jalv.forge.float
  | .property _ => jalv.process.controlIn ≠ uint32Max

def Delivered (after : ZixRing) : Prop :=
  match control.id with
  | .port index => ∃ value, word value = atom.body ∧ Sends ring after (.controlPortChange index value)
  | .property property => ∃ object : Atom, object.IsSet jalv property atom ∧
      Sends ring after (.eventTransfer jalv.process.controlIn object)

def Appendable : Prop :=
  match control.id with
  | .port _ => 16 ≤ ring.writeSpace
  | .property _ => SetFits jalv atom ∧ 68 + atom.size.toNat + setPadding jalv atom ≤ ring.writeSpace

/-- The call returns. If it returns zero, a value for the plugin has been sent, and if a message
could not be appended, it returns something else and leaves the controls as they were. -/
def AllOrNothing : Prop :=
  ∃ status next after, jalvSetControl jalv ring pointer atom = some (status, next, after) ∧
    (status = 0 → ForPlugin jalv control atom → Delivered jalv ring control atom after) ∧
    (ForPlugin jalv control atom → ¬Appendable jalv ring control atom → status ≠ 0 ∧ next.controls = jalv.controls)

/-- The set of the value has a defined result. If a block for it cannot be allocated and the message
would not fit, then the control had no value before. Otherwise, a value for the plugin fits into the
message and the ring: a float has four bytes, the control input is a port, and where another control
comes first with the same property, it can be set as well. -/
def SetsWhole : Prop :=
  (anyValueSet (jalv.proposal 0) control.value atom).isSome ∧
    (control.value.CannotGrow (jalv.proposal 0) atom → ForPlugin jalv control atom →
      ¬Appendable jalv ring control atom → control.value.value = .zero) ∧
    (¬control.value.CannotGrow (jalv.proposal 0) atom → ForPlugin jalv control atom →
      Appendable jalv ring control atom ∧
        match control.id with
        | .port _ => atom.size = 4
        | .property property => jalv.process.controlIn.toNat < jalv.ports.length ∧
            ∀ first other, getPropertyControl jalv.controls property = some first → first ≠ pointer →
              jalv.controls[first]? = some other → (anyValueSet (jalv.proposal 1) other.value atom).isSome)

end

def JalvImpl.stored (jalv : JalvImpl) (pointer : Nat) (control : Control) (value : ValueStore) : JalvImpl :=
  { jalv with
    proposal := jalv.nextProposals
    controls := jalv.controls.set pointer { control with value } }

def JalvImpl.written (jalv : JalvImpl) (uiMsg : Memory Byte) : JalvImpl := { jalv with uiMsg }

section

variable {jalv : JalvImpl} {ring : ZixRing} {pointer : Nat} {control : Control} {atom : Atom} {property : URID}

theorem setControlValue_eq (found : jalv.controls[pointer]? = some control) : setControlValue jalv pointer atom =
    (anyValueSet (jalv.proposal 0) control.value atom).map fun result =>
      (result.1, jalv.stored pointer control result.2) := by
  rw [setControlValue, found, Option.bind_eq_bind, Option.bind_some, Option.map_eq_bind]
  rfl

theorem getPropertyControl_set (found : jalv.controls[pointer]? = some control) (value : ValueStore) :
    getPropertyControl (jalv.controls.set pointer { control with value }) property =
      getPropertyControl jalv.controls property := by
  have ids : (jalv.controls.set pointer { control with value }).map Control.id = jalv.controls.map Control.id := by
    obtain ⟨inside, rfl⟩ := List.getElem?_eq_some_iff.mp found
    have length : pointer < (jalv.controls.map Control.id).length := by rw [List.length_map]; exact inside
    rw [List.map_set, ← List.getElem_map Control.id]
    exact List.set_getElem_self length
  have byId (controls : List Control) : getPropertyControl controls property =
      (controls.map Control.id).findIdx? fun id => id = .property property := by
    rw [List.findIdx?_map]
    rfl
  rw [byId, byId, ids]

theorem propertyChanged_setBuffer (fits : SetFits jalv atom) (state : JalvImpl) :
    propertyChanged (setBuffer jalv property atom) state (property, some 48) =
      match getPropertyControl state.controls property with
      | some first => (setControlValue state first atom).map (·.2)
      | none => some state := by
  rw [propertyChanged]
  split
  · next known => simp only [known, Option.bind_eq_bind, Option.bind_some, setBuffer_value fits]
  · next unknown => simp only [unknown]

/-- The value that was just stored is stored again without a change, unless another control comes first. -/
theorem propertyChanged_stored (fits : SetFits jalv atom) (found : jalv.controls[pointer]? = some control)
    {value : ValueStore} (held : value.Holds atom) (uiMsg : Memory Byte) :
    (propertyChanged (setBuffer jalv property atom) ((jalv.stored pointer control value).written uiMsg)
        (property, some 48)).isSome ↔
      ∀ first other, getPropertyControl jalv.controls property = some first → first ≠ pointer →
        jalv.controls[first]? = some other → (anyValueSet (jalv.proposal 1) other.value atom).isSome := by
  obtain ⟨inside, _⟩ := List.getElem?_eq_some_iff.mp found
  rw [propertyChanged_setBuffer fits]
  have same : getPropertyControl ((jalv.stored pointer control value).written uiMsg).controls property =
      getPropertyControl jalv.controls property := getPropertyControl_set found value
  rw [same]
  cases known : getPropertyControl jalv.controls property with
  | none =>
    refine iff_of_true rfl ?_
    rintro _ _ ⟨⟩
  | some first =>
    obtain ⟨before, _⟩ := List.findIdx?_eq_some_iff_getElem.mp known
    by_cases here : first = pointer
    · subst here
      have again : ((jalv.stored first control value).written uiMsg).controls[first]? = some { control with value } :=
        List.getElem?_set_self inside
      simp only [setControlValue_eq again, anyValueSet_held _ held]
      refine iff_of_true rfl ?_
      rintro _ _ ⟨⟩ other
      exact absurd rfl other
    · have other : ((jalv.stored pointer control value).written uiMsg).controls[first]? =
          some jalv.controls[first] := by
        rw [← List.getElem?_eq_getElem before]
        exact List.getElem?_set_ne fun same => here same.symm
      simp only [setControlValue_eq other, Option.map_map, Option.isSome_map]
      constructor
      · rintro set _ _ ⟨⟩ _ found'
        cases found'.symm.trans (List.getElem?_eq_getElem before)
        exact set
      · intro set
        exact set first _ rfl here (List.getElem?_eq_getElem before)

theorem jalvSetControl_failed {status : Nat} {value : ValueStore} (found : jalv.controls[pointer]? = some control)
    (set : anyValueSet (jalv.proposal 0) control.value atom = some (status, value)) (failed : status ≠ 0) :
    jalvSetControl jalv ring pointer atom = some (status, jalv.stored pointer control value, ring) := by
  rw [jalvSetControl, setControlValue_eq found, set, Option.map_some, Option.bind_eq_bind, Option.bind_some]
  simp only [failed, ne_eq, not_false_eq_true, true_or, if_true]
  rfl

/-- After a successful set, the control tells where the value is for. -/
theorem jalvSetControl_stored {value : ValueStore} (found : jalv.controls[pointer]? = some control)
    (set : anyValueSet (jalv.proposal 0) control.value atom = some (0, value)) (updating : jalv.updating = false) :
    jalvSetControl jalv ring pointer atom =
      match control.id with
      | .port index => some (0, jalv.stored pointer control value,
          if atom.type = jalv.forge.float then
            (jalvWriteControl ring index (anyValueFloat jalv.world jalv.forge value.value)).2
          else ring)
      | .property property =>
        if jalv.process.controlIn ≠ uint32Max then
          (forgeSet jalv property atom).bind fun object =>
            let uiMsg := jalv.uiMsg.store 0 (word object.size ++ word object.type ++ object.body)
            (jalvSendToPlugin ((jalv.stored pointer control value).written uiMsg) ring jalv.process.controlIn
              (8 + object.size) jalv.urids.atomEventTransfer uiMsg).map fun result => (0, result)
        else some (0, jalv.stored pointer control value, ring) := by
  obtain ⟨inside, _⟩ := List.getElem?_eq_some_iff.mp found
  have here : (jalv.stored pointer control value).controls[pointer]? = some { control with value } :=
    List.getElem?_set_self inside
  have idle : ¬((0 : Nat) ≠ 0 ∨ (jalv.stored pointer control value).updating) := by
    simp [JalvImpl.stored, updating]
  rw [jalvSetControl, setControlValue_eq found, set, Option.map_some, Option.bind_eq_bind, Option.bind_some]
  simp only [if_neg idle, here, Option.bind_eq_bind, Option.bind_some]
  cases control.id with
  | port index =>
    simp only
    split
    · next float =>
      have float : atom.type = jalv.forge.float := float
      rw [if_pos float]
      rfl
    · next other =>
      have other : atom.type ≠ jalv.forge.float := other
      rw [if_neg other]
      rfl
  | property property =>
    simp only
    split
    · next known =>
      have known : jalv.process.controlIn ≠ uint32Max := known
      rw [if_pos known]
      refine Option.bind_congr fun object _ => ?_
      rw [Option.map_eq_bind]
      rfl
    · next unknown =>
      have unknown : ¬jalv.process.controlIn ≠ uint32Max := unknown
      rw [if_neg unknown]
      rfl

theorem jalvSendToPlugin_outside {portIndex bufferSize protocol : UInt32} {buffer : Memory Byte}
    (outside : jalv.ports.length ≤ portIndex.toNat) :
    jalvSendToPlugin jalv ring portIndex bufferSize protocol buffer = some (jalv, ring) := if_pos outside

theorem jalvSetControl_property (found : jalv.controls[pointer]? = some control) {value : ValueStore}
    (set : anyValueSet (jalv.proposal 0) control.value atom = some (0, value)) (updating : jalv.updating = false)
    (id : control.id = .property property) (known : jalv.process.controlIn ≠ uint32Max) (fits : SetFits jalv atom) :
    jalvSetControl jalv ring pointer atom =
      if jalv.process.controlIn.toNat < jalv.ports.length then
        (propertyChanged (setBuffer jalv property atom)
            ((jalv.stored pointer control value).written (setBuffer jalv property atom))
              (property, some 48)).map fun next =>
          (0, next, (jalvWriteEvent ring jalv.process.controlIn (setMessage jalv property atom)).2)
      else some (0, (jalv.stored pointer control value).written (setBuffer jalv property atom), ring) := by
  rw [jalvSetControl_stored found set updating, id]
  simp only [if_pos known, forgeSet_eq fits.room, if_pos fits.small, Option.bind_some]
  split
  · next inside =>
    have sent := @jalvSendToPlugin_setBuffer jalv property atom fits
      ((jalv.stored pointer control value).written (setBuffer jalv property atom)) rfl rfl _ inside ring
    refine (congrArg (Option.map _) sent).trans ?_
    rw [Option.map_map]
    rfl
  · next outside =>
    have kept : ((jalv.stored pointer control value).written (setBuffer jalv property atom)).ports.length ≤
        jalv.process.controlIn.toNat := Nat.not_lt.mp outside
    exact congrArg (Option.map _) (jalvSendToPlugin_outside kept)

theorem ValueStore.Holds.float {value : ValueStore} (held : value.Holds atom) (size : atom.size = 4)
    (type : atom.type = jalv.forge.float) (distinct : jalv.forge.float ≠ jalv.forge.double) :
    word (anyValueFloat jalv.world jalv.forge value.value) = atom.body := by
  have float : value.value.type = jalv.forge.float := held.type.trans type
  rw [anyValueFloat, float, if_neg distinct, if_pos rfl, held.low size]

end

section

variable {jalv : JalvImpl} {ring : ZixRing} {pointer : Nat} {control : Control} {atom : Atom}

theorem allOrNothing_failed (found : jalv.controls[pointer]? = some control) {status : Nat} {value : ValueStore}
    (set : anyValueSet (jalv.proposal 0) control.value atom = some (status, value)) (failed : status ≠ 0) :
    AllOrNothing jalv ring pointer control atom ↔
      (ForPlugin jalv control atom → ¬Appendable jalv ring control atom → control.value.value = .zero) := by
  obtain ⟨inside, here⟩ := List.getElem?_eq_some_iff.mp found
  obtain ⟨zero, _⟩ | ⟨_, zero, kept⟩ := anyValueSet_cases set
  · exact absurd zero failed
  have ran := @jalvSetControl_failed jalv ring pointer control atom status value found set failed
  constructor
  · rintro ⟨_, _, _, ran', _, unchanged⟩ wanted full
    cases ran.symm.trans ran'
    have same := congrArg (·[pointer]?) (unchanged wanted full).2
    simp only [JalvImpl.stored, List.getElem?_set_self inside, found, Option.some.injEq] at same
    rw [← congrArg Control.value same, zero]
  · intro blank
    refine ⟨status, _, _, ran, fun succeeded => absurd succeeded failed, fun wanted full => ⟨failed, ?_⟩⟩
    have same : ({ control with value } : Control) = control := by rw [kept (blank wanted full)]
    rw [JalvImpl.stored, same, ← here]
    exact List.set_getElem_self inside

theorem allOrNothing_port (distinct : jalv.forge.float ≠ jalv.forge.double)
    (found : jalv.controls[pointer]? = some control)
    (updating : jalv.updating = false) {value : ValueStore}
    (set : anyValueSet (jalv.proposal 0) control.value atom = some (0, value))
    {index : UInt32} (id : control.id = .port index) :
    AllOrNothing jalv ring pointer control atom ↔
      (atom.type = jalv.forge.float → 16 ≤ ring.writeSpace ∧ atom.size = 4) := by
  obtain ⟨_, held⟩ | ⟨one, _⟩ := anyValueSet_cases set
  case inr => cases one
  have ran := @jalvSetControl_stored jalv ring pointer control atom value found set updating
  simp only [id] at ran
  unfold AllOrNothing ForPlugin Delivered Appendable
  simp only [id]
  constructor
  · rintro ⟨_, next, after, ran', delivered, unchanged⟩ float
    cases ran.symm.trans ran'
    refine ⟨?_, ?_⟩
    · by_contra full
      exact (unchanged float full).1 rfl
    · obtain ⟨sent, body, _⟩ := delivered rfl float
      have length := congrArg List.length body
      rw [length_word, atom.sized] at length
      exact UInt32.toNat_inj.mp length.symm
  · intro room
    refine ⟨0, _, _, ran, fun _ float => ?_, fun float full => absurd (room float).1 full⟩
    rw [if_pos float]
    refine ⟨_, held.float (room float).2 float distinct, ?_⟩
    rcases jalvWriteControl_cases ring index (anyValueFloat jalv.world jalv.forge value.value) with kept | sent
    · exact absurd (room float).1 (Nat.not_le.mpr ((jalvWriteControl_kept_iff ..).mp kept))
    · exact sent

/-- Whatever becomes of the message, the call returns what the set of the value returned. -/
theorem jalvSetControl_status (found : jalv.controls[pointer]? = some control) (updating : jalv.updating = false)
    {value : ValueStore} (set : anyValueSet (jalv.proposal 0) control.value atom = some (0, value)) {status : Nat}
    {next : JalvImpl} {after : ZixRing} (ran : jalvSetControl jalv ring pointer atom = some (status, next, after)) :
    status = 0 := by
  rw [jalvSetControl_stored found set updating] at ran
  split at ran
  · cases ran
    rfl
  · split at ran
    · obtain ⟨object, _, rest⟩ := Option.bind_eq_some_iff.mp ran
      obtain ⟨result, _, same⟩ := Option.map_eq_some_iff.mp rest
      cases same
      rfl
    · cases ran
      rfl

theorem setMessage_sent {property : URID} (fits : SetFits jalv atom)
    (room : 68 + atom.size.toNat + setPadding jalv atom ≤ ring.writeSpace) (portIndex : UInt32) :
    (setMessage jalv property atom).IsSet jalv property atom ∧
      Sends ring (jalvWriteEvent ring portIndex (setMessage jalv property atom)).2
        (.eventTransfer portIndex (setMessage jalv property atom)) := by
  obtain ⟨body, size⟩ := @setMessage_body jalv property atom fits
  refine ⟨⟨rfl, _, (setPadding_le fits).2, body⟩, ?_⟩
  rcases jalvWriteEvent_cases ring portIndex (setMessage jalv property atom) with kept | sent
  · have full := (jalvWriteEvent_kept_iff ..).mp kept
    omega
  · exact sent

theorem allOrNothing_property (found : jalv.controls[pointer]? = some control)
    (updating : jalv.updating = false) {value : ValueStore}
    (set : anyValueSet (jalv.proposal 0) control.value atom = some (0, value)) {property : URID}
    (id : control.id = .property property) : AllOrNothing jalv ring pointer control atom ↔
      (jalv.process.controlIn ≠ uint32Max →
        (SetFits jalv atom ∧ 68 + atom.size.toNat + setPadding jalv atom ≤ ring.writeSpace) ∧
          jalv.process.controlIn.toNat < jalv.ports.length ∧
          ∀ first other, getPropertyControl jalv.controls property = some first → first ≠ pointer →
            jalv.controls[first]? = some other → (anyValueSet (jalv.proposal 1) other.value atom).isSome) := by
  obtain ⟨_, held⟩ | ⟨one, _⟩ := anyValueSet_cases set
  case inr => cases one
  unfold AllOrNothing ForPlugin Delivered Appendable
  simp only [id]
  by_cases known : jalv.process.controlIn ≠ uint32Max
  · simp only [known, forall_const, ne_eq, not_false_eq_true]
    constructor
    · rintro ⟨status, next, after, ran, delivered, unchanged⟩
      have succeeded := jalvSetControl_status found updating set ran
      have appendable : SetFits jalv atom ∧ 68 + atom.size.toNat + setPadding jalv atom ≤ ring.writeSpace := by
        by_contra full
        exact (unchanged full).1 succeeded
      rw [jalvSetControl_property found set updating id known appendable.1] at ran
      split at ran
      · next inside =>
        obtain ⟨changed, again, _⟩ := Option.map_eq_some_iff.mp ran
        refine ⟨appendable, inside,
          (propertyChanged_stored appendable.1 found held (setBuffer jalv property atom)).mp ?_⟩
        rw [again]
        rfl
      · cases ran
        obtain ⟨object, _, sent⟩ := delivered rfl
        exact absurd rfl sent.ne
    · rintro ⟨⟨fits, room⟩, inside, others⟩
      obtain ⟨next, again⟩ := Option.isSome_iff_exists.mp
        ((propertyChanged_stored fits found held (setBuffer jalv property atom)).mpr others)
      have ran :=
        @jalvSetControl_property jalv ring pointer control atom property found value set updating id known fits
      rw [if_pos inside, again, Option.map_some] at ran
      exact ⟨0, next, _, ran, fun _ => ⟨_, setMessage_sent fits room _⟩, fun full => absurd ⟨fits, room⟩ full⟩
  · have ran := @jalvSetControl_stored jalv ring pointer control atom value found set updating
    simp only [id, if_neg known] at ran
    refine iff_of_true ⟨0, _, _, ran, fun _ known' => absurd known' known, fun known' => absurd known' known⟩ ?_
    exact fun known' => absurd known' known

/-- Setting a control is all or nothing exactly if there is room for the whole message. -/
theorem allOrNothing_iff (distinct : jalv.forge.float ≠ jalv.forge.double)
    (found : jalv.controls[pointer]? = some control)
    (updating : jalv.updating = false) :
    AllOrNothing jalv ring pointer control atom ↔ SetsWhole jalv ring pointer control atom := by
  unfold SetsWhole
  cases set : anyValueSet (jalv.proposal 0) control.value atom with
  | none =>
    have undefined : jalvSetControl jalv ring pointer atom = none := by
      rw [jalvSetControl, setControlValue_eq found, set]
      rfl
    refine iff_of_false ?_ ?_
    · rintro ⟨_, _, _, ran, _⟩
      cases undefined.symm.trans ran
    · rintro ⟨defined, _⟩
      cases defined
  | some result =>
    obtain ⟨status, value⟩ := result
    have succeeds := anyValueSet_status set
    rw [Option.isSome_some, and_iff_right rfl]
    by_cases succeeded : status = 0
    · have grown := succeeds.mp succeeded
      subst succeeded
      rw [and_iff_right fun fails => absurd fails grown, forall_prop_of_true grown]
      unfold ForPlugin Appendable
      cases id : control.id with
      | port index => exact allOrNothing_port distinct found updating set id
      | property property => exact allOrNothing_property found updating set id
    · have fails := not_not.mp (mt succeeds.mpr succeeded)
      rw [and_iff_left fun grown => absurd fails grown, forall_prop_of_true fails]
      exact allOrNothing_failed found set succeeded

end

def settingHost : JalvImpl := { lookupTestHost with
  proposal := fun _ => some 4096
  ports := [⟨[], .event, .input, 0⟩, ⟨[], .control, .input, 1⟩]
  controls := [⟨.port 1, .blank [], [], 3, .initial, true, false⟩,
    ⟨.property 40, .blank [], [], 6, .initial, true, false⟩]
  uiMsgSize := 4096
  process := { jalvProcessInit testUrids with controlIn := 0 } }

def settingFloat : Atom := ⟨4, 3, word 0x3F800000, rfl⟩

theorem settingString_sized : (List.replicate 4095 97 ++ [0] : List Byte).length = (4096 : UInt32).toNat := by
  rw [List.length_append, List.length_replicate]
  rfl

def settingString : Atom := ⟨4096, 6, List.replicate 4095 97 ++ [0], settingString_sized⟩

def settingRing : ZixRing := ⟨4095, List.replicate 4088 0, by rw [List.length_replicate]; decide⟩

theorem settingString_set : ∃ value, anyValueSet (some 4096) .initial settingString = some (0, value) := by
  have long : sizeofPointer < settingString.size.toNat := by decide
  obtain ⟨status, value, set, _⟩ :=
    anyValueSet_grow_owned ValueStore.owned_initial (some 4096) long (by decide) fun _ => rfl
  have grown : ¬ValueStore.initial.CannotGrow (some 4096) settingString := fun cannot => by cases cannot.2.2
  exact ⟨value, (anyValueSet_status set).mpr grown ▸ set⟩

/-- With an empty ring a float is stored and sent. -/
theorem allOrNothing_iff_test :
    AllOrNothing settingHost (.empty 4095) 0 ⟨.port 1, .blank [], [], 3, .initial, true, false⟩ settingFloat := by
  refine (allOrNothing_iff (by decide) rfl rfl).mpr ⟨rfl, fun _ _ _ => rfl, fun _ _ => ⟨?_, rfl⟩⟩
  change 16 ≤ Fifo.writeSpace (.empty 4095)
  decide

/-- With a full ring a float is stored and not sent, and so is a string that is too long for the message. -/
theorem allOrNothing_refuted :
    ¬AllOrNothing settingHost settingRing 0 ⟨.port 1, .blank [], [], 3, .initial, true, false⟩ settingFloat ∧
      ¬AllOrNothing settingHost (.empty 4095) 1 ⟨.property 40, .blank [], [], 6, .initial, true, false⟩
        settingString := by
  refine ⟨?_, ?_⟩
  · rintro ⟨status, next, after, ran, _, unchanged⟩
    have full : ¬16 ≤ settingRing.writeSpace := by
      rw [Fifo.writeSpace, settingRing, List.length_replicate]
      decide
    exact (unchanged rfl full).1 (jalvSetControl_status rfl rfl rfl ran)
  · rintro ⟨status, next, after, ran, _, unchanged⟩
    have long : ¬56 + settingString.size.toNat ≤ settingHost.msgRoom := by decide
    obtain ⟨value, set⟩ := settingString_set
    have stores : status = 0 := @jalvSetControl_status settingHost (.empty 4095) 1
      ⟨.property 40, .blank [], [], 6, .initial, true, false⟩ settingString rfl rfl value set status next after ran
    exact (unchanged (by unfold ForPlugin; decide) fun fits => long fits.1.room).1 stores

end Jalv
