import Jalv.Host.AllOrNothing

/-! What a control holds after it has been set.

The message for the plugin is looked into like one from a user interface, and sets the
control a second time. A value that does not fit into the message buffer is replaced by
what the buffer had in it before.
-/

set_option autoImplicit false

namespace Jalv

open Foundation

/-- A host as it is after a plugin was opened: the known types are different, the control input is a
port, a message with a number fits into the buffer, and no two controls have the same property. -/
structure JalvImpl.Prepared (jalv : JalvImpl) : Prop where
  types : [jalv.forge.int, jalv.forge.long, jalv.forge.float, jalv.forge.double, jalv.forge.bool, jalv.forge.string,
    jalv.forge.path, jalv.forge.uri].Nodup
  inside : jalv.process.controlIn ≠ uint32Max → jalv.process.controlIn.toNat < jalv.ports.length
  room : 64 ≤ jalv.msgRoom
  single : ∀ pointer control property, jalv.controls[pointer]? = some control → control.id = .property property →
    getPropertyControl jalv.controls property = some pointer

/-- Setting the control writes a message for its property. -/
def JalvImpl.Reports (jalv : JalvImpl) (control : Control) : Prop :=
  jalv.updating = false ∧ (∃ property, control.id = .property property) ∧ jalv.process.controlIn ≠ uint32Max

section

variable {jalv : JalvImpl} {ring : ZixRing} {pointer : Nat} {control : Control} {atom : Atom}

theorem JalvImpl.Prepared.written (prepared : jalv.Prepared) (uiMsg : Memory Byte) : (jalv.written uiMsg).Prepared :=
  ⟨prepared.types, prepared.inside, prepared.room, prepared.single⟩

theorem setFits_number (room : 64 ≤ jalv.msgRoom) (short : atom.size.toNat ≤ 8) : SetFits jalv atom :=
  ⟨by omega, by omega⟩

theorem jalvSetControl_updating {value : ValueStore} (found : jalv.controls[pointer]? = some control)
    (set : anyValueSet (jalv.proposal 0) control.value atom = some (0, value)) (updating : jalv.updating = true) :
    jalvSetControl jalv ring pointer atom = some (0, jalv.stored pointer control value, ring) := by
  rw [jalvSetControl, setControlValue_eq found, set, Option.map_some, Option.bind_eq_bind, Option.bind_some]
  exact if_pos (Or.inr updating)

/-- The control keeps the value that was set, if it fits into the message that is written. -/
theorem jalvSetControl_keeps (prepared : jalv.Prepared) {value : ValueStore}
    (found : jalv.controls[pointer]? = some control)
    (set : anyValueSet (jalv.proposal 0) control.value atom = some (0, value))
    (fits : jalv.Reports control → SetFits jalv atom) (ring : ZixRing) :
    ∃ next after, jalvSetControl jalv ring pointer atom = some (0, next, after) ∧ next.forge = jalv.forge ∧
      next.controls[pointer]? = some { control with value } := by
  obtain ⟨inside, _⟩ := List.getElem?_eq_some_iff.mp found
  have here : (jalv.stored pointer control value).controls[pointer]? = some { control with value } :=
    List.getElem?_set_self inside
  obtain ⟨_, held⟩ | ⟨one, _⟩ := anyValueSet_cases set
  case inr => cases one
  have ids : (∃ index, control.id = .port index) ∨ ∃ property, control.id = .property property := by
    cases control.id <;> simp
  cases updating : jalv.updating with
  | true => exact ⟨_, _, jalvSetControl_updating found set updating, rfl, here⟩
  | false =>
    have ran := @jalvSetControl_stored jalv ring pointer control atom value found set updating
    obtain ⟨index, id⟩ | ⟨property, id⟩ := ids
    · simp only [id] at ran
      exact ⟨_, _, ran, rfl, here⟩
    · by_cases known : jalv.process.controlIn ≠ uint32Max
      · have fits := fits ⟨updating, ⟨property, id⟩, known⟩
        have ran :=
          @jalvSetControl_property jalv ring pointer control atom property found value set updating id known fits
        have first : getPropertyControl
            ((jalv.stored pointer control value).written
              (setBuffer jalv property atom)).controls property = some pointer :=
          (getPropertyControl_set found value).trans (prepared.single pointer control property found id)
        have again : ((jalv.stored pointer control value).written (setBuffer jalv property atom)).controls[pointer]? =
            some { control with value } := here
        rw [if_pos (prepared.inside known), propertyChanged_setBuffer fits] at ran
        simp only [first, setControlValue_eq again, anyValueSet_held _ held, Option.map_some] at ran
        exact ⟨_, _, ran, rfl, List.getElem?_set_self (List.getElem?_eq_some_iff.mp here).1⟩
      · simp only [id, if_neg known] at ran
        exact ⟨_, _, ran, rfl, here⟩

/-- Where the message is written and the value does not fit, the control is left with what the message
buffer had in it, or without a value. -/
theorem jalvSetControl_cut (prepared : jalv.Prepared) {value : ValueStore}
    (found : jalv.controls[pointer]? = some control)
    (set : anyValueSet (jalv.proposal 0) control.value atom = some (0, value))
    (reports : jalv.Reports control) (cut : ¬SetFits jalv atom) {status : Nat} {next : JalvImpl} {after : ZixRing}
    (ran : jalvSetControl jalv ring pointer atom = some (status, next, after)) :
    ∃ last, next.controls[pointer]? = some { control with value := last } ∧
      (last.value = .zero ∨
        last.value.size = atom.size ∧ anyValueData last = some (jalv.uiMsg.load 56 atom.size.toNat)) := by
  obtain ⟨updating, ⟨property, id⟩, known⟩ := reports
  obtain ⟨inside, _⟩ := List.getElem?_eq_some_iff.mp found
  have room := prepared.room
  rw [jalvSetControl_stored found set updating, id] at ran
  simp only [if_pos known] at ran
  obtain ⟨object, forged, ran⟩ := Option.bind_eq_some_iff.mp ran
  have object : object = cutMessage jalv property atom ∧ jalv.msgRoom < 56 + atom.size.toNat := by
    by_cases fits : 56 + atom.size.toNat ≤ jalv.msgRoom
    · -- The offset behind the padding overflows
      rw [forgeSet_eq fits, if_neg fun small => cut ⟨fits, small⟩] at forged
      cases forged
    · refine ⟨?_, Nat.lt_of_not_le fits⟩
      rcases @forgeSet_cut jalv property atom (by omega) (Nat.lt_of_not_le fits) with outside | left
      · cases outside.symm.trans forged
      · exact (Option.some.inj (left.symm.trans forged)).symm
  obtain ⟨rfl, long⟩ := object
  obtain ⟨result, wrote, same⟩ := Option.map_eq_some_iff.mp ran
  cases same
  have wrote : jalvSendToPlugin ((jalv.stored pointer control value).written (cutBuffer jalv property atom)) ring
      jalv.process.controlIn (8 + (cutMessage jalv property atom).size) jalv.urids.atomEventTransfer
      (cutBuffer jalv property atom) = some (next, after) := wrote
  have sent := @HasSetWords.jalvSendToPlugin jalv 48 property atom _ cutBuffer_words (by decide) (by decide)
    ((jalv.stored pointer control value).written (cutBuffer jalv property atom)) rfl rfl _ (prepared.inside known) ring
  rw [cutMessage_size] at wrote
  obtain ⟨changed, again, same⟩ := Option.map_eq_some_iff.mp (sent.symm.trans wrote)
  cases same
  -- The value is set again, with the size of the one that was set and other bytes
  have first : getPropertyControl ((jalv.stored pointer control value).written (cutBuffer jalv property atom)).controls
      property = some pointer :=
    (getPropertyControl_set found value).trans (prepared.single pointer control property found id)
  have here : ((jalv.stored pointer control value).written (cutBuffer jalv property atom)).controls[pointer]? =
      some { control with value } := List.getElem?_set_self inside
  rw [propertyChanged] at again
  simp only [first, Option.bind_eq_bind, Option.bind_some, setControlValue_eq here, Option.map_map] at again
  obtain ⟨⟨reply, last⟩, set, same⟩ := Option.map_eq_some_iff.mp again
  cases same
  refine ⟨last, List.getElem?_set_self (List.getElem?_eq_some_iff.mp here).1, ?_⟩
  obtain ⟨_, held⟩ | ⟨_, zero, _⟩ := anyValueSet_cases set
  · exact Or.inr ⟨held.size.trans cutBuffer_value.1, held.data.trans (congrArg some cutBuffer_value.2)⟩
  · exact Or.inl zero

/-- What a control has after a set: nothing, the value, or what was in the message buffer. -/
theorem jalvSetControl_leaves (prepared : jalv.Prepared) (found : jalv.controls[pointer]? = some control) {status : Nat}
    {next : JalvImpl} {after : ZixRing} (ran : jalvSetControl jalv ring pointer atom = some (status, next, after)) :
    ∃ last, next.controls[pointer]? = some { control with value := last } ∧
      (last.value = .zero ∨ (∃ value, anyValueSet (jalv.proposal 0) control.value atom = some (0, value)) ∧
        ((jalv.Reports control → SetFits jalv atom) ∧ last.Holds atom ∨
          last.value.size = atom.size ∧ anyValueData last = some (jalv.uiMsg.load 56 atom.size.toNat))) := by
  obtain ⟨inside, _⟩ := List.getElem?_eq_some_iff.mp found
  obtain ⟨⟨reply, middle⟩, stored, _⟩ := Option.bind_eq_some_iff.mp ran
  rw [setControlValue_eq found] at stored
  obtain ⟨⟨reply, value⟩, set, same⟩ := Option.map_eq_some_iff.mp stored
  cases same
  rcases anyValueSet_cases set with ⟨rfl, held⟩ | ⟨rfl, zero, _⟩
  · by_cases fits : jalv.Reports control → SetFits jalv atom
    · obtain ⟨_, _, ran', _, here⟩ := jalvSetControl_keeps prepared found set fits ring
      cases ran.symm.trans ran'
      exact ⟨value, here, .inr ⟨⟨value, set⟩, .inl ⟨fits, held⟩⟩⟩
    · obtain ⟨reports, cut⟩ := Classical.not_imp.mp fits
      obtain ⟨last, here, zero | left⟩ := jalvSetControl_cut prepared found set reports cut ran
      · exact ⟨last, here, .inl zero⟩
      · exact ⟨last, here, .inr ⟨⟨value, set⟩, .inr left⟩⟩
  · have ran' := @jalvSetControl_failed jalv ring pointer control atom 1 value found set (by decide)
    cases ran.symm.trans ran'
    exact ⟨value, List.getElem?_set_self inside, .inl zero⟩

/-- A control that has been set has a value of the size that was set, or none. -/
theorem jalvSetControl_size (prepared : jalv.Prepared) (found : jalv.controls[pointer]? = some control) {status : Nat}
    {next : JalvImpl} {after : ZixRing} (ran : jalvSetControl jalv ring pointer atom = some (status, next, after)) :
    next.forge = jalv.forge ∧ ∃ last, next.controls[pointer]? = some { control with value := last } ∧
      (last.value = .zero ∨ last.value.size = atom.size) := by
  refine ⟨(jalvSetControl_cases ran).1.forge, ?_⟩
  obtain ⟨last, here, zero | ⟨_, ⟨_, held⟩ | ⟨size, _⟩⟩⟩ := jalvSetControl_leaves prepared found ran
  · exact ⟨last, here, Or.inl zero⟩
  · exact ⟨last, here, Or.inr held.size⟩
  · exact ⟨last, here, Or.inr size⟩

end

end Jalv
