import Jalv.Host.Ui
import Jalv.Message.Send

/-! The messages that the main thread sends for a user interface.

A write sends one whole message or none, and changes nothing in the process state.
-/

set_option autoImplicit false

namespace Jalv

open Foundation

structure JalvImpl.SameSetup (jalv next : JalvImpl) : Prop where
  urids : next.urids = jalv.urids
  forge : next.forge = jalv.forge
  ports : next.ports = jalv.ports
  process : next.process = jalv.process
  uiMsgSize : next.uiMsgSize = jalv.uiMsgSize

theorem JalvImpl.SameSetup.refl (jalv : JalvImpl) : jalv.SameSetup jalv := ⟨rfl, rfl, rfl, rfl, rfl⟩

theorem JalvImpl.SameSetup.trans {jalv middle next : JalvImpl} (first : jalv.SameSetup middle)
    (second : middle.SameSetup next) : jalv.SameSetup next :=
  ⟨second.urids.trans first.urids, second.forge.trans first.forge, second.ports.trans first.ports,
    second.process.trans first.process, second.uiMsgSize.trans first.uiMsgSize⟩

/-- The states that setting values leads to, where the message buffer and the flag of an update may change as well. -/
inductive JalvImpl.SetsValues (jalv : JalvImpl) : JalvImpl → Prop where
  | refl : SetsValues jalv jalv
  | set {middle next : JalvImpl} {pointer status : Nat} {atom : Atom} (before : SetsValues jalv middle)
      (set : setControlValue middle pointer atom = some (status, next)) : SetsValues jalv next
  | message {middle : JalvImpl} (uiMsg : Memory Byte) (updating : Bool) (before : SetsValues jalv middle) :
      SetsValues jalv { middle with uiMsg, updating }

theorem JalvImpl.SetsValues.trans {jalv middle next : JalvImpl} (first : jalv.SetsValues middle)
    (second : middle.SetsValues next) : jalv.SetsValues next := by
  induction second with
  | refl => exact first
  | set _ stored ih => exact ih.set stored
  | message uiMsg updating _ ih => exact ih.message uiMsg updating

section

variable {jalv next : JalvImpl} {ring after : ZixRing}

theorem setControlValue_frame {pointer status : Nat} {atom : Atom}
    (set : setControlValue jalv pointer atom = some (status, next)) :
    ∃ proposal controls, next = { jalv with proposal, controls } := by
  obtain ⟨control, _, rest⟩ := Option.bind_eq_some_iff.mp set
  obtain ⟨⟨_, value⟩, _, same⟩ := Option.bind_eq_some_iff.mp rest
  cases same
  exact ⟨_, _, rfl⟩

theorem setControlValue_setup {pointer status : Nat} {atom : Atom}
    (set : setControlValue jalv pointer atom = some (status, next)) : jalv.SameSetup next := by
  obtain ⟨_, _, rfl⟩ := setControlValue_frame set
  exact ⟨rfl, rfl, rfl, rfl, rfl⟩

theorem setControlValue_id {pointer status : Nat} {atom : Atom} {control : Control}
    (set : setControlValue jalv pointer atom = some (status, next)) (found : next.controls[pointer]? = some control) :
    ∃ original, jalv.controls[pointer]? = some original ∧ original.id = control.id := by
  obtain ⟨original, here, rest⟩ := Option.bind_eq_some_iff.mp set
  obtain ⟨⟨_, value⟩, _, same⟩ := Option.bind_eq_some_iff.mp rest
  cases same
  obtain ⟨inside, _⟩ := List.getElem?_eq_some_iff.mp here
  rw [List.getElem?_set_self inside, Option.some.injEq] at found
  subst found
  exact ⟨original, here, rfl⟩

theorem JalvImpl.SetsValues.setup (sets : jalv.SetsValues next) : jalv.SameSetup next := by
  induction sets with
  | refl => exact .refl _
  | set _ stored ih => exact ih.trans (setControlValue_setup stored)
  | message uiMsg updating _ ih => exact ih.trans ⟨rfl, rfl, rfl, rfl, rfl⟩

theorem propertyChanged_sets {buffer : Memory Byte} {change : URID × Option Nat}
    (changed : propertyChanged buffer jalv change = some next) : jalv.SetsValues next := by
  unfold propertyChanged at changed
  split at changed
  · obtain ⟨value, _, sets⟩ := Option.bind_eq_some_iff.mp changed
    obtain ⟨⟨status, after⟩, set, same⟩ := Option.map_eq_some_iff.mp sets
    cases same
    exact .set .refl set
  · cases changed
    exact .refl

theorem propertiesChanged_sets {buffer : Memory Byte} {changes : List (URID × Option Nat)}
    (changed : changes.foldlM (propertyChanged buffer) jalv = some next) : jalv.SetsValues next := by
  induction changes generalizing jalv with
  | nil =>
    cases changed
    exact .refl
  | cons change rest ih =>
    rw [List.foldlM_cons] at changed
    obtain ⟨middle, first, others⟩ := Option.bind_eq_some_iff.mp changed
    exact (propertyChanged_sets first).trans (ih others)

theorem changeProperties_sets {buffer : Memory Byte} (changed : changeProperties jalv buffer = some next) :
    jalv.SetsValues next := by
  unfold changeProperties at changed
  split at changed
  · obtain ⟨changes, _, folded⟩ := Option.bind_eq_some_iff.mp changed
    exact propertiesChanged_sets folded
  · cases changed
    exact .refl

inductive UiSends (jalv : JalvImpl) (ring after : ZixRing) (portIndex bufferSize protocol : UInt32)
    (buffer : Memory Byte) : Prop where
  | nothing (kept : after = ring)
  | control (inside : portIndex.toNat < jalv.ports.length) (zero : protocol = 0) (size : bufferSize = 4)
      (sent : Sends ring after (.controlPortChange portIndex (wordValue (buffer.load 0 4))))
  | event (inside : portIndex.toNat < jalv.ports.length) (transfer : protocol = jalv.urids.atomEventTransfer)
      (size : sizeofAtom + (atomAt buffer 0).size.toNat = bufferSize.toNat)
      (sent : Sends ring after (.eventTransfer portIndex (atomAt buffer 0)))

theorem jalvSendToPlugin_writes {portIndex bufferSize protocol : UInt32} {buffer : Memory Byte}
    (wrote : jalvSendToPlugin jalv ring portIndex bufferSize protocol buffer = some (next, after)) :
    jalv.SetsValues next ∧ UiSends jalv ring after portIndex bufferSize protocol buffer := by
  unfold jalvSendToPlugin at wrote
  split at wrote
  · cases wrote
    exact ⟨.refl, .nothing rfl⟩
  · next inside =>
    have inside := Nat.lt_of_not_le inside
    split at wrote
    · next zero =>
      split at wrote
      · cases wrote
        exact ⟨.refl, .nothing rfl⟩
      · next size =>
        cases wrote
        refine ⟨.refl, ?_⟩
        rcases jalvWriteControl_cases ring portIndex (wordValue (buffer.load 0 4)) with kept | sent
        · exact .nothing kept
        · exact .control inside zero (not_not.mp size) sent
    · split at wrote
      · next transfer =>
        obtain ⟨middle, changed, rest⟩ := Option.bind_eq_some_iff.mp wrote
        have sets := changeProperties_sets changed
        split at rest
        · cases rest
          exact ⟨sets, .nothing rfl⟩
        · next size =>
          cases rest
          refine ⟨sets, ?_⟩
          rcases jalvWriteEvent_cases ring portIndex (atomAt buffer 0) with kept | sent
          · exact .nothing kept
          · exact .event inside transfer (by omega) sent
      · cases wrote
        exact ⟨.refl, .nothing rfl⟩

theorem jalvSendToPlugin_cases {portIndex bufferSize protocol : UInt32} {buffer : Memory Byte}
    (wrote : jalvSendToPlugin jalv ring portIndex bufferSize protocol buffer = some (next, after)) :
    jalv.SameSetup next ∧ UiSends jalv ring after portIndex bufferSize protocol buffer :=
  (jalvSendToPlugin_writes wrote).imp_left JalvImpl.SetsValues.setup

theorem jalvSetControl_writes {pointer status : Nat} {atom : Atom}
    (set : jalvSetControl jalv ring pointer atom = some (status, next, after)) :
    jalv.SetsValues next ∧ (after = ring ∨
      (∃ control index value, jalv.controls[pointer]? = some control ∧ control.id = .port index ∧
        Sends ring after (.controlPortChange index value)) ∨
      (jalv.process.controlIn ≠ uint32Max ∧ jalv.process.controlIn.toNat < jalv.ports.length ∧
        ∃ object, Sends ring after (.eventTransfer jalv.process.controlIn object))) := by
  obtain ⟨⟨st, middle⟩, stored, rest⟩ := Option.bind_eq_some_iff.mp set
  have setup := setControlValue_setup stored
  have sets : jalv.SetsValues middle := .set .refl stored
  simp only at rest
  split at rest
  · cases rest
    exact ⟨sets, Or.inl rfl⟩
  · obtain ⟨control, found, rest⟩ := Option.bind_eq_some_iff.mp rest
    split at rest
    · next index id =>
      split at rest
      · have sends := jalvWriteControl_cases ring index (anyValueFloat middle.world middle.forge control.value.value)
        cases rest
        refine ⟨sets, ?_⟩
        rcases sends with kept | sent
        · exact Or.inl kept
        · obtain ⟨original, here, same⟩ := setControlValue_id stored found
          exact Or.inr (Or.inl ⟨original, index, _, here, same.trans id, sent⟩)
      · cases rest
        exact ⟨sets, Or.inl rfl⟩
    · split at rest
      · next known =>
        obtain ⟨object, forged, rest⟩ := Option.bind_eq_some_iff.mp rest
        obtain ⟨⟨final, last⟩, wrote, rest⟩ := Option.bind_eq_some_iff.mp rest
        cases rest
        obtain ⟨others, sends⟩ := jalvSendToPlugin_writes wrote
        -- The message buffer changes in between
        refine ⟨(sets.message _ middle.updating).trans others, ?_⟩
        rw [← setup.process, ← setup.ports]
        cases sends with
        | nothing kept => exact Or.inl kept
        | control inside zero => exact absurd zero middle.urids.transferNonzero
        | event inside _ _ sent => exact Or.inr (Or.inr ⟨known, inside, _, sent⟩)
      · cases rest
        exact ⟨sets, Or.inl rfl⟩

theorem jalvSetControl_cases {pointer status : Nat} {atom : Atom}
    (set : jalvSetControl jalv ring pointer atom = some (status, next, after)) :
    jalv.SameSetup next ∧ (after = ring ∨
      (∃ control index value, jalv.controls[pointer]? = some control ∧ control.id = .port index ∧
        Sends ring after (.controlPortChange index value)) ∨
      (jalv.process.controlIn ≠ uint32Max ∧ jalv.process.controlIn.toNat < jalv.ports.length ∧
        ∃ object, Sends ring after (.eventTransfer jalv.process.controlIn object))) :=
  (jalvSetControl_writes set).imp_left JalvImpl.SetsValues.setup

end

end Jalv
