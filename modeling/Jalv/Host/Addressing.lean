import Jalv.Host.PortKinds
import Jalv.Host.Sending

/-! The ports that a user interface writes to.

The main thread checks the index of a port, the protocol and the size of a
write. It does not look at the kind of the port.
-/

set_option autoImplicit false

namespace Jalv

open Foundation

def JalvImpl.Receives (jalv : JalvImpl) (portIndex protocol : UInt32) : Prop :=
  protocol = 0 ∧ (jalv.ports.map JalvPort.kind)[portIndex.toNat]? = some (.control, .input) ∨
    protocol = jalv.urids.atomEventTransfer ∧
      (jalv.ports.map JalvPort.kind)[portIndex.toNat]? = some (.event, .input)

/-- A write has an index that is out of range, an unknown protocol or a wrong size, or its
message does not fit into the ring. -/
def JalvImpl.Refuses (jalv : JalvImpl) (ring : ZixRing) (portIndex bufferSize protocol : UInt32)
    (buffer : Memory Byte) : Prop :=
  jalv.ports.length ≤ portIndex.toNat ∨
    protocol = 0 ∧ (bufferSize ≠ 4 ∨ ring.writeSpace < 16) ∨
    protocol = jalv.urids.atomEventTransfer ∧
      (sizeofAtom + (atomAt buffer 0).size.toNat ≠ bufferSize.toNat ∨
        ring.writeSpace < 20 + (atomAt buffer 0).size.toNat) ∨
    protocol ≠ 0 ∧ protocol ≠ jalv.urids.atomEventTransfer

section

variable {jalv next : JalvImpl} {ring after : ZixRing} {portIndex bufferSize protocol : UInt32}
  {buffer : Memory Byte}

theorem jalvSendToPlugin_kept_iff
    (wrote : jalvSendToPlugin jalv ring portIndex bufferSize protocol buffer = some (next, after)) :
    after = ring ↔ jalv.Refuses ring portIndex bufferSize protocol buffer := by
  have known := jalv.urids.transferNonzero
  unfold jalvSendToPlugin at wrote
  split at wrote
  · next outside =>
    cases wrote
    exact iff_of_true rfl (Or.inl outside)
  · next inside =>
    split at wrote
    · next zero =>
      -- For a control change, two of the reasons to refuse remain
      have refuses : jalv.Refuses ring portIndex bufferSize protocol buffer ↔
          bufferSize ≠ 4 ∨ ring.writeSpace < 16 := by
        simp only [JalvImpl.Refuses, inside, zero, known.symm, ne_eq, not_true_eq_false, true_and, false_and, false_or,
          or_false]
      split at wrote
      · next size =>
        cases wrote
        exact iff_of_true rfl (refuses.mpr (Or.inl size))
      · next size =>
        cases wrote
        rw [refuses, jalvWriteControl_kept_iff]
        exact (or_iff_right size).symm
    · next nonzero =>
      split at wrote
      · next transfer =>
        obtain ⟨middle, _, rest⟩ := Option.bind_eq_some_iff.mp wrote
        -- For an event, a body of the wrong size and a full ring remain
        have refuses : jalv.Refuses ring portIndex bufferSize protocol buffer ↔
            sizeofAtom + (atomAt buffer 0).size.toNat ≠ bufferSize.toNat ∨
              ring.writeSpace < 20 + (atomAt buffer 0).size.toNat := by
          simp only [JalvImpl.Refuses, inside, transfer, known, ne_eq, not_true_eq_false, true_and, false_and,
            and_false, false_or, or_false]
        split at rest
        · next size =>
          cases rest
          exact iff_of_true rfl (refuses.mpr (Or.inl (by omega)))
        · next size =>
          cases rest
          rw [refuses, jalvWriteEvent_kept_iff]
          exact (or_iff_right (by omega)).symm
      · next other =>
        cases wrote
        exact iff_of_true rfl (Or.inr (Or.inr (Or.inr ⟨nonzero, other⟩)))

end

section

variable {jalv next : JalvImpl} {ring after : ZixRing}

theorem jalvSendToPlugin_forInput {portIndex bufferSize protocol : UInt32} {buffer : Memory Byte}
    (consistent : jalv.Consistent)
    (met : jalv.Receives portIndex protocol ∨ jalv.Refuses ring portIndex bufferSize protocol buffer)
    (wrote : jalvSendToPlugin jalv ring portIndex bufferSize protocol buffer = some (next, after)) :
    after = ring ∨ ∃ message : UiMessage, message.ForInput jalv.process.kinds ∧ Sends ring after message := by
  rcases met with receives | refuses
  · obtain ⟨_, sends⟩ := jalvSendToPlugin_cases wrote
    cases sends with
    | nothing kept => exact Or.inl kept
    | control _ _ _ sent => exact Or.inr ⟨.controlPortChange _ _, trivial, sent⟩
    | event _ transfer _ sent =>
      rcases receives with ⟨zero, _⟩ | ⟨_, kind⟩
      · exact absurd (transfer.symm.trans zero) jalv.urids.transferNonzero
      · exact Or.inr ⟨.eventTransfer _ _, consistent.kinds ▸ kind, sent⟩
  · exact Or.inl ((jalvSendToPlugin_kept_iff wrote).mpr refuses)

theorem jalvSetControl_forInput {pointer status : Nat} {atom : Atom} (consistent : jalv.Consistent)
    (set : jalvSetControl jalv ring pointer atom = some (status, next, after)) :
    after = ring ∨ ∃ message : UiMessage, message.ForInput jalv.process.kinds ∧ Sends ring after message := by
  rcases (jalvSetControl_cases set).2 with kept | ⟨_, _, _, _, _, sent⟩ | ⟨known, _, _, sent⟩
  · exact Or.inl kept
  · exact Or.inr ⟨.controlPortChange _ _, trivial, sent⟩
  · exact Or.inr ⟨.eventTransfer _ _, consistent.control known, sent⟩

end

end Jalv
