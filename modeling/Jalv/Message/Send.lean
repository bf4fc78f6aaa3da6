import Jalv.Message.Message

/-! Sending messages: a write puts one whole message into a ring or leaves it as it is.

Control changes and events are written by the functions of `comm.c`, the messages of
`jalv_apply_state` by `zix_ring_write`.
-/

set_option autoImplicit false

namespace Jalv

open Foundation

def zixRingWrite (ring : ZixRing) (bytes : List Byte) : ZixStatus × ZixRing :=
  let (written, next) := ring.write bytes
  (if written = bytes.length then .success else .error, next)

def UiMessage.write (ring : ZixRing) : UiMessage → ZixStatus × ZixRing
  | .controlPortChange portIndex value => jalvWriteControl ring portIndex value
  | .eventTransfer portIndex atom => jalvWriteEvent ring portIndex atom
  | .stateRequest => zixRingWrite ring UiMessage.stateRequest.encode
  | .runStateChange state => zixRingWrite ring (UiMessage.runStateChange state).encode

def UiMessage.failure : UiMessage → ZixStatus
  | .eventTransfer _ _ => .noMem
  | .controlPortChange _ _ | .stateRequest | .runStateChange _ => .error

theorem zixRingWrite_eq {bytes : List Byte} (ring : ZixRing) (some : bytes ≠ []) :
    zixRingWrite ring bytes = match ring.writeAll [bytes] with
      | .some next => (.success, next)
      | none => (.error, ring) := by
  have whole : ring.writeAll [bytes] = (ring.beginWrite.amend bytes).bind ring.commit := by
    simp [Fifo.writeAll, Transaction.amendAll]
  rw [zixRingWrite, Fifo.write, whole]
  cases (ring.beginWrite.amend bytes).bind ring.commit with
  | none => simp [eq_comm, some]
  | some next => simp

theorem UiMessage.write_eq (message : UiMessage) (ring : ZixRing) :
    message.write ring = match ring.writeAll message.parts with
      | some next => (.success, next)
      | none => (message.failure, ring) := by
  have nonempty := message.encode_ne_nil
  cases message with
  | controlPortChange portIndex value => exact jalvWriteControl_eq ring portIndex value
  | eventTransfer portIndex atom => exact jalvWriteEvent_eq ring portIndex atom
  | stateRequest => exact zixRingWrite_eq ring nonempty
  | runStateChange state => exact zixRingWrite_eq ring nonempty

def Sends (ring next : ZixRing) (message : UiMessage) : Prop := ring.writeAll message.parts = some next

theorem Sends.content {ring next : ZixRing} {message : UiMessage} (sent : Sends ring next message) :
    next.capacity = ring.capacity ∧ next.content = ring.content ++ message.encode ∧
      ring.content.length + message.encode.length ≤ ring.capacity := by
  obtain ⟨fits, capacity, content⟩ := Fifo.writeAll_eq_some_iff.mp sent
  have bounded := ring.bounded
  refine ⟨capacity, content, ?_⟩
  simp only [Fifo.writeSpace] at fits
  change ring.content.length + message.parts.flatten.length ≤ _
  have positive : 0 < message.parts.flatten.length := by
    rw [← UiMessage.encode, UiMessage.length_encode, sizeofHeader]
    omega
  omega

theorem Sends.stream {ring next : ZixRing} {message : UiMessage} {messages : List UiMessage}
    (sent : Sends ring next message) (content : ring.content = stream UiMessage.encode messages) :
    next.content = stream UiMessage.encode (messages ++ [message]) := by
  rw [sent.content.2.1, content, stream_concat]

theorem Sends.ne {ring next : ZixRing} {message : UiMessage} (sent : Sends ring next message) : next ≠ ring := by
  rintro rfl
  obtain ⟨_, content, _⟩ := sent.content
  exact message.encode_ne_nil (List.self_eq_append_right.mp content)

theorem writeAll_parts_eq_none_iff {ring : ZixRing} {message : UiMessage} :
    ring.writeAll message.parts = none ↔ ring.writeSpace < message.encode.length := by
  rw [Fifo.writeAll_eq_none_iff]
  rfl

theorem jalvWriteControl_cases (ring : ZixRing) (portIndex value : UInt32) :
    (jalvWriteControl ring portIndex value).2 = ring ∨
      Sends ring (jalvWriteControl ring portIndex value).2 (.controlPortChange portIndex value) := by
  rw [jalvWriteControl_eq, Sends]
  cases sent : ring.writeAll (UiMessage.controlPortChange portIndex value).parts with
  | none => exact Or.inl rfl
  | some next => exact Or.inr rfl

theorem jalvWriteEvent_cases (ring : ZixRing) (portIndex : UInt32) (atom : Atom) :
    (jalvWriteEvent ring portIndex atom).2 = ring ∨
      Sends ring (jalvWriteEvent ring portIndex atom).2 (.eventTransfer portIndex atom) := by
  rw [jalvWriteEvent_eq, Sends]
  cases sent : ring.writeAll (UiMessage.eventTransfer portIndex atom).parts with
  | none => exact Or.inl rfl
  | some next => exact Or.inr rfl

theorem jalvWriteControl_kept_iff (ring : ZixRing) (portIndex value : UInt32) :
    (jalvWriteControl ring portIndex value).2 = ring ↔ ring.writeSpace < 16 := by
  have length : (UiMessage.controlPortChange portIndex value).encode.length = 16 := by
    simp [UiMessage.length_encode, UiMessage.payload, sizeofHeader]
  rw [← length, ← writeAll_parts_eq_none_iff, jalvWriteControl_eq]
  cases sent : ring.writeAll (UiMessage.controlPortChange portIndex value).parts with
  | none => simp
  | some next => simpa using Sends.ne sent

theorem jalvWriteEvent_kept_iff (ring : ZixRing) (portIndex : UInt32) (atom : Atom) :
    (jalvWriteEvent ring portIndex atom).2 = ring ↔ ring.writeSpace < 20 + atom.size.toNat := by
  have length : (UiMessage.eventTransfer portIndex atom).encode.length = 20 + atom.size.toNat := by
    simp [UiMessage.length_encode, UiMessage.payload, sizeofHeader, atom.sized]
    omega
  rw [← length, ← writeAll_parts_eq_none_iff, jalvWriteEvent_eq]
  cases sent : ring.writeAll (UiMessage.eventTransfer portIndex atom).parts with
  | none => simp
  | some next => simpa using Sends.ne sent

end Jalv
