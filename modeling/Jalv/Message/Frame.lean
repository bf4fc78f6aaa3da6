import Jalv.Message.Send

/-! Messages as they stand in a ring: a header, and as many bytes as it says. -/

set_option autoImplicit false

namespace Jalv

open Foundation

structure FramedMessage where
  type : UInt32
  payload : List Byte
  small : payload.length < 2 ^ 32

namespace FramedMessage

def header (message : FramedMessage) : JalvMessageHeader := ⟨message.type, UInt32.ofNat message.payload.length⟩

def encode (message : FramedMessage) : List Byte := message.header.encode ++ message.payload

@[simp] theorem header_size (message : FramedMessage) : message.header.size.toNat = message.payload.length := by
  rw [header, UInt32.toNat_ofNat', Nat.mod_eq_of_lt message.small]

theorem length_encode (message : FramedMessage) :
    message.encode.length = sizeofHeader + message.payload.length := by
  rw [encode, List.length_append, JalvMessageHeader.length_encode]

theorem encode_ne_nil (message : FramedMessage) : message.encode ≠ [] := by
  intro empty
  have length := message.length_encode
  rw [empty, sizeofHeader, List.length_nil] at length
  omega

theorem header_of_stream {content : List Byte} {messages : List FramedMessage}
    (found : content = stream encode messages) (some : content ≠ []) :
    ∃ first ∈ messages, first.header = .decode (content.take sizeofHeader) := by
  cases messages with
  | nil => exact absurd found some
  | cons first others =>
    refine ⟨first, List.mem_cons_self, ?_⟩
    rw [found, stream_cons, encode, List.append_assoc, List.take_left' first.header.length_encode,
      JalvMessageHeader.decode_encode]

end FramedMessage

theorem UiMessage.exists_framed {message : UiMessage} (bound : message.encode.length < 2 ^ 32) :
    ∃ framed : FramedMessage, framed.payload = message.payload ∧ framed.type = message.header.type ∧
      framed.encode = message.encode := by
  have size := message.header_size bound
  have length := message.length_encode
  refine ⟨⟨message.header.type, message.payload, by omega⟩, rfl, rfl, ?_⟩
  have same : UInt32.ofNat message.payload.length = message.header.size := by
    rw [← size, UInt32.ofNat_toNat]
  rw [UiMessage.encode_eq, FramedMessage.encode, FramedMessage.header, same]

theorem Sends.framed {ring next : ZixRing} {message : UiMessage} (sent : Sends ring next message)
    (small : ring.capacity < 2 ^ 32) :
    ∃ framed : FramedMessage, framed.payload = message.payload ∧ framed.type = message.header.type ∧
      next.capacity = ring.capacity ∧ next.content = ring.content ++ framed.encode := by
  obtain ⟨capacity, content, fits⟩ := sent.content
  obtain ⟨framed, payload, type, encode⟩ := UiMessage.exists_framed (show message.encode.length < 2 ^ 32 by omega)
  exact ⟨framed, payload, type, capacity, by rw [content, encode]⟩

end Jalv
