import Jalv.Event.Atom
import Jalv.Foundation.Framing
import Jalv.Foundation.Fifo
import Jalv.Process.Process

/-! Messages between the audio and main threads (`comm.h` and `comm.c`).

A message is a header with its type and the size of its payload, followed by
the payload.
-/

set_option autoImplicit false

namespace Jalv

open Foundation

abbrev ZixRing := Fifo Byte

inductive ZixStatus where | success | error | noMem | badArg | notSupported
  deriving DecidableEq, Repr

inductive JalvMessageType where
  | noMessage | controlPortChange | eventTransfer | latencyChange | stateRequest | runStateChange
  deriving DecidableEq, Repr

def JalvMessageType.code : JalvMessageType → UInt32
  | .noMessage => 0
  | .controlPortChange => 1
  | .eventTransfer => 2
  | .latencyChange => 3
  | .stateRequest => 4
  | .runStateChange => 5

def JalvRunState.code : JalvRunState → UInt32
  | .running => 0
  | .paused => 1

/-- A header as it is read. The type may be none of the enumeration. -/
structure JalvMessageHeader where
  type : UInt32
  size : UInt32
  deriving DecidableEq

def sizeofHeader : Nat := 8
def sizeofControlChange : Nat := 8
def sizeofEventTransfer : Nat := 12
def sizeofRunStateChange : Nat := 4

def JalvMessageHeader.encode (header : JalvMessageHeader) : List Byte := word header.type ++ word header.size

def JalvMessageHeader.decode (bytes : List Byte) : JalvMessageHeader :=
  let (type, rest) := splitWord bytes
  ⟨type, (splitWord rest).1⟩

@[simp] theorem JalvMessageHeader.length_encode (header : JalvMessageHeader) :
    header.encode.length = sizeofHeader := by
  simp [encode, sizeofHeader]

@[simp] theorem JalvMessageHeader.decode_encode (header : JalvMessageHeader) :
    decode header.encode = header := by
  simp [decode, encode]

inductive UiMessage where
  | controlPortChange (portIndex : UInt32) (value : UInt32)
  | eventTransfer (portIndex : UInt32) (atom : Atom)
  | stateRequest
  | runStateChange (state : JalvRunState)
  deriving DecidableEq

/-- The header of a message. The size of an event is computed in 32 bits. -/
def UiMessage.header : UiMessage → JalvMessageHeader
  | .controlPortChange _ _ => ⟨JalvMessageType.controlPortChange.code, 8⟩
  | .eventTransfer _ atom => ⟨JalvMessageType.eventTransfer.code, 12 + atom.size⟩
  | .stateRequest => ⟨JalvMessageType.stateRequest.code, 0⟩
  | .runStateChange _ => ⟨JalvMessageType.runStateChange.code, 4⟩

def UiMessage.parts (message : UiMessage) : List (List Byte) :=
  match message with
  | .controlPortChange portIndex value => [message.header.encode ++ word portIndex ++ word value]
  | .eventTransfer portIndex atom =>
    [message.header.encode ++ word portIndex ++ word atom.size ++ word atom.type, atom.body]
  | .stateRequest => [message.header.encode]
  | .runStateChange state => [message.header.encode ++ word state.code]

def UiMessage.encode (message : UiMessage) : List Byte := message.parts.flatten

def UiMessage.payload : UiMessage → List Byte
  | .controlPortChange portIndex value => word portIndex ++ word value
  | .eventTransfer portIndex atom => word portIndex ++ word atom.size ++ word atom.type ++ atom.body
  | .stateRequest => []
  | .runStateChange state => word state.code

theorem UiMessage.encode_eq (message : UiMessage) : message.encode = message.header.encode ++ message.payload := by
  cases message <;> simp [encode, parts, payload, header]

theorem UiMessage.length_encode (message : UiMessage) :
    message.encode.length = sizeofHeader + message.payload.length := by
  rw [encode_eq, List.length_append, JalvMessageHeader.length_encode]

theorem UiMessage.encode_ne_nil (message : UiMessage) : message.encode ≠ [] := by
  intro empty
  have length := message.length_encode
  rw [empty, sizeofHeader, List.length_nil] at length
  omega

theorem word_append_inj {first second : UInt32} {rest others : List Byte} :
    word first ++ rest = word second ++ others ↔ first = second ∧ rest = others := by
  constructor
  · intro same
    have split := congrArg splitWord same
    rwa [splitWord_word, splitWord_word, Prod.mk.injEq] at split
  · rintro ⟨rfl, rfl⟩
    rfl

/-- The type tells what follows, and the size of an event where its body ends. -/
theorem UiMessage.prefixFree : PrefixFree UiMessage.encode := by
  intro first second rest others same
  rw [encode_eq, encode_eq] at same
  cases first <;> cases second <;>
    simp only [header, payload, JalvMessageHeader.encode, JalvMessageType.code, List.append_assoc, word_append_inj,
      List.nil_append] at same
  all_goals try exact absurd same.1 (by decide)
  · obtain ⟨_, _, rfl, rfl, rfl⟩ := same
    exact ⟨rfl, rfl⟩
  · next portIndex atom _ other =>
    obtain ⟨_, _, rfl, size, type, bodies⟩ := same
    obtain ⟨body, rfl⟩ := List.append_inj bodies (by rw [atom.sized, other.sized, size])
    cases atom
    cases other
    simp only at size type body
    subst size type body
    exact ⟨rfl, rfl⟩
  · exact ⟨rfl, same.2.2⟩
  · next state other =>
    obtain ⟨_, _, code, rfl⟩ := same
    cases state <;> cases other <;> first | exact ⟨rfl, rfl⟩ | cases code

theorem UiMessage.stream_injective : Function.Injective (stream UiMessage.encode) :=
  Foundation.stream_injective prefixFree encode_ne_nil

-- The size field of a header is the length of the payload, unless it overflows.
theorem UiMessage.header_size {message : UiMessage} (bound : message.encode.length < 2 ^ 32) :
    message.header.size.toNat = message.payload.length := by
  rw [length_encode] at bound
  cases message with
  | controlPortChange => simp [header, payload]
  | stateRequest => rfl
  | runStateChange => simp [header, payload]
  | eventTransfer portIndex atom =>
    simp only [payload, sizeofHeader, List.length_append, length_word, atom.sized] at bound ⊢
    simp only [header, UInt32.toNat_add, UInt32.reduceToNat]
    omega

/-- `jalv_write_split_message`, a write of two parts in one transaction. -/
def jalvWriteSplitMessage (target : ZixRing) (header body : List Byte) : ZixStatus × ZixRing :=
  match target.writeAll [header, body] with
  | some next => (.success, next)
  | none => (.noMem, target)

def jalvWriteEvent (target : ZixRing) (portIndex : UInt32) (atom : Atom) : ZixStatus × ZixRing :=
  let header : JalvMessageHeader := ⟨JalvMessageType.eventTransfer.code, 12 + atom.size⟩
  jalvWriteSplitMessage target (header.encode ++ word portIndex ++ word atom.size ++ word atom.type) atom.body

def jalvWriteControl (target : ZixRing) (portIndex value : UInt32) : ZixStatus × ZixRing :=
  let header : JalvMessageHeader := ⟨JalvMessageType.controlPortChange.code, 8⟩
  let (written, next) := target.write (header.encode ++ word portIndex ++ word value)
  (if written = 16 then .success else .error, next)

theorem jalvWriteEvent_eq (target : ZixRing) (portIndex : UInt32) (atom : Atom) :
    jalvWriteEvent target portIndex atom =
      match target.writeAll (UiMessage.eventTransfer portIndex atom).parts with
      | some next => (.success, next)
      | none => (.noMem, target) := rfl

theorem jalvWriteControl_eq (target : ZixRing) (portIndex value : UInt32) :
    jalvWriteControl target portIndex value =
      match target.writeAll (UiMessage.controlPortChange portIndex value).parts with
      | some next => (.success, next)
      | none => (.error, target) := by
  have whole : target.writeAll (UiMessage.controlPortChange portIndex value).parts =
      (target.beginWrite.amend (UiMessage.controlPortChange portIndex value).encode).bind target.commit := by
    simp [Fifo.writeAll, Transaction.amendAll, UiMessage.parts, UiMessage.encode]
  have bytes : (UiMessage.controlPortChange portIndex value).encode.length = 16 := by
    simp [UiMessage.length_encode, UiMessage.payload, sizeofHeader]
  have same : jalvWriteControl target portIndex value =
      (if (target.write (UiMessage.controlPortChange portIndex value).encode).1 = 16 then .success else .error,
        (target.write (UiMessage.controlPortChange portIndex value).encode).2) := by
    simp [jalvWriteControl, UiMessage.encode, UiMessage.parts, UiMessage.header]
  rw [same, whole, Fifo.write]
  cases (target.beginWrite.amend (UiMessage.controlPortChange portIndex value).encode).bind target.commit with
  | none => rfl
  | some next => simp only [bytes, if_true]

end Jalv
