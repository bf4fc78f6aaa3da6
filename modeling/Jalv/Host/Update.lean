import Jalv.Host.Sending
import Jalv.Message.Frame

/-! Messages from the process thread, handled in the main thread (`jalv_update` of `jalv.c`).

The plugin is open, and the quit flag is not set. `none` is a write beyond the
message buffer, or undefined behavior of a value that is set.
-/

set_option autoImplicit false

namespace Jalv

open Foundation

inductive UpdateStatus where | success | badHeader | badMessage | unknownType
  deriving DecidableEq, Repr

/-- Handle the message in the message buffer, or fail for one of unknown type. That latencies
are recomputed is left to the backend. -/
def updateMessage (jalv : JalvImpl) (type : UInt32) : Option (Option JalvImpl) :=
  let body := jalv.uiMsg
  let portIndex := wordValue (body.load 0 4)
  if type = JalvMessageType.controlPortChange.code then
    (uiPortEvent jalv portIndex 4 0 (body.shift 4)).map some
  else if type = JalvMessageType.eventTransfer.code then
    (uiPortEvent jalv portIndex (8 + wordValue (body.load 4 4)) jalv.urids.atomEventTransfer (body.shift 4)).map some
  else if type = JalvMessageType.latencyChange.code then some (some jalv)
  else some none

def jalvUpdateFrom (space : Nat) : Nat → Nat → JalvImpl → ZixRing → Option (UpdateStatus × JalvImpl × ZixRing)
  | 0, _, _, _ => none
  | fuel + 1, i, jalv, ring =>
    if i < space then
      let (bytes, ring) := ring.read sizeofHeader
      if bytes.length = sizeofHeader then
        let header := JalvMessageHeader.decode bytes
        let (body, ring) := ring.read header.size.toNat
        if body.length = header.size.toNat then
          if body.length ≤ jalv.uiMsgSize then
            match updateMessage { jalv with uiMsg := jalv.uiMsg.store 0 body } header.type with
            | none => none
            | some none => some (.unknownType, { jalv with uiMsg := jalv.uiMsg.store 0 body }, ring)
            | some (some jalv) => jalvUpdateFrom space fuel (i + (sizeofHeader + header.size.toNat)) jalv ring
          else none
        else some (.badMessage, jalv, ring)
      else some (.badHeader, jalv, ring)
    else some (.success, jalv, ring)

def jalvUpdate (jalv : JalvImpl) (pluginToUi : ZixRing) : Option (UpdateStatus × JalvImpl × ZixRing) :=
  (jalvUpdateFrom pluginToUi.readSpace (pluginToUi.readSpace + 1) 0 { jalv with updating := true } pluginToUi).map
    fun (status, jalv, ring) => (status, { jalv with updating := false }, ring)

section

variable {jalv next : JalvImpl} {ring rest : ZixRing} {status : UpdateStatus}

theorem uiPortEvent_sets {portIndex bufferSize protocol : UInt32} {buffer : Memory Byte}
    (handled : uiPortEvent jalv portIndex bufferSize protocol buffer = some next) : jalv.SetsValues next := by
  unfold uiPortEvent at handled
  split at handled
  · split at handled
    · obtain ⟨⟨status, after⟩, set, same⟩ := Option.map_eq_some_iff.mp handled
      cases same
      exact .set .refl set
    · cases handled
      exact .refl
  · split at handled
    · exact changeProperties_sets handled
    · cases handled

theorem updateMessage_sets {type : UInt32} (handled : updateMessage jalv type = some (some next)) :
    jalv.SetsValues next := by
  unfold updateMessage at handled
  dsimp only at handled
  split at handled
  · obtain ⟨after, changed, same⟩ := Option.map_eq_some_iff.mp handled
    cases same
    exact uiPortEvent_sets changed
  · split at handled
    · obtain ⟨after, changed, same⟩ := Option.map_eq_some_iff.mp handled
      cases same
      exact uiPortEvent_sets changed
    · split at handled <;> cases handled
      exact .refl

theorem updateMessage_setup {type : UInt32} (handled : updateMessage jalv type = some (some next)) :
    jalv.SameSetup next := (updateMessage_sets handled).setup

theorem jalvUpdateFrom_sets {space fuel i : Nat}
    (updated : jalvUpdateFrom space fuel i jalv ring = some (status, next, rest)) : jalv.SetsValues next := by
  induction fuel generalizing i jalv ring with
  | zero => cases updated
  | succ fuel ih =>
    unfold jalvUpdateFrom at updated
    split at updated
    · dsimp only at updated
      split at updated
      · split at updated
        · split at updated
          · -- The body is read into the message buffer
            have read (body : List Byte) := (@JalvImpl.SetsValues.refl jalv).message
              (jalv.uiMsg.store 0 body) jalv.updating
            split at updated
            · cases updated
            · cases updated
              exact read _
            · next handled => exact ((read _).trans (updateMessage_sets handled)).trans (ih updated)
          · cases updated
        · cases updated
          exact .refl
      · cases updated
        exact .refl
    · cases updated
      exact .refl

theorem jalvUpdate_sets (updated : jalvUpdate jalv ring = some (status, next, rest)) : jalv.SetsValues next := by
  obtain ⟨⟨ended, after, last⟩, looped, same⟩ := Option.map_eq_some_iff.mp updated
  cases same
  have begun := (@JalvImpl.SetsValues.refl jalv).message jalv.uiMsg true
  exact (begun.trans (jalvUpdateFrom_sets looped)).message after.uiMsg false

theorem jalvUpdate_setup (updated : jalvUpdate jalv ring = some (status, next, rest)) : jalv.SameSetup next :=
  (jalvUpdate_sets updated).setup

theorem jalvUpdateFrom_stream {space fuel i : Nat} {messages : List FramedMessage}
    (content : ring.content = stream FramedMessage.encode messages)
    (updated : jalvUpdateFrom space fuel i jalv ring = some (status, next, rest)) :
    rest.capacity = ring.capacity ∧
      ∃ left, rest.content = stream FramedMessage.encode left ∧ left <:+ messages := by
  induction fuel generalizing i jalv ring messages with
  | zero => cases updated
  | succ fuel ih =>
    unfold jalvUpdateFrom at updated
    split at updated
    · cases messages with
      -- The ring may have held more when the update began, and then a header is missing
      | nil =>
        have empty : ring.read sizeofHeader = ([], ring) := Fifo.read_short (by rw [content]; decide)
        rw [empty] at updated
        simp only [List.length_nil, sizeofHeader] at updated
        cases updated
        exact ⟨rfl, [], content, List.suffix_rfl⟩
      | cons message others =>
        rw [stream_cons, FramedMessage.encode, List.append_assoc] at content
        obtain ⟨headless, taken, capacity, behind⟩ := Fifo.read_prefix message.header.length_encode content
        obtain ⟨after, body, same, remaining⟩ := Fifo.read_prefix rfl behind
        have suffix : others <:+ message :: others := List.suffix_cons _ _
        simp only [taken, JalvMessageHeader.length_encode, if_true, JalvMessageHeader.decode_encode, body,
          FramedMessage.header_size] at updated
        split at updated
        · split at updated
          · cases updated
          · cases updated
            exact ⟨same.trans capacity, others, remaining, suffix⟩
          · obtain ⟨kept, left, found, part⟩ := ih remaining updated
            exact ⟨kept.trans (same.trans capacity), left, found, part.trans suffix⟩
        · cases updated
    · cases updated
      exact ⟨rfl, messages, content, List.suffix_rfl⟩

theorem jalvUpdate_stream {messages : List FramedMessage}
    (content : ring.content = stream FramedMessage.encode messages)
    (updated : jalvUpdate jalv ring = some (status, next, rest)) :
    rest.capacity = ring.capacity ∧
      ∃ left, rest.content = stream FramedMessage.encode left ∧ left <:+ messages := by
  obtain ⟨⟨ended, after, last⟩, looped, same⟩ := Option.map_eq_some_iff.mp updated
  cases same
  exact jalvUpdateFrom_stream content looped

end

end Jalv
