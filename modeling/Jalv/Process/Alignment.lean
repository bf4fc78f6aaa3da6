import Jalv.Message.Frame
import Jalv.Process.Apply

/-! What `apply_ui_events` leaves in the ring.

The messages have any type, and as many bytes as their headers say. Each branch of the
loop reads what its type stands for, which is not always all of them.
-/

set_option autoImplicit false

namespace Jalv

open Foundation

def UiMessageType (type : UInt32) : Prop :=
  type = JalvMessageType.controlPortChange.code ∨ type = JalvMessageType.eventTransfer.code ∨
    type = JalvMessageType.stateRequest.code ∨ type = JalvMessageType.runStateChange.code

instance (type : UInt32) : Decidable (UiMessageType type) := inferInstanceAs (Decidable (_ ∨ _))

/-- How many bytes the branch for a message reads behind the header, whatever its size. -/
def FramedMessage.bytesRead (message : FramedMessage) : Nat :=
  if message.type = JalvMessageType.controlPortChange.code then sizeofControlChange
  else if message.type = JalvMessageType.eventTransfer.code then message.payload.length
  else if message.type = JalvMessageType.runStateChange.code then sizeofRunStateChange
  else 0

def FramedMessage.ReadWhole (message : FramedMessage) : Prop := message.bytesRead = message.payload.length

/-- What the branch leaves of the last message. A read that finds too few bytes takes none. -/
def FramedMessage.unread (message : FramedMessage) : List Byte :=
  if message.bytesRead ≤ message.payload.length then message.payload.drop message.bytesRead else message.payload

/-- The messages that the loop gets to, up to the first one of an unknown type. -/
def reachedMessages : List FramedMessage → List FramedMessage
  | [] => []
  | message :: rest => message :: if UiMessageType message.type then reachedMessages rest else []

/-- What is left in the ring if the loop reads all messages but the last one whole. -/
def leftBytes : List FramedMessage → List Byte
  | [] => []
  | message :: rest =>
    message.unread ++ if UiMessageType message.type then leftBytes rest else stream FramedMessage.encode rest

/-- Each message that the loop gets to is read whole. The last one may also be a bare header. -/
def ReadsAlong : List FramedMessage → Prop
  | [] => True
  | message :: rest => (message.ReadWhole ∨ rest = [] ∧ message.payload = []) ∧
      (UiMessageType message.type → ReadsAlong rest)

/-- Whatever the call returns, the last of the messages are left as they were written. -/
def KeepsAlignment (proc : JalvProcess) (ring : ZixRing) (nframes : UInt32) (messages : List FramedMessage) : Prop :=
  ∀ status next rest, applyUiEvents proc ring nframes = some (status, next, rest) →
    ∃ left, left <:+ messages ∧ rest.content = stream FramedMessage.encode left

section

variable {proc next : JalvProcess} {ring rest : ZixRing} {nframes : UInt32} {status : JalvProcessStatus}
  {message : FramedMessage} {messages : List FramedMessage} {result : Except JalvProcessStatus ReceivedMessage}
  {behind : List Byte}

/-- What a branch reads: its bytes, none of them with an error, or nothing of a message of unknown type. -/
inductive BranchReads (message : FramedMessage) (ring rest : ZixRing) :
    Except JalvProcessStatus ReceivedMessage → Prop where
  | taken (known : UiMessageType message.type) (enough : message.bytesRead ≤ ring.content.length)
      (received : ReceivedMessage) (left : rest.content = ring.content.drop message.bytesRead) :
      BranchReads message ring rest (.ok received)
  | short (known : UiMessageType message.type) (less : ring.content.length < message.bytesRead)
      (status : JalvProcessStatus) (kept : rest = ring) : BranchReads message ring rest (.error status)
  | unknown (unknown : ¬UiMessageType message.type) (kept : rest = ring) :
      BranchReads message ring rest (.error .badMessageType)

theorem readControlChange_reads (type : message.type = JalvMessageType.controlPortChange.code)
    (read : readControlChange proc ring = some (result, next, rest)) : BranchReads message ring rest result := by
  have bytes : message.bytesRead = sizeofControlChange := if_pos type
  by_cases enough : sizeofControlChange ≤ ring.content.length
  · have length : (ring.content.take sizeofControlChange).length = sizeofControlChange :=
      List.length_take_of_le enough
    simp only [readControlChange, Fifo.read, if_pos enough, length, if_true] at read
    cases read
    exact .taken (.inl type) (bytes ▸ enough) _ (by rw [bytes])
  · have less := Nat.lt_of_not_le enough
    simp only [readControlChange, Fifo.read_short less, List.length_nil] at read
    cases read
    exact .short (.inl type) (bytes ▸ less) _ rfl

theorem readEventTransfer_reads (type : message.type = JalvMessageType.eventTransfer.code)
    (front : ring.content = message.payload ++ behind)
    (read : readEventTransfer proc ring message.header = some (result, next, rest)) :
    BranchReads message ring rest result := by
  have bytes : message.bytesRead = message.payload.length := by
    rw [FramedMessage.bytesRead, if_neg (by rw [type]; decide), if_pos type]
  unfold readEventTransfer at read
  rw [FramedMessage.header_size] at read
  obtain ⟨after, taken, _, left⟩ := Fifo.read_prefix rfl front
  split at read
  · rw [taken] at read
    dsimp only at read
    rw [if_pos rfl] at read
    cases read
    refine .taken (.inr (.inl type)) ?_ _ ?_
    · rw [bytes, front, List.length_append]
      exact Nat.le_add_right _ _
    · rw [bytes, front, List.drop_left, left]
  · cases read

theorem readRunStateChange_reads (type : message.type = JalvMessageType.runStateChange.code)
    (read : readRunStateChange proc ring = some (result, next, rest)) : BranchReads message ring rest result := by
  have known : UiMessageType message.type := .inr (.inr (.inr type))
  have bytes : message.bytesRead = sizeofRunStateChange := by
    rw [FramedMessage.bytesRead, if_neg (by rw [type]; decide), if_neg (by rw [type]; decide), if_pos type]
  by_cases enough : sizeofRunStateChange ≤ ring.content.length
  · have length : (ring.content.take sizeofRunStateChange).length = sizeofRunStateChange :=
      List.length_take_of_le enough
    simp only [readRunStateChange, Fifo.read, if_pos enough, length, if_true] at read
    split at read
    · cases read
      exact .taken known (bytes ▸ enough) _ (by rw [bytes])
    · split at read <;> cases read
      exact .taken known (bytes ▸ enough) _ (by rw [bytes])
  · have less := Nat.lt_of_not_le enough
    simp only [readRunStateChange, Fifo.read_short less, List.length_nil] at read
    cases read
    exact .short known (bytes ▸ less) _ rfl

theorem readUiMessage_reads (front : ring.content = message.payload ++ behind)
    (read : readUiMessage proc ring message.header = some (result, next, rest)) :
    BranchReads message ring rest result := by
  unfold readUiMessage at read
  rw [show message.header.type = message.type from rfl] at read
  split at read
  · next control => exact readControlChange_reads control read
  · next noControl =>
    split at read
    · next event => exact readEventTransfer_reads event front read
    · next noEvent =>
      split at read
      · next request =>
        cases read
        have bytes : message.bytesRead = 0 := by
          rw [FramedMessage.bytesRead, if_neg noControl, if_neg noEvent, if_neg (by rw [request]; decide)]
        exact .taken (.inr (.inr (.inl request))) (bytes ▸ Nat.zero_le _) _ (by rw [bytes, List.drop_zero])
      · next noRequest =>
        split at read
        · next change => exact readRunStateChange_reads change read
        · next noChange =>
          cases read
          exact .unknown (by simp [UiMessageType, noControl, noEvent, noRequest, noChange]) rfl

theorem FramedMessage.unread_length_le (message : FramedMessage) :
    message.unread.length ≤ message.payload.length := by
  rw [unread]
  split
  · rw [List.length_drop]
    exact Nat.sub_le _ _
  · exact Nat.le_refl _

theorem bytesRead_unknown (unknown : ¬UiMessageType message.type) : message.bytesRead = 0 := by
  rw [FramedMessage.bytesRead, if_neg fun control => unknown (.inl control),
    if_neg fun event => unknown (.inr (.inl event)), if_neg fun change => unknown (.inr (.inr (.inr change)))]

theorem unread_unknown (unknown : ¬UiMessageType message.type) : message.unread = message.payload := by
  rw [FramedMessage.unread, bytesRead_unknown unknown, if_pos (Nat.zero_le _), List.drop_zero]

theorem unread_eq_nil_iff : message.unread = [] ↔ message.ReadWhole ∨ message.payload = [] := by
  rw [FramedMessage.unread, FramedMessage.ReadWhole]
  split
  · next enough =>
    rw [List.drop_eq_nil_iff]
    constructor
    · exact fun less => .inl (Nat.le_antisymm enough less)
    · rintro (whole | empty)
      · exact whole.ge
      · rw [empty]
        exact Nat.zero_le _
  · next short => exact ⟨.inr, fun whole => whole.resolve_left fun same => short same.le⟩

theorem applyUiEventsFrom_ended {space fuel i : Nat} (stop : ¬ i < space)
    (applied : applyUiEventsFrom nframes space fuel i proc ring = some (status, next, rest)) : rest = ring := by
  cases fuel with
  | zero => cases applied
  | succ fuel =>
    rw [applyUiEventsFrom, if_neg stop] at applied
    cases applied
    rfl

theorem reachedMessages_tail {holds : FramedMessage → Prop} (known : UiMessageType message.type)
    (all : ∀ other ∈ reachedMessages (message :: messages).dropLast, holds other) :
    (messages ≠ [] → holds message) ∧ ∀ other ∈ reachedMessages messages.dropLast, holds other := by
  cases messages with
  | nil => exact ⟨fun some => absurd rfl some, nofun⟩
  | cons second others =>
    rw [List.dropLast_cons_of_ne_nil (List.cons_ne_nil _ _), reachedMessages, if_pos known] at all
    obtain ⟨first, later⟩ := List.forall_mem_cons.mp all
    exact ⟨fun _ => first, later⟩

/-- A call that returns has read the messages up to the first one of unknown type, and its header. -/
theorem applyUiEventsFrom_left {space fuel i : Nat} (content : ring.content = stream FramedMessage.encode messages)
    (extent : space = i + (stream FramedMessage.encode messages).length)
    (whole : ∀ message ∈ reachedMessages messages.dropLast, UiMessageType message.type → message.ReadWhole)
    (applied : applyUiEventsFrom nframes space fuel i proc ring = some (status, next, rest)) :
    rest.content = leftBytes messages := by
  induction fuel generalizing i proc ring messages with
  | zero => cases applied
  | succ fuel ih =>
    cases messages with
    | nil =>
      have stop : ¬ i < space := by simp only [stream_nil, List.length_nil] at extent; omega
      rw [applyUiEventsFrom_ended stop applied]
      exact content
    | cons message others =>
      rw [stream_cons, FramedMessage.encode, List.append_assoc] at content
      rw [stream_cons, List.length_append, message.length_encode] at extent
      have more : i < space := by rw [sizeofHeader] at extent; omega
      obtain ⟨headless, taken, _, front⟩ := Fifo.read_prefix message.header.length_encode content
      have behind : space = i + (sizeofHeader + message.header.size.toNat) +
          (stream FramedMessage.encode others).length := by
        rw [FramedMessage.header_size]
        omega
      rw [applyUiEventsFrom, if_pos more, taken] at applied
      simp only [JalvMessageHeader.length_encode, if_true, JalvMessageHeader.decode_encode] at applied
      rw [leftBytes]
      split at applied
      · cases applied
      · next read =>
        cases readUiMessage_reads front read with
        | unknown unknown kept =>
          cases applied
          rw [unread_unknown unknown, if_neg unknown, kept]
          exact front
        -- The bytes behind a message that is not the last are enough for it
        | short known less status kept =>
          cases applied
          rw [if_pos known, kept, front]
          rw [front, List.length_append] at less
          cases others with
          | nil =>
            have few : ¬ message.bytesRead ≤ message.payload.length := by
              rw [stream_nil, List.length_nil] at less
              omega
            rw [FramedMessage.unread, if_neg few, leftBytes, stream_nil]
          | cons second others =>
            have same : message.bytesRead = message.payload.length :=
              (reachedMessages_tail known whole).1 (List.cons_ne_nil _ _) known
            omega
      · next read =>
        have reads := readUiMessage_reads front read
        split at applied
        · cases applied
        cases reads with
        | taken known enough received left =>
          rw [if_pos known]
          cases others with
          -- The last message may leave bytes, and the loop ends behind it
          | nil =>
            have stop : ¬ i + (sizeofHeader + message.header.size.toNat) < space := by
              rw [stream_nil, List.length_nil] at behind
              omega
            rw [stream_nil, List.append_nil] at front
            rw [front] at enough left
            rw [applyUiEventsFrom_ended stop applied, left, FramedMessage.unread, if_pos enough, leftBytes,
              List.append_nil]
          | cons second others =>
            obtain ⟨first, later⟩ := reachedMessages_tail known whole
            have same := first (List.cons_ne_nil _ _) known
            have length : message.bytesRead = message.payload.length := same
            rw [front, length, List.drop_left] at left
            rw [unread_eq_nil_iff.mpr (.inl same), List.nil_append]
            exact ih left behind later applied

theorem leftBytes_length_le (messages : List FramedMessage) :
    (leftBytes messages).length ≤ (stream FramedMessage.encode messages).length := by
  induction messages with
  | nil => exact Nat.le_refl 0
  | cons message rest ih =>
    have unread := message.unread_length_le
    rw [leftBytes, stream_cons, List.length_append, List.length_append, message.length_encode]
    split <;> omega

theorem leftBytes_length_lt (message : FramedMessage) (rest : List FramedMessage) :
    (leftBytes (message :: rest)).length < (stream FramedMessage.encode (message :: rest)).length := by
  have others := leftBytes_length_le rest
  have unread := message.unread_length_le
  rw [leftBytes, stream_cons, List.length_append, List.length_append, message.length_encode, sizeofHeader]
  split <;> omega

theorem stream_length_suffix {left : List FramedMessage} (suffix : left <:+ messages) :
    (stream FramedMessage.encode left).length ≤ (stream FramedMessage.encode messages).length := by
  obtain ⟨before, rfl⟩ := suffix
  rw [stream_append, List.length_append]
  exact Nat.le_add_left _ _

theorem ReadsAlong.whole (along : ReadsAlong messages) :
    ∀ message ∈ reachedMessages messages.dropLast, UiMessageType message.type → message.ReadWhole := by
  induction messages with
  | nil => nofun
  | cons first rest ih =>
    cases rest with
    | nil => nofun
    | cons second others =>
      obtain ⟨here, later⟩ := along
      rw [List.dropLast_cons_of_ne_nil (List.cons_ne_nil _ _), reachedMessages]
      refine List.forall_mem_cons.mpr ⟨fun _ => here.resolve_right fun last => List.cons_ne_nil _ _ last.1, ?_⟩
      split
      · next known => exact ih (later known)
      · nofun

theorem ReadsAlong.left (along : ReadsAlong messages) :
    ∃ left, left <:+ messages ∧ leftBytes messages = stream FramedMessage.encode left := by
  induction messages with
  | nil => exact ⟨[], List.suffix_rfl, rfl⟩
  | cons message rest ih =>
    obtain ⟨here, later⟩ := along
    rw [leftBytes, unread_eq_nil_iff.mpr (here.imp_right And.right), List.nil_append]
    by_cases known : UiMessageType message.type
    · obtain ⟨left, suffix, same⟩ := ih (later known)
      exact ⟨left, suffix.trans (List.suffix_cons _ _), by rw [if_pos known, same]⟩
    · exact ⟨rest, List.suffix_cons _ _, if_neg known⟩

/-- Bytes in front of the messages that are left are told by the length of them all. -/
theorem readsAlong_of_leftBytes {left : List FramedMessage}
    (whole : ∀ message ∈ reachedMessages messages.dropLast, UiMessageType message.type → message.ReadWhole)
    (suffix : left <:+ messages) (same : leftBytes messages = stream FramedMessage.encode left) :
    ReadsAlong messages := by
  induction messages with
  | nil => exact trivial
  | cons message rest ih =>
    -- Less is left than the first message and all behind it
    have later : left <:+ rest := by
      rcases List.suffix_cons_iff.mp suffix with rfl | later
      · have less := leftBytes_length_lt message rest
        rw [same] at less
        exact absurd less (Nat.lt_irrefl _)
      · exact later
    rw [leftBytes] at same
    by_cases known : UiMessageType message.type
    · obtain ⟨first, others⟩ := reachedMessages_tail known whole
      rw [if_pos known] at same
      cases rest with
      | nil =>
        rw [List.suffix_nil.mp later, leftBytes, List.append_nil, stream_nil] at same
        exact ⟨(unread_eq_nil_iff.mp same).imp_right fun empty => ⟨rfl, empty⟩, fun _ => trivial⟩
      | cons second rest =>
        have here := first (List.cons_ne_nil _ _) known
        rw [unread_eq_nil_iff.mpr (.inl here), List.nil_append] at same
        exact ⟨.inl here, fun _ => ih others later same⟩
    · have most := stream_length_suffix later
      rw [if_neg known, unread_unknown known] at same
      have length := congrArg List.length same
      rw [List.length_append] at length
      have bare : message.payload = [] := List.length_eq_zero_iff.mp (by omega)
      refine ⟨.inl ?_, fun unknown => absurd unknown known⟩
      rw [FramedMessage.ReadWhole, bytesRead_unknown known, bare, List.length_nil]

theorem applyUiEvents_left (content : ring.content = stream FramedMessage.encode messages)
    (whole : ∀ message ∈ reachedMessages messages.dropLast, UiMessageType message.type → message.ReadWhole)
    (applied : applyUiEvents proc ring nframes = some (status, next, rest)) : rest.content = leftBytes messages :=
  applyUiEventsFrom_left content (by rw [Nat.zero_add, Fifo.readSpace, content]) whole applied

end

def alignedTestMessages : List FramedMessage :=
  [⟨JalvMessageType.controlPortChange.code, word 0 ++ word 7, by decide⟩,
    ⟨JalvMessageType.runStateChange.code, word 0, by decide⟩,
    ⟨JalvMessageType.latencyChange.code, [], by decide⟩,
    ⟨JalvMessageType.controlPortChange.code, word 0 ++ word 0 ++ word 0, by decide⟩]

def requestTestProcess : JalvProcess :=
  { jalvProcessInit testUrids with
    ports := [{
      type := .event, flow := .input, sysPort := false, symbol := [], bufSize := 0
      evbuf := some (lv2EvbufReset (lv2EvbufNew 64 2 3 fun _ => 0) true)
      reportsLatency := false, isPrimary := true, isBpm := false, supportsMidi := false, supportsPos := false }]
    controlsBuf := [0]
    controlIn := 0 }

theorem payloadTest_lt {known : List Byte} (short : known.length ≤ 8) : (known ++ word 7).length < 2 ^ 32 := by
  rw [List.length_append, length_word]
  omega

def payloadTestMessage (type : JalvMessageType) (known : List Byte) (short : known.length ≤ 8) : FramedMessage :=
  ⟨type.code, known ++ word 7, payloadTest_lt short⟩

theorem payloadTestMessage_fits (type : JalvMessageType) (known : List Byte) (short : known.length ≤ 8) :
    (payloadTestMessage type known short).encode.length ≤ 63 := by
  rw [FramedMessage.length_encode, payloadTestMessage, List.length_append, length_word, sizeofHeader]
  omega

def payloadTestRing (type : JalvMessageType) (known : List Byte) (short : known.length ≤ 8) : ZixRing :=
  ⟨63, (payloadTestMessage type known short).encode, payloadTestMessage_fits type known short⟩

theorem not_stream_word (value : UInt32) (left : List FramedMessage) :
    word value ≠ stream FramedMessage.encode left := by
  intro same
  have length := congrArg List.length same
  cases left with
  | nil => cases same
  | cons message rest =>
    rw [stream_cons, List.length_append, message.length_encode, length_word, sizeofHeader] at length
    omega

end Jalv
