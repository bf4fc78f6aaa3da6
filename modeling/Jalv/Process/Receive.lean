import Jalv.Foundation.Lists
import Jalv.Process.Apply

/-! What the process thread makes of the messages that the main thread writes.

The layout of the process state is what stays the same while messages are
applied: the kinds of the ports and which of them have buffers, and the sizes.
-/

set_option autoImplicit false

namespace Jalv

open Foundation

structure PortLayout where
  type : PortType
  flow : PortFlow
  buffered : Bool
  deriving DecidableEq

structure ProcessLayout where
  ports : List PortLayout
  controls : Nat
  controlIn : UInt32
  processMsgSize : Nat

def JalvProcessPort.layout (port : JalvProcessPort) : PortLayout := ⟨port.type, port.flow, port.evbuf.isSome⟩

def JalvProcess.layout (proc : JalvProcess) : ProcessLayout :=
  ⟨proc.ports.map JalvProcessPort.layout, proc.controlsBuf.length, proc.controlIn, proc.processMsgSize⟩

def ProcessLayout.EventInput (layout : ProcessLayout) (index : Nat) : Prop :=
  layout.ports[index]? = some ⟨.event, .input, true⟩

structure ProcessLayout.Prepared (layout : ProcessLayout) : Prop where
  values : layout.controls = layout.ports.length
  control : layout.controlIn ≠ uint32Max → layout.EventInput layout.controlIn.toNat

def ProcessLayout.Buffered (layout : ProcessLayout) : Prop :=
  ∀ port ∈ layout.ports, port.type = .event → port.buffered = true

/-- A message that the process thread can apply. -/
def UiMessage.Deliverable (layout : ProcessLayout) : UiMessage → Prop
  | .controlPortChange portIndex _ => portIndex.toNat < layout.ports.length
  | .eventTransfer portIndex atom =>
    layout.EventInput portIndex.toNat ∧ sizeofEventTransfer + atom.size.toNat ≤ layout.processMsgSize
  | .stateRequest => layout.controlIn ≠ uint32Max
  | .runStateChange _ => True

def UiMessage.Readable (processMsgSize : Nat) : UiMessage → Prop
  | .eventTransfer _ atom => sizeofEventTransfer + atom.size.toNat ≤ processMsgSize
  | _ => True

theorem UiMessage.Deliverable.readable {message : UiMessage} {layout : ProcessLayout}
    (deliverable : message.Deliverable layout) : message.Readable layout.processMsgSize := by
  cases message with
  | eventTransfer portIndex atom => exact deliverable.2
  | controlPortChange | stateRequest | runStateChange => trivial

-- The process state with a message in its receive buffer, if the message goes there.
def JalvProcess.receive (proc : JalvProcess) : UiMessage → JalvProcess
  | .eventTransfer portIndex atom =>
    let payload := (UiMessage.eventTransfer portIndex atom).payload
    { proc with processMsg := payload ++ proc.processMsg.drop payload.length }
  | _ => proc

@[simp] theorem JalvProcess.receive_layout (proc : JalvProcess) (message : UiMessage) :
    (proc.receive message).layout = proc.layout := by
  cases message <;> rfl

def deliver (nframes : UInt32) (proc : JalvProcess) (message : UiMessage) : Option JalvProcess :=
  applyUiMessage (proc.receive message) nframes message

theorem receivedEvent_payload (portIndex : UInt32) (atom : Atom) (old : List Byte) :
    receivedEvent ((UiMessage.eventTransfer portIndex atom).payload ++ old) =
      .whole (.eventTransfer portIndex atom) := by
  have body : (atom.body ++ old).take atom.size.toNat = atom.body := List.take_left' atom.sized
  simp only [receivedEvent, UiMessage.payload, List.append_assoc, splitWord_word, body]
  rw [dif_pos atom.sized]

section

variable {proc : JalvProcess} {ring : ZixRing} {rest : List Byte}

theorem readControlChange_payload {portIndex value : UInt32}
    (found : ring.content = (UiMessage.controlPortChange portIndex value).payload ++ rest) :
    ∃ next : ZixRing,
      readControlChange proc ring = some (.ok (.whole (.controlPortChange portIndex value)), proc, next) ∧
      next.capacity = ring.capacity ∧ next.content = rest := by
  have length : (UiMessage.controlPortChange portIndex value).payload.length = sizeofControlChange := by
    simp [UiMessage.payload, sizeofControlChange]
  obtain ⟨next, taken, capacity, content⟩ := Fifo.read_prefix length found
  refine ⟨next, ?_, capacity, content⟩
  rw [readControlChange]
  simp only [taken, length, if_true]
  simp only [UiMessage.payload, splitWord_word, splitWord_word_only]

theorem readRunStateChange_payload {state : JalvRunState}
    (found : ring.content = (UiMessage.runStateChange state).payload ++ rest) :
    ∃ next : ZixRing, readRunStateChange proc ring = some (.ok (.whole (.runStateChange state)), proc, next) ∧
      next.capacity = ring.capacity ∧ next.content = rest := by
  have length : (UiMessage.runStateChange state).payload.length = sizeofRunStateChange := by
    simp [UiMessage.payload, sizeofRunStateChange]
  obtain ⟨next, taken, capacity, content⟩ := Fifo.read_prefix length found
  refine ⟨next, ?_, capacity, content⟩
  rw [readRunStateChange]
  simp only [taken, length, if_true]
  simp only [UiMessage.payload, wordValue_word]
  cases state <;> rfl

theorem readEventTransfer_payload {portIndex : UInt32} {atom : Atom}
    (fits : sizeofEventTransfer + atom.size.toNat ≤ proc.processMsgSize)
    (found : ring.content = (UiMessage.eventTransfer portIndex atom).payload ++ rest)
    (bound : (UiMessage.eventTransfer portIndex atom).encode.length < 2 ^ 32) :
    ∃ next : ZixRing, readEventTransfer proc ring (UiMessage.eventTransfer portIndex atom).header =
        some (.ok (.whole (.eventTransfer portIndex atom)), proc.receive (.eventTransfer portIndex atom), next) ∧
      next.capacity = ring.capacity ∧ next.content = rest := by
  have size := UiMessage.header_size bound
  have length : (UiMessage.eventTransfer portIndex atom).payload.length =
      sizeofEventTransfer + atom.size.toNat := by
    simp [UiMessage.payload, sizeofEventTransfer, atom.sized]
    omega
  obtain ⟨next, taken, capacity, content⟩ := Fifo.read_prefix rfl found
  refine ⟨next, ?_, capacity, content⟩
  rw [readEventTransfer, if_pos (by rw [size, length]; exact fits)]
  simp only [size, taken, if_true, receivedEvent_payload]
  rfl

/-- Reading the payload of a message that fits the receive buffer gives the message
back, and takes exactly the payload from the ring. -/
theorem readUiMessage_payload {message : UiMessage} (readable : message.Readable proc.processMsgSize)
    (found : ring.content = message.payload ++ rest) (bound : message.encode.length < 2 ^ 32) :
    ∃ next : ZixRing, readUiMessage proc ring message.header =
        some (.ok (.whole message), proc.receive message, next) ∧
      next.capacity = ring.capacity ∧ next.content = rest := by
  cases message with
  | stateRequest => exact ⟨ring, rfl, rfl, found⟩
  | controlPortChange portIndex value => exact readControlChange_payload found
  | runStateChange state => exact readRunStateChange_payload found
  | eventTransfer portIndex atom => exact readEventTransfer_payload readable found bound

end

section

variable {proc : JalvProcess}

theorem ProcessLayout.EventInput.port {index : Nat} (input : proc.layout.EventInput index) :
    ∃ port evbuf, proc.ports[index]? = some port ∧ port.type = .event ∧ port.flow = .input ∧
      port.evbuf = some evbuf := by
  simp only [EventInput, JalvProcess.layout, List.getElem?_map, Option.map_eq_some_iff] at input
  obtain ⟨port, found, same⟩ := input
  simp only [JalvProcessPort.layout, PortLayout.mk.injEq] at same
  obtain ⟨evbuf, buffer⟩ := Option.isSome_iff_exists.mp same.2.2
  exact ⟨port, evbuf, found, same.1, same.2.1, buffer⟩

theorem setEvbuf_layout {index : Nat} {port : JalvProcessPort} {evbuf : LV2Evbuf}
    (found : proc.ports[index]? = some port) (buffered : port.evbuf = some evbuf) (replaced : LV2Evbuf) :
    (proc.setEvbuf index port replaced).layout = proc.layout := by
  have same : JalvProcessPort.layout { port with evbuf := some replaced } = port.layout := by
    simp [JalvProcessPort.layout, buffered]
  have ports := map_set_of_same JalvProcessPort.layout found same
  simp only [JalvProcess.layout, JalvProcess.setEvbuf, ports]

theorem appendEvent_eventInput {index : Nat} (input : proc.layout.EventInput index) (nframes : UInt32)
    (atom : Atom) : ∃ next, appendEvent proc index nframes atom = some next ∧ next.layout = proc.layout := by
  obtain ⟨port, evbuf, found, _, _, buffer⟩ := input.port
  refine ⟨proc.setEvbuf index port (lv2EvbufWrite (lv2EvbufEnd evbuf) nframes atom).2.evbuf, ?_,
    setEvbuf_layout found buffer _⟩
  simp [appendEvent, found, buffer]

theorem applyUiMessage_deliverable {message : UiMessage} (prepared : proc.layout.Prepared)
    (deliverable : message.Deliverable proc.layout) (nframes : UInt32) :
    ∃ next, applyUiMessage proc nframes message = some next ∧ next.layout = proc.layout := by
  cases message with
  | controlPortChange portIndex value =>
    have values := prepared.values
    simp only [UiMessage.Deliverable] at deliverable
    simp only [JalvProcess.layout, List.length_map] at values deliverable
    refine ⟨_, if_pos ⟨deliverable, values ▸ deliverable⟩, ?_⟩
    simp [JalvProcess.layout]
  | eventTransfer portIndex atom => exact appendEvent_eventInput deliverable.1 nframes atom
  -- The control input port is an event input port, as the branch asserts
  | stateRequest =>
    have input : proc.layout.EventInput proc.controlIn.toNat := prepared.control deliverable
    obtain ⟨port, evbuf, found, event, inward, buffer⟩ := input.port
    obtain ⟨next, appended, layout⟩ := appendEvent_eventInput input nframes proc.getMsg
    refine ⟨next, ?_, layout⟩
    have known : proc.controlIn ≠ uint32Max := deliverable
    rw [applyUiMessage, if_pos known]
    change (proc.ports[proc.controlIn.toNat]?).bind _ = _
    rw [found, Option.bind_some, if_pos ⟨event, inward⟩]
    exact appended
  | runStateChange state => cases state <;> exact ⟨_, rfl, rfl⟩

theorem deliver_deliverable {message : UiMessage} (prepared : proc.layout.Prepared)
    (deliverable : message.Deliverable proc.layout) (nframes : UInt32) :
    ∃ next, deliver nframes proc message = some next ∧ next.layout = proc.layout := by
  have same := proc.receive_layout message
  have values : (proc.receive message).layout.Prepared := same ▸ prepared
  obtain ⟨next, applied, layout⟩ := applyUiMessage_deliverable values (same ▸ deliverable) nframes
  exact ⟨next, applied, layout.trans same⟩

end

section

variable {proc next : JalvProcess} {index : Nat} {nframes : UInt32} {message : UiMessage}

theorem appendEvent_cases {atom : Atom} (appended : appendEvent proc index nframes atom = some next) :
    ∃ port evbuf, proc.ports[index]? = some port ∧ port.evbuf = some evbuf ∧
      next = proc.setEvbuf index port (lv2EvbufWrite (lv2EvbufEnd evbuf) nframes atom).2.evbuf := by
  obtain ⟨port, found, rest⟩ := Option.bind_eq_some_iff.mp appended
  obtain ⟨evbuf, buffer, same⟩ := Option.bind_eq_some_iff.mp rest
  cases same
  exact ⟨port, evbuf, found, buffer, rfl⟩

inductive MessageEffect (proc : JalvProcess) (nframes : UInt32) (next : JalvProcess) : UiMessage → Prop where
  | controlPortChange {portIndex value : UInt32} (inside : portIndex.toNat < proc.ports.length)
      (same : next = { proc with controlsBuf := proc.controlsBuf.set portIndex.toNat value }) :
      MessageEffect proc nframes next (.controlPortChange portIndex value)
  | eventTransfer {portIndex : UInt32} {atom : Atom}
      (appended : appendEvent proc portIndex.toNat nframes atom = some next) :
      MessageEffect proc nframes next (.eventTransfer portIndex atom)
  | stateRequest (known : proc.controlIn ≠ uint32Max) {port : JalvProcessPort}
      (found : proc.ports[proc.controlIn.toNat]? = some port) (kind : port.type = .event ∧ port.flow = .input)
      (appended : appendEvent proc proc.controlIn.toNat nframes proc.getMsg = some next) :
      MessageEffect proc nframes next .stateRequest
  | runStateChange {state : JalvRunState} (same : next = { proc with
      runState := state, paused := if state = .paused then proc.paused + 1 else proc.paused }) :
      MessageEffect proc nframes next (.runStateChange state)

theorem applyUiMessage_effect (applied : applyUiMessage proc nframes message = some next) :
    MessageEffect proc nframes next message := by
  cases message with
  | controlPortChange portIndex value =>
    simp only [applyUiMessage] at applied
    split at applied
    · next inside =>
      cases applied
      exact .controlPortChange inside.1 rfl
    · cases applied
  | eventTransfer portIndex atom => exact .eventTransfer applied
  | stateRequest =>
    simp only [applyUiMessage] at applied
    split at applied
    · next known =>
      obtain ⟨port, found, rest⟩ := Option.bind_eq_some_iff.mp applied
      split at rest
      · next kind => exact .stateRequest known found kind rest
      · cases rest
    · cases applied
  | runStateChange state =>
    cases state <;>
    · cases applied
      exact .runStateChange rfl

theorem MessageEffect.frame (effect : MessageEffect proc nframes next message) :
    ∃ ports controlsBuf paused runState, next = { proc with ports, controlsBuf, paused, runState } := by
  cases effect with
  | controlPortChange _ same => exact ⟨_, _, _, _, same⟩
  | runStateChange same => exact ⟨_, _, _, _, same⟩
  | eventTransfer appended =>
    obtain ⟨_, _, _, _, same⟩ := appendEvent_cases appended
    exact ⟨_, _, _, _, same⟩
  | stateRequest _ _ _ appended =>
    obtain ⟨_, _, _, _, same⟩ := appendEvent_cases appended
    exact ⟨_, _, _, _, same⟩

theorem deliver_frame (delivered : deliver nframes proc message = some next) :
    ∃ ports controlsBuf processMsg paused runState,
      next = { proc with ports, controlsBuf, processMsg, paused, runState } := by
  have received : ∃ processMsg, proc.receive message = { proc with processMsg } := by
    cases message <;> exact ⟨_, rfl⟩
  obtain ⟨processMsg, received⟩ := received
  rw [deliver, received] at delivered
  obtain ⟨_, _, _, _, same⟩ := (applyUiMessage_effect delivered).frame
  exact ⟨_, _, _, _, _, same⟩

theorem deliver_processMsgSize (delivered : deliver nframes proc message = some next) :
    next.processMsgSize = proc.processMsgSize := by
  obtain ⟨_, _, _, _, _, same⟩ := deliver_frame delivered
  rw [same]

theorem deliverAll_processMsgSize {messages : List UiMessage}
    (delivered : messages.foldlM (deliver nframes) proc = some next) :
    next.processMsgSize = proc.processMsgSize := by
  induction messages generalizing proc with
  | nil =>
    cases delivered
    rfl
  | cons message rest ih =>
    rw [List.foldlM_cons] at delivered
    obtain ⟨middle, first, others⟩ := Option.bind_eq_some_iff.mp delivered
    exact (ih others).trans (deliver_processMsgSize first)

end

instance (processMsgSize : Nat) (message : UiMessage) : Decidable (message.Readable processMsgSize) :=
  match message with
  | .eventTransfer _ atom => inferInstanceAs (Decidable (sizeofEventTransfer + atom.size.toNat ≤ processMsgSize))
  | .controlPortChange _ _ | .stateRequest | .runStateChange _ => .isTrue trivial

def accept (nframes : UInt32) (proc : JalvProcess) (message : UiMessage) : Option JalvProcess :=
  if message.Readable proc.processMsgSize then deliver nframes proc message else none

-- Accepting messages is delivering them, if they all fit into the receive buffer.
theorem acceptAll_eq_some_iff {proc next : JalvProcess} {nframes : UInt32} {messages : List UiMessage} :
    messages.foldlM (accept nframes) proc = some next ↔
      (∀ message ∈ messages, message.Readable proc.processMsgSize) ∧
        messages.foldlM (deliver nframes) proc = some next := by
  induction messages generalizing proc with
  | nil => simp
  | cons message rest ih =>
    rw [List.foldlM_cons, List.foldlM_cons, List.forall_mem_cons]
    by_cases readable : message.Readable proc.processMsgSize
    · rw [accept, if_pos readable]
      cases delivered : deliver nframes proc message with
      | none => simp
      | some middle =>
        simp only [Option.bind_eq_bind, Option.bind_some, ih, deliver_processMsgSize delivered, readable, true_and]
    · rw [accept, if_neg readable]
      simp [readable]

theorem readUiMessage_unreadable {proc : JalvProcess} {ring : ZixRing} {message : UiMessage}
    (large : ¬ message.Readable proc.processMsgSize) (bound : message.encode.length < 2 ^ 32) :
    readUiMessage proc ring message.header = none := by
  have size := UiMessage.header_size bound
  cases message with
  | controlPortChange | stateRequest | runStateChange => exact absurd trivial large
  | eventTransfer portIndex atom =>
    have beyond : ¬ (UiMessage.eventTransfer portIndex atom).header.size.toNat ≤ proc.processMsgSize := by
      have length : (UiMessage.eventTransfer portIndex atom).payload.length =
          sizeofEventTransfer + atom.size.toNat := by
        simp [UiMessage.payload, sizeofEventTransfer, atom.sized]
        omega
      rw [size, length]
      exact large
    change readEventTransfer proc ring (UiMessage.eventTransfer portIndex atom).header = none
    rw [readEventTransfer, if_neg beyond]

/-- The loop over messages delivers them one after the other, and leaves an empty ring. -/
theorem applyUiEventsFrom_stream {proc : JalvProcess} {ring : ZixRing} (nframes : UInt32) {space fuel i : Nat}
    {messages : List UiMessage} (enough : messages.length < fuel)
    (bound : ∀ message ∈ messages, message.encode.length < 2 ^ 32)
    (content : ring.content = stream UiMessage.encode messages)
    (extent : space = i + (stream UiMessage.encode messages).length) :
    applyUiEventsFrom nframes space fuel i proc ring =
      (messages.foldlM (accept nframes) proc).map fun final =>
        (.success, final, ⟨ring.capacity, [], Nat.zero_le _⟩) := by
  -- Each turn of the loop takes one message, so the messages decrease with the fuel
  induction messages generalizing fuel i proc ring with
  | nil =>
    obtain ⟨fuel, rfl⟩ : ∃ less, fuel = less + 1 := ⟨fuel - 1, by simp only [List.length_nil] at enough; omega⟩
    have stop : ¬ i < space := by simp only [stream_nil, List.length_nil] at extent; omega
    rw [applyUiEventsFrom, if_neg stop]
    have empty : ring = ⟨ring.capacity, [], Nat.zero_le _⟩ := Fifo.ext rfl content
    rw [List.foldlM_nil, ← empty]
    rfl
  | cons message rest ih =>
    obtain ⟨fuel, rfl⟩ : ∃ less, fuel = less + 1 := ⟨fuel - 1, by omega⟩
    obtain ⟨small, smaller⟩ := List.forall_mem_cons.mp bound
    have length := message.length_encode
    rw [stream_cons, List.length_append] at extent
    have more : i < space := by rw [length, sizeofHeader] at extent; omega
    have front : ring.content = message.header.encode ++ (message.payload ++ stream UiMessage.encode rest) := by
      rw [content, stream_cons, UiMessage.encode_eq, List.append_assoc]
    obtain ⟨headless, taken, sameCapacity, behind⟩ := Fifo.read_prefix message.header.length_encode front
    rw [applyUiEventsFrom, if_pos more]
    simp only [taken, JalvMessageHeader.length_encode, if_true, JalvMessageHeader.decode_encode, List.foldlM_cons]
    by_cases readable : message.Readable proc.processMsgSize
    · obtain ⟨next, read, capacity, left⟩ := readUiMessage_payload readable behind small
      have size := UiMessage.header_size small
      rw [accept, if_pos readable]
      have applies : applyReceived (proc.receive message) nframes (.whole message) = deliver nframes proc message := rfl
      simp only [read, applies]
      cases delivered : deliver nframes proc message with
      | none => rfl
      | some after =>
        simp only [Option.bind_eq_bind, Option.bind_some]
        rw [ih (by simp only [List.length_cons] at enough; omega) smaller left (by rw [size]; omega)]
        simp only [capacity, sameCapacity]
    -- The assertion on the size fails, on both sides
    · rw [accept, if_neg readable]
      simp only [readUiMessage_unreadable readable small]
      rfl

theorem encode_length_lt {ring : ZixRing} {messages : List UiMessage} (small : ring.capacity < 2 ^ 32)
    (content : ring.content = stream UiMessage.encode messages) :
    ∀ message ∈ messages, message.encode.length < 2 ^ 32 := by
  intro message member
  have part := encode_length_le_stream UiMessage.encode member
  have bounded := ring.bounded
  rw [content] at bounded
  omega

theorem applyUiEvents_eq {proc : JalvProcess} {ring : ZixRing} (nframes : UInt32) {messages : List UiMessage}
    (small : ring.capacity < 2 ^ 32) (content : ring.content = stream UiMessage.encode messages) :
    applyUiEvents proc ring nframes = (messages.foldlM (accept nframes) proc).map fun final =>
      (.success, final, ⟨ring.capacity, [], Nat.zero_le _⟩) := by
  have enough : messages.length < ring.readSpace + 1 := by
    have least := length_le_stream UiMessage.encode_ne_nil messages
    rw [Fifo.readSpace, content]
    omega
  exact applyUiEventsFrom_stream nframes enough (encode_length_lt small content) content
    (by rw [Nat.zero_add, Fifo.readSpace, content])

theorem applyUiEvents_stream {proc : JalvProcess} {ring : ZixRing} (nframes : UInt32) {messages : List UiMessage}
    (readable : ∀ message ∈ messages, message.Readable proc.processMsgSize) (small : ring.capacity < 2 ^ 32)
    (content : ring.content = stream UiMessage.encode messages) :
    applyUiEvents proc ring nframes = (messages.foldlM (deliver nframes) proc).map fun final =>
      (.success, final, ⟨ring.capacity, [], Nat.zero_le _⟩) := by
  rw [applyUiEvents_eq nframes small content]
  congr 1
  apply Option.ext
  intro next
  rw [acceptAll_eq_some_iff]
  exact and_iff_right readable

end Jalv
