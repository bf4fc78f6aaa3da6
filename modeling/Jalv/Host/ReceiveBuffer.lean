import Jalv.Foundation.Transition
import Jalv.Host.Activate
import Jalv.Host.Lookup
import Jalv.Process.Receive

/-! The receive buffer of the process thread, and what a user interface can send.

Nothing but the ring limits the size of an event that is sent. The receive buffer
is as large as the largest event input buffer, or 1024 bytes.
-/

set_option autoImplicit false

namespace Jalv

open Foundation

structure UiState where
  jalv : JalvImpl
  ring : ZixRing

inductive UiStep : UiState → UiState → Prop where
  | write {state : UiState} {jalv : JalvImpl} {ring : ZixRing} (portIndex bufferSize protocol : UInt32)
      (buffer : Memory Byte)
      (wrote : jalvSendToPlugin state.jalv state.ring portIndex bufferSize protocol buffer = some (jalv, ring)) :
      UiStep state ⟨jalv, ring⟩
  | set {state : UiState} {jalv : JalvImpl} {ring : ZixRing} (pointer : Nat) (atom : Atom) {status : Nat}
      (set : jalvSetControl state.jalv state.ring pointer atom = some (status, jalv, ring)) :
      UiStep state ⟨jalv, ring⟩
  | apply {state : UiState} {process : JalvProcess} {ring : ZixRing} (nframes : UInt32)
      {status : JalvProcessStatus}
      (applied : applyUiEvents state.jalv.process state.ring nframes = some (status, process, ring)) :
      UiStep state ⟨{ state.jalv with process }, ring⟩

def uiSystem (jalv : JalvImpl) (capacity : UInt32) : TransitionSystem UiState where
  initial state := state = ⟨jalv, .empty capacity.toNat⟩
  step := UiStep

def UiMessage.FitsReceive (processMsgSize : Nat) (message : UiMessage) : Prop :=
  match message with
  | .eventTransfer _ _ => message.header.size.toNat ≤ processMsgSize
  | _ => True

def UiState.EventsFit (state : UiState) : Prop :=
  ∃ messages, state.ring.content = stream UiMessage.encode messages ∧
    ∀ message ∈ messages, message.FitsReceive state.jalv.process.processMsgSize

theorem UiMessage.FitsReceive.readable {message : UiMessage} {size : Nat} (fits : message.FitsReceive size)
    (bound : message.encode.length < 2 ^ 32) : message.Readable size := by
  cases message with
  | controlPortChange | stateRequest | runStateChange => trivial
  | eventTransfer portIndex atom =>
    have header := header_size bound
    have payload : (UiMessage.eventTransfer portIndex atom).payload.length =
        sizeofEventTransfer + atom.size.toNat := by
      simp [UiMessage.payload, sizeofEventTransfer, atom.sized]
      omega
    change (UiMessage.eventTransfer portIndex atom).header.size.toNat ≤ size at fits
    change sizeofEventTransfer + atom.size.toNat ≤ size
    omega

theorem UiMessage.fitsReceive_of_capacity {message : UiMessage} {size capacity : Nat}
    (held : message.encode.length ≤ capacity) (small : capacity < 2 ^ 32) (room : capacity ≤ size + 8) :
    message.FitsReceive size := by
  have header := message.header_size (by omega)
  rw [length_encode, sizeofHeader] at held
  cases message with
  | controlPortChange | stateRequest | runStateChange => trivial
  | eventTransfer portIndex atom =>
    change (UiMessage.eventTransfer portIndex atom).header.size.toNat ≤ size
    omega

structure UiState.Fitting (start : JalvImpl) (capacity : Nat) (state : UiState) : Prop where
  capacity : state.ring.capacity = capacity
  ports : state.jalv.ports = start.ports
  size : state.jalv.process.processMsgSize = start.process.processMsgSize
  fit : ∃ messages, state.ring.content = stream UiMessage.encode messages ∧
    ∀ message ∈ messages, message.FitsReceive start.process.processMsgSize

section

variable {start : JalvImpl} {capacity : Nat} {state : UiState}

theorem UiState.Fitting.sends (fitting : state.Fitting start capacity) {ring : ZixRing} {message : UiMessage}
    (sent : Sends state.ring ring message) (fits : message.FitsReceive start.process.processMsgSize) :
    ∃ messages, ring.content = stream UiMessage.encode messages ∧
      ∀ message ∈ messages, message.FitsReceive start.process.processMsgSize := by
  obtain ⟨messages, content, all⟩ := fitting.fit
  exact ⟨messages ++ [message], sent.stream content, forall_mem_concat all fits⟩

theorem UiStep.fitting {next : UiState} (small : capacity < 2 ^ 32)
    (room : start.ports = [] ∨ capacity ≤ start.process.processMsgSize + 8)
    (fitting : state.Fitting start capacity) (step : UiStep state next) : next.Fitting start capacity := by
  -- An event is only sent to an existing port, and then it was held by the ring
  have event {ring : ZixRing} {portIndex : UInt32} {atom : Atom}
      (inside : portIndex.toNat < state.jalv.ports.length)
      (sent : Sends state.ring ring (.eventTransfer portIndex atom)) :
      (UiMessage.eventTransfer portIndex atom).FitsReceive start.process.processMsgSize := by
    rcases room with none | enough
    · rw [fitting.ports, none] at inside
      exact absurd inside (Nat.not_lt_zero _)
    · have held := sent.content.2.2
      rw [fitting.capacity] at held
      exact UiMessage.fitsReceive_of_capacity (by omega) small enough
  cases step with
  | write portIndex bufferSize protocol buffer wrote =>
    obtain ⟨setup, sends⟩ := jalvSendToPlugin_cases wrote
    have ports := setup.ports.trans fitting.ports
    have size := (congrArg JalvProcess.processMsgSize setup.process).trans fitting.size
    cases sends with
    | nothing kept => exact ⟨kept ▸ fitting.capacity, ports, size, kept ▸ fitting.fit⟩
    | control _ _ _ sent =>
      exact ⟨sent.content.1.trans fitting.capacity, ports, size, fitting.sends sent trivial⟩
    | event inside _ _ sent =>
      exact ⟨sent.content.1.trans fitting.capacity, ports, size, fitting.sends sent (event inside sent)⟩
  | set pointer atom set =>
    obtain ⟨setup, sends⟩ := jalvSetControl_cases set
    have ports := setup.ports.trans fitting.ports
    have size := (congrArg JalvProcess.processMsgSize setup.process).trans fitting.size
    rcases sends with kept | ⟨_, _, _, _, _, sent⟩ | ⟨_, inside, _, sent⟩
    · exact ⟨kept ▸ fitting.capacity, ports, size, kept ▸ fitting.fit⟩
    · exact ⟨sent.content.1.trans fitting.capacity, ports, size, fitting.sends sent trivial⟩
    · exact ⟨sent.content.1.trans fitting.capacity, ports, size, fitting.sends sent (event inside sent)⟩
  -- The process thread takes all messages, and never changes the size of its buffer
  | apply nframes applied =>
    obtain ⟨messages, content, all⟩ := fitting.fit
    have bounded : state.ring.capacity < 2 ^ 32 := by
      rw [fitting.capacity]
      exact small
    have readable (message : UiMessage) (member : message ∈ messages) :
        message.Readable state.jalv.process.processMsgSize :=
      fitting.size ▸ (all message member).readable (encode_length_lt bounded content message member)
    rw [applyUiEvents_stream nframes readable bounded content] at applied
    obtain ⟨final, delivered, same⟩ := Option.map_eq_some_iff.mp applied
    cases same
    exact ⟨fitting.capacity, fitting.ports, (deliverAll_processMsgSize delivered).trans fitting.size,
      [], rfl, by simp⟩

end

theorem UiMessage.header_of_stream {message : UiMessage} {rest : List Byte} {messages : List UiMessage}
    (content : message.encode ++ rest = stream encode messages) :
    ∃ first others, messages = first :: others ∧ first.header = message.header := by
  cases messages with
  | nil =>
    rw [stream_nil, List.append_eq_nil_iff] at content
    exact absurd content.1 message.encode_ne_nil
  | cons first others =>
    refine ⟨first, others, rfl, ?_⟩
    rw [stream_cons, encode_eq, encode_eq, List.append_assoc, List.append_assoc] at content
    have headers := (List.append_inj content (by simp)).1
    rw [← JalvMessageHeader.decode_encode message.header, headers, JalvMessageHeader.decode_encode]

theorem exists_not_object (forge : Forge) : ∃ type, lv2AtomForgeIsObjectType forge type = false := by
  by_contra all
  have every (type : URID) : type = forge.object ∨ type = forge.blank ∨ type = forge.resource := by
    by_contra other
    exact all ⟨type, by simpa [lv2AtomForgeIsObjectType] using other⟩
  -- Three types are objects at most, so one of four is none
  have zero := every 0
  have one := every 1
  have two := every 2
  have three := every 3
  grind

def atomMemory (size : UInt32) (type : URID) : Memory Byte :=
  Memory.store (fun _ => 0) 0 (word size ++ word type)

theorem atomAt_atomMemory (size : UInt32) (type : URID) :
    (atomAt (atomMemory size type) 0).size = size ∧ (atomAt (atomMemory size type) 0).type = type := by
  have whole := Memory.load_store (fun _ => (0 : Byte)) 0 (word size ++ word type)
  rw [List.length_append, length_word, length_word, Memory.load_append] at whole
  obtain ⟨first, second⟩ := List.append_inj whole (by simp)
  change (atomMemory size type).load 0 4 = word size at first
  change (atomMemory size type).load 4 4 = word type at second
  simp only [atomAt, first, second, wordValue_word, and_self]

section

variable {jalv : JalvImpl} {capacity : UInt32}

theorem send_largest (port : jalv.ports ≠ []) (wide : 20 ≤ capacity.toNat) :
    ∃ (atom : Atom) (ring : ZixRing), UiStep ⟨jalv, .empty capacity.toNat⟩ ⟨jalv, ring⟩ ∧
      ring.content = (UiMessage.eventTransfer 0 atom).encode ∧ atom.size = capacity - 20 := by
  obtain ⟨type, other⟩ := exists_not_object jalv.forge
  have bound := capacity.toNat_lt
  have largest : (capacity - 20).toNat = capacity.toNat - 20 := by
    simp only [UInt32.toNat_sub, UInt32.reduceToNat]
    omega
  let buffer := atomMemory (capacity - 20) type
  obtain ⟨size, kind⟩ := atomAt_atomMemory (capacity - 20) type
  have length : (UiMessage.eventTransfer 0 (atomAt buffer 0)).encode.length = capacity.toNat := by
    rw [UiMessage.length_encode]
    simp only [UiMessage.payload, List.length_append, length_word, (atomAt buffer 0).sized, sizeofHeader]
    rw [size, largest]
    omega
  let ring : ZixRing := ⟨capacity.toNat, (UiMessage.eventTransfer 0 (atomAt buffer 0)).encode, length.le⟩
  have written : (Fifo.empty capacity.toNat).writeAll (UiMessage.eventTransfer 0 (atomAt buffer 0)).parts = some ring :=
    Fifo.writeAll_eq_some_iff.mpr ⟨length.le, rfl, rfl⟩
  refine ⟨atomAt buffer 0, ring, .write 0 (capacity - 12) jalv.urids.atomEventTransfer buffer ?_, rfl, size⟩
  -- Each check of the call passes: the port exists, the type is no object, and the sizes agree
  have inside : ¬ (0 : UInt32).toNat ≥ jalv.ports.length := by
    have some := List.length_pos_iff.mpr port
    change ¬ 0 ≥ jalv.ports.length
    omega
  have plain : changeProperties jalv buffer = some jalv := by
    rw [changeProperties, kind, if_neg (by rw [other]; exact Bool.false_ne_true)]
  have total : (capacity - 12).toNat = capacity.toNat - 12 := by
    simp only [UInt32.toNat_sub, UInt32.reduceToNat]
    omega
  have exact' : ¬ ((capacity - 12).toNat < sizeofAtom ∨
      sizeofAtom + (atomAt buffer 0).size.toNat ≠ (capacity - 12).toNat) := by
    rw [size, largest, total, sizeofAtom]
    omega
  have sent : (jalvWriteEvent (.empty capacity.toNat) 0 (atomAt buffer 0)).2 = ring := by
    rw [jalvWriteEvent_eq, written]
  rw [jalvSendToPlugin, if_neg inside, if_neg jalv.urids.transferNonzero, if_pos rfl, plain]
  simp only [Option.bind_eq_bind, Option.bind_some]
  rw [if_neg exact', sent]
  rfl

theorem not_eventsFit_of_wide (port : jalv.ports ≠ []) (least : minMsgSize ≤ jalv.process.processMsgSize)
    (wide : jalv.process.processMsgSize + 8 < capacity.toNat) :
    ∃ state, (uiSystem jalv capacity).Reachable state ∧ ¬ state.EventsFit := by
  have large : 20 ≤ capacity.toNat := by
    rw [minMsgSize] at least
    omega
  obtain ⟨atom, ring, step, content, size⟩ := send_largest port large
  refine ⟨⟨jalv, ring⟩, ⟨_, rfl, .single step⟩, ?_⟩
  rintro ⟨messages, found, fit⟩
  rw [content, ← List.append_nil (UiMessage.encode _)] at found
  obtain ⟨first, others, rfl, header⟩ := UiMessage.header_of_stream found
  have fits := fit first List.mem_cons_self
  have header' : first.header = ⟨JalvMessageType.eventTransfer.code, 12 + atom.size⟩ := header
  have bound := capacity.toNat_lt
  -- The header holds the size in 32 bits, of which it needs fewer than the ring
  have payload : (12 + atom.size).toNat = capacity.toNat - 8 := by
    rw [size]
    simp only [UInt32.toNat_add, UInt32.toNat_sub, UInt32.reduceToNat]
    omega
  cases first with
  | controlPortChange | stateRequest | runStateChange => simp [UiMessage.header, JalvMessageType.code] at header'
  | eventTransfer portIndex other =>
    change (UiMessage.eventTransfer portIndex other).header.size.toNat ≤ jalv.process.processMsgSize at fits
    rw [header'] at fits
    change (12 + atom.size).toNat ≤ _ at fits
    omega

end

/-- In every run all events fit into the receive buffer, exactly if there are no ports, or
the ring holds at most 8 bytes more than 1024 or than some event input buffer. -/
theorem eventsFit_iff (jalv : JalvImpl) (updateFrames : UInt32) (contents : Nat → Memory Byte)
    (message : Memory Byte) (capacity : UInt32) :
    (∀ state, (uiSystem (jalv.activate updateFrames contents message) capacity).Reachable state →
        state.EventsFit) ↔
      (jalv.ports = [] ∨ capacity.toNat ≤ minMsgSize + 8 ∨ ∃ port ∈ jalv.process.ports,
        (port.type = .event ∧ port.flow = .input) ∧
          capacity.toNat ≤ port.evbufSize jalv.settings.midiBufSize + 8) := by
  let ports := jalv.process.ports
  let midiBufSize := jalv.settings.midiBufSize
  have least : minMsgSize ≤ maxMsgSize midiBufSize ports := ((maxMsgSize_le_iff _ _ _).mp (Nat.le_refl _)).1
  -- The size of the receive buffer is a maximum, so it bounds the ring if one of its parts does
  have narrow : capacity.toNat ≤ maxMsgSize midiBufSize ports + 8 ↔ capacity.toNat ≤ minMsgSize + 8 ∨
      ∃ port ∈ ports, (port.type = .event ∧ port.flow = .input) ∧ capacity.toNat ≤ port.evbufSize midiBufSize + 8 := by
    by_cases tiny : capacity.toNat ≤ minMsgSize + 8
    · exact iff_of_true (by omega) (Or.inl tiny)
    · have shifted (size : Nat) : capacity.toNat ≤ size + 8 ↔ capacity.toNat - 9 < size := by
        rw [minMsgSize] at tiny
        omega
      simp only [shifted, lt_maxMsgSize_iff]
  rw [← narrow]
  constructor
  · intro fits
    by_contra neither
    rw [not_or, Nat.not_le] at neither
    have tooLarge : ∃ state, (uiSystem (jalv.activate updateFrames contents message) capacity).Reachable state ∧
        ¬ state.EventsFit := not_eventsFit_of_wide neither.1 least neither.2
    obtain ⟨state, reachable, unfit⟩ := tooLarge
    exact unfit (fits state reachable)
  · intro room state reachable
    have preserved (before after : UiState)
        (fitting : before.Fitting (jalv.activate updateFrames contents message) capacity.toNat)
        (step : UiStep before after) : after.Fitting (jalv.activate updateFrames contents message) capacity.toNat :=
      step.fitting capacity.toNat_lt room fitting
    have begins (state : UiState)
        (initial : (uiSystem (jalv.activate updateFrames contents message) capacity).initial state) :
        state.Fitting (jalv.activate updateFrames contents message) capacity.toNat := by
      cases initial
      exact ⟨rfl, rfl, rfl, [], rfl, by simp⟩
    have fitting := TransitionSystem.invariant begins preserved reachable
    obtain ⟨messages, content, fit⟩ := fitting.fit
    exact ⟨messages, content, fitting.size ▸ fit⟩

def receiveTestHost : JalvImpl :=
  { lookupTestHost with
    ports := [⟨[], .control, .input, 0⟩]
    process := { lookupTestHost.process with processMsgSize := 1024 } }

/-- With a ring of 4096 bytes, an event of 4075 bytes does not fit into a receive buffer of 1024 bytes. -/
theorem eventsFit_refuted :
    ¬ ∀ state, (uiSystem (receiveTestHost.activate 0 (fun _ _ => 0) fun _ => 0) 4095).Reachable state →
      state.EventsFit := by
  intro fits
  have tooLarge : ∃ state, (uiSystem (receiveTestHost.activate 0 (fun _ _ => 0) fun _ => 0) 4095).Reachable state ∧
      ¬ state.EventsFit := not_eventsFit_of_wide (List.cons_ne_nil _ _) (by decide) (by decide)
  obtain ⟨state, reachable, unfit⟩ := tooLarge
  exact unfit (fits state reachable)

end Jalv
