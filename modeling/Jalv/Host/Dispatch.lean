import Jalv.Foundation.Lists
import Jalv.Foundation.Transition
import Jalv.Host.Lookup
import Jalv.Host.Update

/-! Framing of the messages from the process thread to the main thread.

The process thread commits whole messages of any type while the main thread is in
`jalv_update`. Reading a header is one step of the main thread, and reading and
handling the body that follows is another one. Between calls, the main thread does
anything that keeps the size of its message buffer.
-/

set_option autoImplicit false

namespace Jalv

open Foundation

def KnownType (type : UInt32) : Prop :=
  type = JalvMessageType.controlPortChange.code ∨ type = JalvMessageType.eventTransfer.code ∨
    type = JalvMessageType.latencyChange.code

instance (type : UInt32) : Decidable (KnownType type) := inferInstanceAs (Decidable (_ ∨ _))

structure DispatchCall where
  content : List Byte
  read : List FramedMessage

/-- The main thread: at the head of the loop, or behind a header. In the last two places it
has written beyond the message buffer, or set a value with undefined behavior. -/
inductive DispatchReader where
  | idle
  | scanning (i space : Nat) (call : DispatchCall)
  | reading (i space : Nat) (header : JalvMessageHeader) (call : DispatchCall)
  | overrun
  | undefined

/-- The main thread and its ring, with the messages that were committed, that were read and
that were handled, and the calls that have returned 1. -/
structure DispatchState where
  jalv : JalvImpl
  ring : ZixRing
  reader : DispatchReader
  committed : List FramedMessage
  read : List FramedMessage
  dispatched : List FramedMessage
  returned : List (DispatchCall × UpdateStatus)

def DispatchState.start (jalv : JalvImpl) (capacity : UInt32) : DispatchState where
  jalv := jalv
  ring := .empty capacity.toNat
  reader := .idle
  committed := []
  read := []
  dispatched := []
  returned := []

def DispatchState.finish (state : DispatchState) (call : DispatchCall) (status : UpdateStatus) : DispatchState :=
  { state with
    jalv := { state.jalv with updating := false }
    reader := .idle
    returned := state.returned ++ [(call, status)] }

def DispatchState.scan (state : DispatchState) (i space : Nat) (call : DispatchCall) : DispatchState :=
  if i < space then
    let (bytes, ring) := state.ring.read sizeofHeader
    if bytes.length = sizeofHeader then { state with ring, reader := .reading i space (.decode bytes) call }
    else { state with ring }.finish call .badHeader
  else state.finish call .success

def DispatchState.dispatch (state : DispatchState) (i space : Nat) (message : FramedMessage)
    (call : DispatchCall) : DispatchState :=
  let call := { call with read := call.read ++ [message] }
  let read := state.read ++ [message]
  match updateMessage state.jalv message.type with
  | none => { state with read, dispatched := state.dispatched ++ [message], reader := .undefined }
  | some none => { state with read }.finish call .unknownType
  | some (some jalv) =>
    { state with
      jalv, read
      dispatched := state.dispatched ++ [message]
      reader := .scanning (i + (sizeofHeader + message.payload.length)) space call }

def DispatchState.handle (state : DispatchState) (i space : Nat) (header : JalvMessageHeader)
    (call : DispatchCall) : DispatchState :=
  let (body, ring) := state.ring.read header.size.toNat
  if whole : body.length = header.size.toNat then
    if body.length ≤ state.jalv.uiMsgSize then
      let jalv := { state.jalv with uiMsg := state.jalv.uiMsg.store 0 body }
      { state with jalv, ring }.dispatch i space ⟨header.type, body, whole ▸ header.size.toNat_lt⟩ call
    else { state with reader := .overrun }
  else { state with ring }.finish call .badMessage

def DispatchState.readerStep (state : DispatchState) : DispatchState :=
  match state.reader with
  | .idle | .overrun | .undefined => state
  | .scanning i space call => state.scan i space call
  | .reading i space header call => state.handle i space header call

/-- Messages of known type fit into the message buffer, and if the process thread is careful,
so do the others. -/
inductive DispatchStep (careful : Prop) : DispatchState → DispatchState → Prop where
  | commit {state : DispatchState} {ring : ZixRing} (message : FramedMessage)
      (fits : careful ∨ KnownType message.type → message.payload.length ≤ state.jalv.uiMsgSize)
      (written : state.ring.writeAll [message.header.encode, message.payload] = some ring) :
      DispatchStep careful state { state with ring, committed := state.committed ++ [message] }
  | call {state : DispatchState} (idle : state.reader = .idle) :
      DispatchStep careful state
        { state with
          jalv := { state.jalv with updating := true }
          reader := .scanning 0 state.ring.readSpace ⟨state.ring.content, []⟩ }
  | read {state : DispatchState} : DispatchStep careful state state.readerStep
  | rest {state : DispatchState} (jalv : JalvImpl) (idle : state.reader = .idle)
      (size : jalv.uiMsgSize = state.jalv.uiMsgSize) (updating : jalv.updating = state.jalv.updating) :
      DispatchStep careful state { state with jalv }

def dispatchSystem (careful : Prop) : TransitionSystem DispatchState where
  initial state := ∃ jalv capacity, state = .start jalv capacity ∧ jalv.updating = false
  step := DispatchStep careful

/-- The call has read messages of known type, and has yet to read the given ones. -/
def DispatchCall.Remaining (call : DispatchCall) (todo : List FramedMessage) : Prop :=
  call.content = stream FramedMessage.encode (call.read ++ todo) ∧ ∀ message ∈ call.read, KnownType message.type

/-- A call that succeeded has read all that was there when it began, all of known type. A call
that failed has read messages of known type and then one of unknown type. -/
def DispatchCall.Complete (call : DispatchCall) : UpdateStatus → Prop
  | .success => call.Remaining []
  | .unknownType => ∃ done message todo, call.read = done ++ [message] ∧ ¬ KnownType message.type ∧
      DispatchCall.Remaining ⟨call.content, done⟩ (message :: todo)
  | .badHeader | .badMessage => False

/-- The messages that are still in the ring, as the main thread sees them. -/
def DispatchReader.Queue (content : List Byte) (pending : List FramedMessage) : DispatchReader → Prop
  | .idle | .undefined => content = stream FramedMessage.encode pending
  | .scanning i space call => content = stream FramedMessage.encode pending ∧
      ∃ todo later, pending = todo ++ later ∧ space = i + (stream FramedMessage.encode todo).length ∧
        call.Remaining todo
  | .reading i space header call => ∃ message todo later, pending = message :: (todo ++ later) ∧
      content = message.payload ++ stream FramedMessage.encode (todo ++ later) ∧ header = message.header ∧
      space = i + (stream FramedMessage.encode (message :: todo)).length ∧ call.Remaining (message :: todo)
  | .overrun => False

structure DispatchState.Framed (state : DispatchState) : Prop where
  fits : ∀ message ∈ state.committed, message.payload.length ≤ state.jalv.uiMsgSize
  queue : ∃ pending, state.committed = state.read ++ pending ∧ state.reader.Queue state.ring.content pending
  dispatched : state.dispatched = state.read.filter fun message => KnownType message.type
  updating : state.reader = .idle → state.jalv.updating = false
  returned : ∀ result ∈ state.returned, result.1.Complete result.2

theorem DispatchState.framed_start {jalv : JalvImpl} (capacity : UInt32) (updating : jalv.updating = false) :
    (DispatchState.start jalv capacity).Framed where
  fits := by simp [start]
  queue := ⟨[], rfl, rfl⟩
  dispatched := rfl
  updating := fun _ => updating
  returned := by simp [start]

theorem updateMessage_unknown {jalv : JalvImpl} {type : UInt32} (unknown : ¬ KnownType type) :
    updateMessage jalv type = some none := by
  simp only [KnownType, not_or] at unknown
  rw [updateMessage, if_neg unknown.1, if_neg unknown.2.1, if_neg unknown.2.2]

theorem updateMessage_known {jalv : JalvImpl} {type : UInt32} (known : KnownType type) :
    updateMessage jalv type = none ∨ ∃ next, updateMessage jalv type = some (some next) ∧ jalv.SameSetup next := by
  cases handled : updateMessage jalv type with
  | none => exact Or.inl rfl
  | some result =>
    cases result with
    | some next => exact Or.inr ⟨next, rfl, updateMessage_setup handled⟩
    | none =>
      unfold updateMessage at handled
      rcases known with type | type | type <;> simp [type, JalvMessageType.code] at handled

section

variable {state : DispatchState}

theorem DispatchState.Framed.scan {i space : Nat} {call : DispatchCall} (framed : state.Framed)
    (reader : state.reader = .scanning i space call) : (state.scan i space call).Framed := by
  obtain ⟨pending, committed, queue⟩ := framed.queue
  rw [reader] at queue
  obtain ⟨content, todo, later, parts, extent, remaining⟩ := queue
  cases todo with
  | nil =>
    have stop : ¬ i < space := by simp only [stream_nil, List.length_nil] at extent; omega
    rw [DispatchState.scan, if_neg stop]
    exact {
      fits := framed.fits
      queue := ⟨pending, committed, content⟩
      dispatched := framed.dispatched
      updating := fun _ => rfl
      returned := forall_mem_concat framed.returned remaining }
  | cons message todo =>
    have more : i < space := by
      rw [extent, stream_cons, List.length_append, message.length_encode, sizeofHeader]
      omega
    have front : state.ring.content =
        message.header.encode ++ (message.payload ++ stream FramedMessage.encode (todo ++ later)) := by
      rw [content, parts, List.cons_append, stream_cons, FramedMessage.encode, List.append_assoc]
    obtain ⟨next, taken, _, rest⟩ := Fifo.read_prefix message.header.length_encode front
    have step : state.scan i space call =
        { state with ring := next, reader := .reading i space message.header call } := by
      simp only [DispatchState.scan, if_pos more, taken, JalvMessageHeader.length_encode, if_true,
        JalvMessageHeader.decode_encode]
    rw [step]
    exact {
      fits := framed.fits
      queue := ⟨pending, committed, message, todo, later, parts, rest, rfl, extent, remaining⟩
      dispatched := framed.dispatched
      updating := by rintro ⟨⟩
      returned := framed.returned }

theorem DispatchState.handle_eq {i space : Nat} {call : DispatchCall} {message : FramedMessage} {rest : List Byte}
    (content : state.ring.content = message.payload ++ rest)
    (fits : message.payload.length ≤ state.jalv.uiMsgSize) :
    ∃ ring : ZixRing, ring.content = rest ∧ state.handle i space message.header call =
      ({ state with
        jalv := { state.jalv with uiMsg := state.jalv.uiMsg.store 0 message.payload }
        ring } : DispatchState).dispatch i space message call := by
  obtain ⟨ring, taken, _, left⟩ := Fifo.read_prefix message.header_size.symm content
  refine ⟨ring, left, ?_⟩
  unfold DispatchState.handle
  rw [taken]
  dsimp only
  rw [dif_pos message.header_size.symm, if_pos fits]
  rfl

/-- Handling a message of known type ends the step at the head of the loop, or is undefined. -/
theorem DispatchState.dispatch_known {i space : Nat} {call : DispatchCall} {message : FramedMessage}
    (known : KnownType message.type) :
    ∃ jalv reader, jalv.uiMsgSize = state.jalv.uiMsgSize ∧
      (reader = .undefined ∨ reader = .scanning (i + message.encode.length) space
        ⟨call.content, call.read ++ [message]⟩) ∧
      state.dispatch i space message call =
        { state with
          jalv, reader, read := state.read ++ [message], dispatched := state.dispatched ++ [message] } := by
  rcases @updateMessage_known state.jalv message.type known with undefined | ⟨next, handled, setup⟩
  · refine ⟨state.jalv, .undefined, rfl, Or.inl rfl, ?_⟩
    rw [DispatchState.dispatch, undefined]
  · refine ⟨next, _, setup.uiMsgSize, Or.inr rfl, ?_⟩
    rw [DispatchState.dispatch, handled, message.length_encode]

theorem DispatchState.dispatch_unknown {i space : Nat} {call : DispatchCall} {message : FramedMessage}
    (unknown : ¬ KnownType message.type) :
    state.dispatch i space message call =
      ({ state with read := state.read ++ [message] } : DispatchState).finish
        ⟨call.content, call.read ++ [message]⟩ .unknownType := by
  rw [DispatchState.dispatch, updateMessage_unknown unknown]

theorem DispatchState.Framed.handle {i space : Nat} {header : JalvMessageHeader} {call : DispatchCall}
    (framed : state.Framed) (reader : state.reader = .reading i space header call) :
    (state.handle i space header call).Framed := by
  obtain ⟨pending, committed, queue⟩ := framed.queue
  rw [reader] at queue
  obtain ⟨message, todo, later, parts, content, rfl, extent, calls, allKnown⟩ := queue
  have fits := framed.fits message (by rw [committed, parts]; simp)
  obtain ⟨ring, left, step⟩ := DispatchState.handle_eq content fits
  have sent : state.committed = (state.read ++ [message]) ++ (todo ++ later) := by
    rw [committed, parts, List.append_assoc, List.singleton_append]
  rw [step]
  by_cases known : KnownType message.type
  · obtain ⟨jalv, reader, size, behind, dispatched⟩ := DispatchState.dispatch_known known
    rw [dispatched]
    exact {
      fits := fun other member => size ▸ framed.fits other member
      queue := by
        refine ⟨todo ++ later, sent, ?_⟩
        rcases behind with rfl | rfl
        · exact left
        · refine ⟨left, todo, later, rfl, ?_, ?_, forall_mem_concat allKnown known⟩
          · rw [extent, stream_cons, List.length_append, Nat.add_assoc]
          · rw [calls, List.append_assoc, List.singleton_append]
      dispatched := by
        rw [List.filter_append, ← framed.dispatched, List.filter_singleton, decide_eq_true known]
        rfl
      updating := by
        intro idle
        rcases behind with rfl | rfl <;> cases idle
      returned := framed.returned }
  · rw [DispatchState.dispatch_unknown known]
    exact {
      fits := framed.fits
      queue := ⟨todo ++ later, sent, left⟩
      dispatched := by
        rw [DispatchState.finish, List.filter_append, ← framed.dispatched, List.filter_singleton,
          decide_eq_false known]
        exact (List.append_nil _).symm
      updating := fun _ => rfl
      returned := forall_mem_concat framed.returned ⟨call.read, message, todo, rfl, known, calls, allKnown⟩ }

theorem DispatchReader.Queue.append {reader : DispatchReader} {content : List Byte} {pending : List FramedMessage}
    (queue : reader.Queue content pending) (message : FramedMessage) :
    reader.Queue (content ++ message.encode) (pending ++ [message]) := by
  cases reader with
  | idle | undefined =>
    have found : content = stream FramedMessage.encode pending := queue
    change _ = stream FramedMessage.encode _
    rw [stream_concat, found]
  | scanning i space call =>
    obtain ⟨found, todo, later, parts, rest⟩ := queue
    refine ⟨by rw [stream_concat, found], todo, later ++ [message], ?_, rest⟩
    rw [parts, List.append_assoc]
  | reading i space header call =>
    obtain ⟨front, todo, later, parts, found, rest⟩ := queue
    refine ⟨front, todo, later ++ [message], ?_, ?_, rest⟩
    · rw [parts, List.cons_append, List.append_assoc]
    · rw [found, ← List.append_assoc todo, stream_concat, List.append_assoc]
  | overrun => exact queue

/-- Every step of either thread keeps the framing invariant. -/
theorem DispatchStep.framed {next : DispatchState} (step : DispatchStep True state next) (framed : state.Framed) :
    next.Framed := by
  cases step with
  | commit message fits written =>
    obtain ⟨_, _, content⟩ := Fifo.writeAll_eq_some_iff.mp written
    obtain ⟨pending, committed, queue⟩ := framed.queue
    exact { framed with
      fits := forall_mem_concat framed.fits (fits (Or.inl trivial))
      queue := by
        refine ⟨pending ++ [message], ?_, ?_⟩
        · rw [committed, List.append_assoc]
        · have whole : [message.header.encode, message.payload].flatten = message.encode := by
            simp [FramedMessage.encode]
          rw [content, whole]
          exact queue.append message }
  | call idle =>
    obtain ⟨pending, committed, queue⟩ := framed.queue
    rw [idle] at queue
    have content : state.ring.content = stream FramedMessage.encode pending := queue
    exact {
      fits := framed.fits
      queue := by
        refine ⟨pending, committed, content, pending, [], (List.append_nil _).symm, ?_, content, by simp⟩
        rw [Nat.zero_add, Fifo.readSpace, content]
      dispatched := framed.dispatched
      updating := by rintro ⟨⟩
      returned := framed.returned }
  | read =>
    unfold DispatchState.readerStep
    cases reader : state.reader with
    | idle | overrun | undefined => exact framed
    | scanning i space call => exact framed.scan reader
    | reading i space header call => exact framed.handle reader
  | rest jalv idle size updating =>
    exact { framed with
      fits := fun message member => size ▸ framed.fits message member
      updating := fun idle => updating.trans (framed.updating idle) }

end

/-- A call that is not interleaved with commits does what `jalvUpdate` says. -/
theorem jalvUpdate_run {careful : Prop} {space fuel i : Nat} {jalv next : JalvImpl} {ring rest : ZixRing}
    {status : UpdateStatus} (updated : jalvUpdateFrom space fuel i jalv ring = some (status, next, rest))
    {state : DispatchState} {call : DispatchCall} (here : state.jalv = jalv ∧ state.ring = ring)
    (reader : state.reader = .scanning i space call) :
    ∃ after, Relation.ReflTransGen (DispatchStep careful) state after ∧ after.reader = .idle ∧
      after.jalv = { next with updating := false } ∧ after.ring = rest ∧
      ∃ call, after.returned = state.returned ++ [(call, status)] := by
  obtain ⟨rfl, rfl⟩ := here
  induction fuel generalizing i state call with
  | zero => cases updated
  | succ fuel ih =>
    have scan : DispatchStep careful state (state.scan i space call) := by
      have step := @DispatchStep.read careful state
      rwa [DispatchState.readerStep, reader] at step
    have onward {middle : DispatchState} {j : Nat} {call : DispatchCall}
        (run : Relation.ReflTransGen (DispatchStep careful) state middle)
        (updated : jalvUpdateFrom space fuel j middle.jalv middle.ring = some (status, next, rest))
        (reader : middle.reader = .scanning j space call) (returned : middle.returned = state.returned) :
        ∃ after, Relation.ReflTransGen (DispatchStep careful) state after ∧ after.reader = .idle ∧
          after.jalv = { next with updating := false } ∧ after.ring = rest ∧
          ∃ call, after.returned = state.returned ++ [(call, status)] := by
      obtain ⟨after, more, ends⟩ := ih reader updated
      exact ⟨after, run.trans more, returned ▸ ends⟩
    unfold jalvUpdateFrom at updated
    unfold DispatchState.scan at scan
    by_cases more : i < space
    · rw [if_pos more] at updated scan
      rcases header : state.ring.read sizeofHeader with ⟨bytes, ring⟩
      rw [header] at updated scan
      dsimp only at updated scan
      by_cases whole : bytes.length = sizeofHeader
      · rw [if_pos whole] at updated scan
        let behind : DispatchState := { state with ring, reader := .reading i space (.decode bytes) call }
        have handle : DispatchStep careful behind (behind.handle i space (.decode bytes) call) := .read
        unfold DispatchState.handle at handle
        rcases body : ring.read (JalvMessageHeader.decode bytes).size.toNat with ⟨payload, left⟩
        rw [show behind.ring = ring from rfl, body] at handle
        rw [body] at updated
        dsimp only at updated handle
        by_cases all : payload.length = (JalvMessageHeader.decode bytes).size.toNat
        · rw [if_pos all] at updated
          rw [dif_pos all] at handle
          by_cases fits : payload.length ≤ state.jalv.uiMsgSize
          · rw [if_pos fits] at updated
            rw [show behind.jalv = state.jalv from rfl, if_pos fits] at handle
            unfold DispatchState.dispatch at handle
            dsimp only at handle
            have both := (Relation.ReflTransGen.single scan).tail handle
            cases handled : updateMessage { state.jalv with uiMsg := state.jalv.uiMsg.store 0 payload }
                (JalvMessageHeader.decode bytes).type with
            | none => simp only [handled] at updated; cases updated
            | some result =>
              rw [handled] at updated both
              cases result with
              | none =>
                cases updated
                exact ⟨_, both, rfl, rfl, rfl, _, rfl⟩
              | some jalv =>
                simp only [← all] at updated
                exact onward both updated rfl rfl
          · rw [if_neg fits] at updated
            cases updated
        · rw [if_neg all] at updated
          rw [dif_neg all] at handle
          cases updated
          exact ⟨_, (Relation.ReflTransGen.single scan).tail handle, rfl, rfl, rfl, call, rfl⟩
      · rw [if_neg whole] at updated scan
        cases updated
        exact ⟨_, .single scan, rfl, rfl, rfl, call, rfl⟩
    · rw [if_neg more] at updated scan
      cases updated
      exact ⟨_, .single scan, rfl, rfl, rfl, call, rfl⟩

structure DispatchState.Delivered (state : DispatchState) : Prop where
  read : state.read <+: state.committed
  dispatched : state.dispatched = state.read.filter fun message => KnownType message.type
  -- Between calls, the ring holds what has not been read, from a message boundary on
  boundary : state.reader = .idle →
    state.ring.content = stream FramedMessage.encode (state.committed.drop state.read.length)
  returned : ∀ result ∈ state.returned, result.1.Complete result.2
  updating : state.reader = .idle → state.jalv.updating = false
  defined : state.reader ≠ .overrun

/-- If all messages fit into the message buffer, then in every interleaving `jalv_update` handles
the messages of known type among those that it has read, which are the first ones that were
committed, and a call that fails for a message of unknown type ends behind this message. -/
theorem dispatch_delivered {state : DispatchState} (reachable : (dispatchSystem True).Reachable state) :
    state.Delivered := by
  have begins (start : DispatchState) (initial : (dispatchSystem True).initial start) : start.Framed := by
    obtain ⟨jalv, capacity, rfl, updating⟩ := initial
    exact DispatchState.framed_start capacity updating
  have preserved (before after : DispatchState) (framed : before.Framed) (step : DispatchStep True before after) :
      after.Framed := step.framed framed
  have framed : state.Framed := TransitionSystem.invariant begins preserved reachable
  obtain ⟨pending, committed, queue⟩ := framed.queue
  exact {
    read := ⟨pending, committed.symm⟩
    dispatched := framed.dispatched
    boundary := by
      intro idle
      rw [idle] at queue
      rw [committed, List.drop_left]
      exact queue
    returned := framed.returned
    updating := framed.updating
    defined := by
      intro overrun
      rw [overrun] at queue
      exact queue }

def dispatchTestHost : JalvImpl := { lookupTestHost with uiMsgSize := 1024 }

/-- Read a latency change, and then fail for a message of type 6. -/
theorem dispatch_delivered_test : ∃ state : DispatchState,
    state.returned.map (·.2) = [.unknownType] ∧ state.Delivered := by
  have begins : (dispatchSystem True).Reachable (.start dispatchTestHost 63) := ⟨_, ⟨_, _, rfl, rfl⟩, .refl⟩
  have latency := begins.step (.commit ⟨3, [0, 0, 0, 0], by decide⟩ (fun _ => by decide) rfl)
  have other := latency.step (.commit ⟨6, [1, 2], by decide⟩ (fun _ => by decide) rfl)
  have handled := ((other.step (.call rfl)).step .read).step .read
  have failed := (handled.step .read).step .read
  exact ⟨_, rfl, dispatch_delivered failed⟩

/-- A message of unknown type that is larger than the message buffer is read beyond its end. -/
theorem overrun_reachable {jalv : JalvImpl} {capacity : UInt32} {message : FramedMessage}
    (idle : jalv.updating = false) (unknown : ¬ KnownType message.type)
    (wide : jalv.uiMsgSize < message.payload.length) (room : message.encode.length ≤ capacity.toNat) :
    ∃ state, (dispatchSystem False).Reachable state ∧ state.reader = .overrun := by
  have whole : [message.header.encode, message.payload].flatten = message.encode := by
    simp [FramedMessage.encode]
  let ring : ZixRing := ⟨capacity.toNat, message.encode, room⟩
  have written : (Fifo.empty capacity.toNat).writeAll [message.header.encode, message.payload] = some ring := by
    rw [Fifo.writeAll_eq_some_iff, whole]
    exact ⟨room, rfl, rfl⟩
  let start := DispatchState.start jalv capacity
  let called : DispatchState := { start with
    ring, committed := [message], jalv := { jalv with updating := true }
    reader := .scanning 0 message.encode.length ⟨message.encode, []⟩ }
  have run : (dispatchSystem False).Reachable called.readerStep.readerStep :=
    ⟨start, ⟨jalv, capacity, rfl, idle⟩,
      .head (.commit message (fun fits => (fits.elim id unknown).elim) written) <|
        .head (.call rfl) <| .head .read <| .head .read .refl⟩
  refine ⟨_, run, ?_⟩
  have more : 0 < message.encode.length := List.length_pos_iff.mpr message.encode_ne_nil
  obtain ⟨behind, taken, _, rest⟩ := @Fifo.read_prefix _ ring _ _ _ message.header.length_encode rfl
  have scanned : called.readerStep =
      { called with
        ring := behind, reader := .reading 0 message.encode.length message.header ⟨message.encode, []⟩ } := by
    change called.scan 0 message.encode.length ⟨message.encode, []⟩ = _
    simp only [DispatchState.scan, if_pos more, called, taken, JalvMessageHeader.length_encode, if_true,
      JalvMessageHeader.decode_encode]
  rw [scanned]
  obtain ⟨last, body, _, _⟩ := Fifo.read_prefix message.header_size.symm
    (rest.trans (List.append_nil _).symm)
  change (DispatchState.handle _ 0 message.encode.length message.header ⟨message.encode, []⟩).reader = _
  unfold DispatchState.handle
  dsimp only
  rw [body]
  dsimp only
  rw [dif_pos message.header_size.symm, if_neg (Nat.not_le.mpr wide)]

/-- With a message buffer of 1024 bytes, an unknown message of 1025 bytes is read beyond its end. -/
theorem dispatch_refuted : ∃ state, (dispatchSystem False).Reachable state ∧ ¬ state.Delivered := by
  have length : (List.replicate 1025 (0 : Byte)).length = 1025 := List.length_replicate
  have small : (List.replicate 1025 (0 : Byte)).length < 2 ^ 32 := by rw [length]; decide
  have wide : dispatchTestHost.uiMsgSize < (FramedMessage.mk 6 _ small).payload.length := by rw [length]; decide
  have room : (FramedMessage.mk 6 (List.replicate 1025 0) small).encode.length ≤ (4095 : UInt32).toNat := by
    rw [FramedMessage.length_encode, length]
    decide
  have unknown : ¬ KnownType (FramedMessage.mk 6 _ small).type := show ¬ KnownType 6 by decide
  have idle : dispatchTestHost.updating = false := rfl
  have overrun : ∃ state, (dispatchSystem False).Reachable state ∧ state.reader = .overrun :=
    overrun_reachable idle unknown wide room
  obtain ⟨state, reachable, overrun⟩ := overrun
  exact ⟨state, reachable, fun delivered => delivered.defined overrun⟩

end Jalv
