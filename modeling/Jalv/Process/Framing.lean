import Jalv.Foundation.Transition
import Jalv.Message.Send
import Jalv.Process.Loop

/-! Framing of the messages from the main thread to the process thread.

The main thread writes messages while the process thread applies them. A write
takes two steps, so that the reader can free space after the writer has looked
at it. A call of `apply_ui_events` takes a step for each read, and one for each
effect. Between calls, the process thread does anything that keeps the layout.
-/

set_option autoImplicit false

namespace Jalv

open Foundation

inductive FramingWriter where
  | idle
  | writing (message : UiMessage) (begun : ZixRing) (staged : Option (Transaction Byte))

structure FramingWrite where
  message : UiMessage
  before : ZixRing
  status : ZixStatus
  after : ZixRing

/-- A call of `apply_ui_events`: the process state and what was in the ring when it began, the
messages it has decoded, and the number of its steps. -/
structure ApplyCall where
  proc : JalvProcess
  content : List Byte
  decoded : List ReceivedMessage
  steps : Nat

structure ReturnedCall extends ApplyCall where
  nframes : UInt32
  status : JalvProcessStatus
  left : JalvProcess

inductive FramingReader where
  | idle
  | applying (loop : ApplyLoop) (call : ApplyCall)
  | undefined

structure FramingState where
  ring : ZixRing
  proc : JalvProcess
  writer : FramingWriter
  reader : FramingReader
  writes : List FramingWrite
  decoded : List ReceivedMessage
  returned : List ReturnedCall

def FramingState.start (proc : JalvProcess) (capacity : UInt32) : FramingState where
  ring := .empty capacity.toNat
  proc := proc
  writer := .idle
  reader := .idle
  writes := []
  decoded := []
  returned := []

def FramingState.sent (state : FramingState) : List UiMessage :=
  (state.writes.filter (·.status = .success)).map (·.message)

def ApplyPlace.decoded : ApplyPlace → List ReceivedMessage
  | .received _ message => [message]
  | .scanning _ | .reading _ _ | .returned _ => []

def ApplyCall.next (call : ApplyCall) (place : ApplyPlace) : ApplyCall :=
  { call with decoded := call.decoded ++ place.decoded, steps := call.steps + 1 }

def FramingState.finish (state : FramingState) (loop : ApplyLoop) (call : ApplyCall) (status : JalvProcessStatus) :
    FramingState :=
  { state with
    reader := .idle
    returned := state.returned ++ [{ call with nframes := loop.nframes, status, left := state.proc }] }

def FramingState.apply (state : FramingState) (loop : ApplyLoop) (call : ApplyCall) : FramingState :=
  match loop.next state.proc state.ring with
  | none => { state with reader := .undefined }
  | some (after, proc, ring) =>
    { state with
      proc, ring
      decoded := state.decoded ++ after.place.decoded
      reader := .applying after (call.next after.place) }

def FramingState.readerStep (state : FramingState) : FramingState :=
  match state.reader with
  | .idle | .undefined => state
  | .applying loop call =>
    match loop.place with
    | .returned status => state.finish loop call status
    | .scanning _ | .reading _ _ | .received _ _ => state.apply loop call

inductive FramingStep : FramingState → FramingState → Prop where
  | beginWrite {state : FramingState} (message : UiMessage) (idle : state.writer = .idle)
      (deliverable : message.Deliverable state.proc.layout) :
      FramingStep state
        { state with writer := .writing message state.ring (state.ring.beginWrite.amendAll message.parts) }
  | commit {state : FramingState} {message : UiMessage} {begun ring : ZixRing} {transaction : Transaction Byte}
      (writing : state.writer = .writing message begun (some transaction))
      (committed : state.ring.commit transaction = some ring) :
      FramingStep state
        { state with ring, writer := .idle, writes := state.writes ++ [⟨message, state.ring, .success, ring⟩] }
  | fail {state : FramingState} {message : UiMessage} {begun : ZixRing}
      (writing : state.writer = .writing message begun none) :
      FramingStep state
        { state with writer := .idle, writes := state.writes ++ [⟨message, begun, message.failure, begun⟩] }
  | call {state : FramingState} (nframes : UInt32) (idle : state.reader = .idle) :
      FramingStep state
        { state with reader := .applying (.start state.ring nframes) ⟨state.proc, state.ring.content, [], 0⟩ }
  | read {state : FramingState} : FramingStep state state.readerStep
  | rest {state : FramingState} (proc : JalvProcess) (idle : state.reader = .idle)
      (layout : proc.layout = state.proc.layout) : FramingStep state { state with proc }

def framingSystem (proc : JalvProcess) (capacity : UInt32) : TransitionSystem FramingState where
  initial state := state = .start proc capacity ∧ proc.layout.Prepared
  step := FramingStep

inductive Effects (nframes : UInt32) (start : JalvProcess) : List UiMessage → JalvProcess → Prop where
  | nil : Effects nframes start [] start
  | concat {messages : List UiMessage} {proc next : JalvProcess} {message : UiMessage}
      (earlier : Effects nframes start messages proc)
      (effect : MessageEffect (proc.receive message) nframes next message) :
      Effects nframes start (messages ++ [message]) next

def UiMessage.Framed (layout : ProcessLayout) (message : UiMessage) : Prop :=
  message.Deliverable layout ∧ message.encode.length < 2 ^ 32

structure ApplyCall.Progress (call : ApplyCall) (nframes : UInt32) (proc : JalvProcess)
    (done todo : List UiMessage) : Prop where
  content : call.content = stream UiMessage.encode (done ++ todo)
  effects : Effects nframes call.proc done proc

/-- The messages that the process thread has yet to decode. In a call, the first of them were
in the ring at its start, and fill what is left of the space. -/
def ApplyLoop.Queue (loop : ApplyLoop) (call : ApplyCall) (proc : JalvProcess) (content : List Byte)
    (pending : List UiMessage) : Prop :=
  match loop.place with
  | .scanning i => content = stream UiMessage.encode pending ∧
      ∃ todo later, pending = todo ++ later ∧ loop.space = i + (stream UiMessage.encode todo).length ∧
        ∃ done, call.Progress loop.nframes proc done todo ∧ call.decoded = done.map .whole ∧
          call.steps = 3 * done.length
  | .reading i header => ∃ message todo later, pending = message :: (todo ++ later) ∧ header = message.header ∧
      content = message.payload ++ stream UiMessage.encode (todo ++ later) ∧
      loop.space = i + (stream UiMessage.encode (message :: todo)).length ∧
        ∃ done, call.Progress loop.nframes proc done (message :: todo) ∧ call.decoded = done.map .whole ∧
          call.steps = 3 * done.length + 1
  | .received i taken => ∃ message before, taken = .whole message ∧ proc = JalvProcess.receive before message ∧
      message.Framed proc.layout ∧ content = stream UiMessage.encode pending ∧
      ∃ todo later, pending = todo ++ later ∧ loop.space = i + (stream UiMessage.encode todo).length ∧
        ∃ done, call.Progress loop.nframes before done (message :: todo) ∧
          call.decoded = (done ++ [message]).map .whole ∧ call.steps = 3 * done.length + 2
  | .returned status => content = stream UiMessage.encode pending ∧ status = .success ∧
      ∃ done, call.Progress loop.nframes proc done [] ∧ call.decoded = done.map .whole ∧
        call.steps = 3 * done.length + 1

def FramingReader.Queue (proc : JalvProcess) (content : List Byte) (pending : List UiMessage) : FramingReader → Prop
  | .idle => content = stream UiMessage.encode pending
  | .applying loop call => loop.Queue call proc content pending
  | .undefined => False

-- What was staged is a whole message and fits into the ring, or the message had no room.
def FramingWriter.Staged (layout : ProcessLayout) (ring : ZixRing) : FramingWriter → Prop
  | .idle => True
  | .writing message begun none => message.write begun = (message.failure, begun)
  | .writing message _ (some transaction) => message.Deliverable layout ∧ transaction.staged = message.encode ∧
      ring.content.length + message.encode.length ≤ ring.capacity

/-- The write had the result of its function, called once and for all on the ring before it. -/
def FramingWrite.Whole (write : FramingWrite) : Prop :=
  write.message.write write.before = (write.status, write.after) ∧ (write.status ≠ .success → write.after = write.before)

/-- The call returned success. It decoded exactly the messages that were in the ring at its start,
and left the process state that their effects lead to. -/
def ReturnedCall.Complete (call : ReturnedCall) : Prop :=
  call.status = .success ∧ ∃ messages : List UiMessage, call.content = stream UiMessage.encode messages ∧
    call.decoded = messages.map .whole ∧ Effects call.nframes call.proc messages call.left ∧
    call.steps = 3 * messages.length + 1

structure FramingState.Framed (layout : ProcessLayout) (state : FramingState) : Prop where
  sameLayout : state.proc.layout = layout
  small : state.ring.capacity < 2 ^ 32
  writer : state.writer.Staged layout state.ring
  queue : ∃ done pending : List UiMessage, state.sent = done ++ pending ∧ state.decoded = done.map .whole ∧
    state.reader.Queue state.proc state.ring.content pending
  framed : ∀ message ∈ state.sent, message.Framed layout
  writes : ∀ write ∈ state.writes, write.Whole
  returned : ∀ call ∈ state.returned, call.Complete

theorem FramingState.framed_start {proc : JalvProcess} (capacity : UInt32) :
    (FramingState.start proc capacity).Framed proc.layout where
  sameLayout := rfl
  small := capacity.toNat_lt
  writer := trivial
  queue := ⟨[], [], rfl, rfl, rfl⟩
  framed := nofun
  writes := nofun
  returned := nofun

section

variable {layout : ProcessLayout} {state : FramingState} {loop : ApplyLoop} {call : ApplyCall}

theorem FramingWriter.Staged.shrink {writer : FramingWriter} {ring next : ZixRing}
    (staged : writer.Staged layout ring) (capacity : next.capacity = ring.capacity)
    (shrinks : next.content.length ≤ ring.content.length) : writer.Staged layout next := by
  cases writer with
  | idle => trivial
  | writing message begun attempt =>
    cases attempt with
    | none => exact staged
    | some transaction =>
      obtain ⟨deliverable, bytes, fits⟩ := staged
      exact ⟨deliverable, bytes, by omega⟩

/-- A transaction stages all parts of the message or none. -/
theorem FramingWriter.staged_begin {message : UiMessage} (ring : ZixRing) (deliverable : message.Deliverable layout) :
    (writing message ring (ring.beginWrite.amendAll message.parts)).Staged layout ring := by
  cases staged : ring.beginWrite.amendAll message.parts with
  | none =>
    have lost : ring.writeAll message.parts = none := by rw [Fifo.writeAll, staged, Option.bind_none]
    change message.write ring = _
    rw [message.write_eq, lost]
  | some transaction =>
    have bounded := ring.bounded
    rw [Transaction.amendAll_eq] at staged
    split at staged
    · next fits =>
      cases staged
      refine ⟨deliverable, rfl, ?_⟩
      simp only [Fifo.beginWrite, Fifo.writeSpace] at fits
      change ring.content.length + message.parts.flatten.length ≤ ring.capacity
      omega
    · cases staged

/-- A commit does what the function that writes the message does on the ring at that time. -/
theorem FramingWriter.Staged.commit {message : UiMessage} {begun ring next : ZixRing} {transaction : Transaction Byte}
    (staged : (writing message begun (some transaction)).Staged layout ring)
    (committed : ring.commit transaction = some next) :
    message.write ring = (.success, next) ∧ next.capacity = ring.capacity ∧
      next.content = ring.content ++ message.encode := by
  obtain ⟨_, bytes, room⟩ := staged
  obtain ⟨capacity, content⟩ := Fifo.commit_eq_some committed
  rw [bytes] at content
  have written : ring.writeAll message.parts = some next := by
    refine Fifo.writeAll_eq_some_iff.mpr ⟨?_, capacity, content⟩
    change message.encode.length ≤ _
    rw [Fifo.writeSpace]
    omega
  exact ⟨by rw [message.write_eq, written], capacity, content⟩

theorem FramingState.Framed.pending_framed (framed : state.Framed layout) {done pending : List UiMessage}
    (sent : state.sent = done ++ pending) {message : UiMessage} (member : message ∈ pending) :
    message.Framed layout :=
  framed.framed message (by rw [sent]; exact List.mem_append_right _ member)

theorem ApplyLoop.Queue.scan {i : Nat} {proc : JalvProcess} {ring : ZixRing} {pending : List UiMessage}
    (queue : loop.Queue call proc ring.content pending) (place : loop.place = .scanning i) :
    ∃ after next, loop.next proc ring = some (after, proc, next) ∧ next.capacity = ring.capacity ∧
      next.content.length ≤ ring.content.length ∧ after.place.decoded = [] ∧
      after.Queue (call.next after.place) proc next.content pending := by
  rw [Queue, place] at queue
  obtain ⟨content, todo, later, parts, extent, done, progress, decoded, steps⟩ := queue
  cases todo with
  | nil =>
    -- Nothing of what was there is left, so the call returns
    have stop : ¬ i < loop.space := by simp only [stream_nil, List.length_nil] at extent; omega
    refine ⟨{ loop with place := .returned .success }, ring, ?_, rfl, Nat.le_refl _, rfl, ?_⟩
    · simp only [ApplyLoop.next, place, ApplyLoop.scan, if_neg stop]
    · exact ⟨content, rfl, done, ⟨progress.content, progress.effects⟩, by rw [← decoded]; exact List.append_nil _,
        congrArg (· + 1) steps⟩
  | cons message todo =>
    have length := message.length_encode
    have more : i < loop.space := by
      rw [extent, stream_cons, List.length_append, length, sizeofHeader]
      omega
    -- The first message of the queue is at the front of the ring, whole
    have front : ring.content =
        message.header.encode ++ (message.payload ++ stream UiMessage.encode (todo ++ later)) := by
      rw [content, parts, List.cons_append, stream_cons, UiMessage.encode_eq, List.append_assoc]
    obtain ⟨next, taken, capacity, rest⟩ := Fifo.read_prefix message.header.length_encode front
    refine ⟨{ loop with place := .reading i message.header }, next, ?_, capacity, ?_, rfl, ?_⟩
    · simp only [ApplyLoop.next, place, ApplyLoop.scan, if_pos more, taken, JalvMessageHeader.length_encode, if_true,
        JalvMessageHeader.decode_encode]
    · have whole := congrArg List.length front
      rw [List.length_append] at whole
      rw [rest]
      omega
    · exact ⟨message, todo, later, parts, rfl, rest, extent, done, ⟨progress.content, progress.effects⟩,
        by rw [← decoded]; exact List.append_nil _, congrArg (· + 1) steps⟩

theorem ApplyLoop.Queue.read {i : Nat} {header : JalvMessageHeader} {proc : JalvProcess} {ring : ZixRing}
    {pending : List UiMessage} (queue : loop.Queue call proc ring.content pending)
    (place : loop.place = .reading i header) (framed : ∀ message ∈ pending, message.Framed proc.layout) :
    ∃ message others after next, pending = message :: others ∧
      loop.next proc ring = some (after, proc.receive message, next) ∧ next.capacity = ring.capacity ∧
      next.content.length ≤ ring.content.length ∧ after.place.decoded = [.whole message] ∧
      after.Queue (call.next after.place) (proc.receive message) next.content others := by
  rw [Queue, place] at queue
  obtain ⟨message, todo, later, rfl, rfl, content, extent, done, progress, decoded, steps⟩ := queue
  have framed := framed message List.mem_cons_self
  obtain ⟨deliverable, bound⟩ := framed
  obtain ⟨next, read, capacity, rest⟩ := readUiMessage_payload deliverable.readable content bound
  let i := i + (sizeofHeader + message.header.size.toNat)
  refine ⟨message, todo ++ later, { loop with place := .received i (.whole message) }, next, rfl, ?_, capacity, ?_,
    rfl, message, proc, rfl, rfl, ?_, rest, todo, later, rfl, ?_, done, ⟨progress.content, progress.effects⟩, ?_, ?_⟩
  · simp only [ApplyLoop.next, place, read]
    rfl
  · have whole := congrArg List.length content
    rw [List.length_append] at whole
    rw [rest]
    omega
  · rw [proc.receive_layout]
    exact ⟨deliverable, bound⟩
  · change loop.space = i + _
    rw [extent, stream_cons, List.length_append, message.length_encode, ← UiMessage.header_size bound]
    omega
  · rw [List.map_append, ← decoded]
    rfl
  · exact congrArg (· + 1) steps

theorem ApplyLoop.Queue.effect {i : Nat} {taken : ReceivedMessage} {proc : JalvProcess} {ring : ZixRing}
    {pending : List UiMessage} (queue : loop.Queue call proc ring.content pending)
    (place : loop.place = .received i taken) (prepared : proc.layout.Prepared) :
    ∃ after next, loop.next proc ring = some (after, next, ring) ∧ next.layout = proc.layout ∧
      after.place.decoded = [] ∧ after.Queue (call.next after.place) next ring.content pending := by
  rw [Queue, place] at queue
  obtain ⟨message, before, rfl, rfl, ⟨deliverable, _⟩, content, todo, later, parts, extent, done, progress, decoded,
    steps⟩ := queue
  obtain ⟨next, applied, layout⟩ := applyUiMessage_deliverable prepared deliverable loop.nframes
  have effects := progress.effects.concat (applyUiMessage_effect applied)
  refine ⟨{ loop with place := .scanning i }, next, ?_, layout, rfl, content, todo, later, parts, extent,
    done ++ [message], ⟨?_, effects⟩, ?_, ?_⟩
  · have applied : applyReceived (before.receive message) loop.nframes (.whole message) = some next := applied
    simp only [ApplyLoop.next, place, applied, Option.map_some]
  · rw [List.append_assoc]
    exact progress.content
  · rw [← decoded]
    exact List.append_nil _
  · rw [List.length_append, List.length_singleton]
    change call.steps + 1 = _
    omega

theorem FramingState.Framed.returns {status : JalvProcessStatus} (framed : state.Framed layout)
    (reader : state.reader = .applying loop call) (place : loop.place = .returned status) :
    (state.finish loop call status).Framed layout := by
  obtain ⟨done, pending, sent, decoded, queue⟩ := framed.queue
  rw [reader, FramingReader.Queue, ApplyLoop.Queue, place] at queue
  obtain ⟨content, rfl, messages, progress, found, steps⟩ := queue
  refine { framed with queue := ⟨done, pending, sent, decoded, content⟩, returned := ?_ }
  refine forall_mem_concat framed.returned ⟨rfl, messages, ?_, found, progress.effects, steps⟩
  rw [← List.append_nil messages]
  exact progress.content

/-- The process thread takes a step in a call: it reads a header or what follows it, or applies
what it has read. -/
theorem FramingState.Framed.applies (prepared : layout.Prepared) (framed : state.Framed layout)
    (reader : state.reader = .applying loop call) (going : ∀ status, loop.place ≠ .returned status) :
    (state.apply loop call).Framed layout := by
  obtain ⟨done, pending, sent, decoded, queue⟩ := framed.queue
  have same := framed.sameLayout
  rw [reader] at queue
  cases place : loop.place with
  | returned status => exact absurd place (going status)
  | scanning i =>
    obtain ⟨after, next, step, capacity, shrinks, none, queue⟩ := ApplyLoop.Queue.scan queue place
    simp only [FramingState.apply, step]
    exact { framed with
      small := capacity ▸ framed.small
      writer := framed.writer.shrink capacity shrinks
      queue := ⟨done, pending, sent, by rw [none, List.append_nil, decoded], queue⟩ }
  | reading i header =>
    have waiting (message : UiMessage) (member : message ∈ pending) : message.Framed state.proc.layout :=
      same ▸ framed.pending_framed sent member
    obtain ⟨message, others, after, next, rfl, step, capacity, shrinks, one, queue⟩ :=
      ApplyLoop.Queue.read queue place waiting
    simp only [FramingState.apply, step]
    exact { framed with
      sameLayout := (state.proc.receive_layout message).trans same
      small := capacity ▸ framed.small
      writer := framed.writer.shrink capacity shrinks
      queue := ⟨done ++ [message], others, by rw [List.append_assoc]; exact sent,
        by rw [one, decoded, List.map_append, List.map_singleton], queue⟩ }
  | received i taken =>
    obtain ⟨after, next, step, layout, none, queue⟩ := ApplyLoop.Queue.effect queue place (same ▸ prepared)
    simp only [FramingState.apply, step]
    exact { framed with
      sameLayout := layout.trans same
      queue := ⟨done, pending, sent, by rw [none, List.append_nil, decoded], queue⟩ }

theorem FramingReader.Queue.append {reader : FramingReader} {proc : JalvProcess} {content : List Byte}
    {pending : List UiMessage} (queue : reader.Queue proc content pending) (message : UiMessage) :
    reader.Queue proc (content ++ message.encode) (pending ++ [message]) := by
  have longer {content : List Byte} {messages : List UiMessage} (found : content = stream UiMessage.encode messages) :
      content ++ message.encode = stream UiMessage.encode (messages ++ [message]) := by
    rw [stream_concat, found]
  cases reader with
  | idle => exact longer queue
  | undefined => exact queue
  | applying loop call =>
    obtain ⟨nframes, space, place⟩ := loop
    -- What was in the ring when the call began stays the same
    cases place with
    | scanning i =>
      obtain ⟨found, todo, later, rfl, rest⟩ := queue
      exact ⟨longer found, todo, later ++ [message], List.append_assoc _ _ _, rest⟩
    | reading i header =>
      obtain ⟨front, todo, later, rfl, header, found, rest⟩ := queue
      refine ⟨front, todo, later ++ [message], ?_, header, ?_, rest⟩
      · rw [List.cons_append, List.append_assoc]
      · rw [found, ← List.append_assoc todo, stream_concat, List.append_assoc]
    | received i taken =>
      obtain ⟨first, before, taken, received, framed, found, todo, later, rfl, rest⟩ := queue
      exact ⟨first, before, taken, received, framed, longer found, todo, later ++ [message],
        List.append_assoc _ _ _, rest⟩
    | returned status => exact ⟨longer queue.1, queue.2⟩

theorem FramingState.sent_concat (state : FramingState) (write : FramingWrite) :
    ({ state with writes := state.writes ++ [write] } : FramingState).sent =
      state.sent ++ if write.status = .success then [write.message] else [] := by
  simp only [sent, List.filter_append, List.map_append]
  by_cases success : write.status = .success <;> simp [success]

theorem UiMessage.failure_ne (message : UiMessage) : message.failure ≠ .success := by
  cases message <;> nofun

/-- Every step of either thread keeps the framing invariant. -/
theorem FramingStep.framed {next : FramingState} (prepared : layout.Prepared) (step : FramingStep state next)
    (framed : state.Framed layout) : next.Framed layout := by
  cases step with
  | beginWrite message idle deliverable =>
    exact { framed with writer := FramingWriter.staged_begin state.ring (framed.sameLayout ▸ deliverable) }
  -- Only a commit changes the ring, and it appends a whole message
  | @commit message begun ring transaction writing committed =>
    have staged := framed.writer
    rw [writing] at staged
    obtain ⟨written, capacity, content⟩ := staged.commit committed
    obtain ⟨deliverable, _, room⟩ := staged
    have small := framed.small
    obtain ⟨done, pending, all, decoded, waiting⟩ := framed.queue
    let write : FramingWrite := ⟨message, state.ring, .success, ring⟩
    have sent : ({ state with writes := state.writes ++ [write] } : FramingState).sent = state.sent ++ [message] :=
      state.sent_concat write
    refine ⟨framed.sameLayout, capacity ▸ small, trivial, ⟨done, pending ++ [message], ?_, decoded, ?_⟩, ?_,
      forall_mem_concat framed.writes ⟨?_, absurd rfl⟩, framed.returned⟩
    · exact sent.trans (by rw [all, List.append_assoc])
    · rw [content]
      exact waiting.append message
    · intro other member
      rcases List.mem_append.mp (sent ▸ member) with before | now
      · exact framed.framed other before
      · rw [List.mem_singleton.mp now]
        exact ⟨deliverable, by omega⟩
    · exact written
  | @fail message begun writing =>
    have lost := framed.writer
    rw [writing] at lost
    have sent : ({ state with writes := state.writes ++ [⟨message, begun, message.failure, begun⟩] } : FramingState).sent =
        state.sent := by
      rw [state.sent_concat, if_neg message.failure_ne, List.append_nil]
    refine ⟨framed.sameLayout, framed.small, trivial, ?_, fun other member => framed.framed other (sent ▸ member),
      forall_mem_concat framed.writes ⟨lost, fun _ => rfl⟩, framed.returned⟩
    obtain ⟨done, pending, all, decoded, waiting⟩ := framed.queue
    exact ⟨done, pending, sent.trans all, decoded, waiting⟩
  -- A call begins with whole messages, which are all of its work
  | call nframes idle =>
    obtain ⟨done, pending, all, decoded, waiting⟩ := framed.queue
    rw [idle] at waiting
    have content : state.ring.content = stream UiMessage.encode pending := waiting
    refine { framed with queue := ⟨done, pending, all, decoded, content, pending, [], ?_, ?_, [], ⟨content, .nil⟩,
      rfl, rfl⟩ }
    · rw [List.append_nil]
    · rw [Nat.zero_add, ← content]
      rfl
  | read =>
    unfold FramingState.readerStep
    cases reader : state.reader with
    | idle => exact framed
    | undefined => exact framed
    | applying loop call =>
      cases place : loop.place with
      | returned status =>
        simp only [place]
        exact framed.returns reader place
      | scanning | reading | received =>
        simp only [place]
        exact framed.applies prepared reader fun status other => by rw [place] at other; cases other
  | rest proc idle layout =>
    obtain ⟨done, pending, all, decoded, waiting⟩ := framed.queue
    rw [idle] at waiting
    refine { framed with sameLayout := layout.trans framed.sameLayout, queue := ⟨done, pending, all, decoded, ?_⟩ }
    change state.reader.Queue _ _ _
    rw [idle]
    exact waiting

end

structure FramingState.Delivered (state : FramingState) : Prop where
  -- The decoded messages are the first ones of those whose write succeeded.
  decoded : ∃ pending, state.sent.map .whole = state.decoded ++ pending
  writes : ∀ write ∈ state.writes, write.Whole
  -- The ring holds the last bytes of the messages whose write succeeded, and no others.
  bytes : state.ring.content <:+ stream UiMessage.encode state.sent
  whole : state.reader = .idle → ∃ messages, state.ring.content = stream UiMessage.encode messages
  applied : ∀ nframes space i call, state.reader = .applying ⟨nframes, space, .scanning i⟩ call →
    ∃ messages : List UiMessage, call.decoded = messages.map .whole ∧ Effects nframes call.proc messages state.proc
  returned : ∀ call ∈ state.returned, call.Complete
  defined : state.reader ≠ .undefined
  -- A call ends after three steps for each message.
  bounded : ∀ loop call, state.reader = .applying loop call →
    ∃ messages, call.content = stream UiMessage.encode messages ∧ call.steps ≤ 3 * messages.length + 1

theorem FramingState.Framed.bytes {layout : ProcessLayout} {state : FramingState}
    (framed : state.Framed layout) : state.ring.content <:+ stream UiMessage.encode state.sent := by
  obtain ⟨done, pending, sent, _, queue⟩ := framed.queue
  rw [sent, stream_append]
  have suffix : state.ring.content <:+ stream UiMessage.encode pending := by
    cases reader : state.reader with
    | idle =>
      rw [reader] at queue
      exact queue ▸ List.suffix_refl _
    | undefined =>
      rw [reader] at queue
      exact queue.elim
    | applying loop call =>
      rw [reader] at queue
      obtain ⟨nframes, space, place⟩ := loop
      cases place with
      | scanning | returned => exact queue.1 ▸ List.suffix_refl _
      -- The header of the first message is gone
      | reading i header =>
        obtain ⟨message, todo, later, parts, _, content, _⟩ := queue
        rw [parts, stream_cons, UiMessage.encode_eq, List.append_assoc, content]
        exact List.suffix_append _ _
      | received i taken =>
        obtain ⟨_, _, _, _, _, content, _⟩ := queue
        exact content ▸ List.suffix_refl _
  exact suffix.trans (List.suffix_append _ _)

theorem FramingState.Framed.bounded {layout : ProcessLayout} {state : FramingState} (framed : state.Framed layout)
    {loop : ApplyLoop} {call : ApplyCall} (active : state.reader = .applying loop call) :
    ∃ messages, call.content = stream UiMessage.encode messages ∧ call.steps ≤ 3 * messages.length + 1 := by
  obtain ⟨_, _, _, _, queue⟩ := framed.queue
  rw [active] at queue
  obtain ⟨nframes, space, place⟩ := loop
  cases place with
  | scanning i =>
    obtain ⟨_, todo, _, _, _, done, progress, _, steps⟩ := queue
    refine ⟨done ++ todo, progress.content, ?_⟩
    rw [steps, List.length_append]
    omega
  | reading i header =>
    obtain ⟨message, todo, _, _, _, _, _, done, progress, _, steps⟩ := queue
    refine ⟨done ++ message :: todo, progress.content, ?_⟩
    rw [steps, List.length_append, List.length_cons]
    omega
  | received i taken =>
    obtain ⟨message, _, _, _, _, _, todo, _, _, _, done, progress, _, steps⟩ := queue
    refine ⟨done ++ message :: todo, progress.content, ?_⟩
    rw [steps, List.length_append, List.length_cons]
    omega
  | returned status =>
    obtain ⟨_, _, done, progress, _, steps⟩ := queue
    refine ⟨done ++ [], progress.content, ?_⟩
    rw [steps, List.append_nil]

def framingTestProcess : JalvProcess :=
  { jalvProcessInit testUrids with
    ports := [⟨.control, .input, false, [], none, 0, false, false, false, false, false⟩,
      ⟨.event, .input, false, [], some (lv2EvbufReset (lv2EvbufNew 1024 2 3 fun _ => 0) true), 0, false, true, false,
        false, false⟩]
    controlsBuf := [0, 0]
    controlIn := 1
    processMsgSize := 1024 }

def framingTestMessages : List UiMessage :=
  [.controlPortChange 0 7, .eventTransfer 1 ⟨4, 5, [1, 2, 3, 4], rfl⟩, .stateRequest, .runStateChange .paused]

section

variable {proc : JalvProcess} {capacity : UInt32} {state : FramingState}

theorem FramingState.reachable_write {message : UiMessage} {ring : ZixRing}
    (reachable : (framingSystem proc capacity).Reachable state) (idle : state.writer = .idle)
    (deliverable : message.Deliverable state.proc.layout) (sent : Sends state.ring ring message) :
    (framingSystem proc capacity).Reachable
      { state with ring, writer := .idle, writes := state.writes ++ [⟨message, state.ring, .success, ring⟩] } := by
  obtain ⟨transaction, staged, committed⟩ := Option.bind_eq_some_iff.mp sent
  have begun := reachable.step (.beginWrite message idle deliverable)
  rw [staged] at begun
  exact begun.step (.commit rfl committed)

theorem FramingState.reachable_reads (reachable : (framingSystem proc capacity).Reachable state) (steps : Nat) :
    (framingSystem proc capacity).Reachable (FramingState.readerStep^[steps] state) := by
  induction steps generalizing state with
  | zero => exact reachable
  | succ steps ih => exact ih (reachable.step .read)

end

end Jalv
