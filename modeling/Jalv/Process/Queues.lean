import Jalv.Event.Sequence
import Jalv.Process.Receive
import Jalv.Process.Setup

/-! The events in the buffers of all event input ports.

Each message that the process thread applies appends its event to the sequence
of one port, or leaves all sequences as they are.
-/

set_option autoImplicit false

namespace Jalv

open Foundation

def UiMessage.events (proc : JalvProcess) (nframes : UInt32) (index : Nat) : UiMessage → List AtomEvent
  | .eventTransfer portIndex atom => if portIndex.toNat = index then [⟨nframes, atom⟩] else []
  | .stateRequest => if proc.controlIn.toNat = index then [⟨nframes, proc.getMsg⟩] else []
  | .controlPortChange _ _ | .runStateChange _ => []

def uiEvents (proc : JalvProcess) (nframes : UInt32) (messages : List UiMessage) (index : Nat) : List AtomEvent :=
  messages.flatMap (UiMessage.events proc nframes index)

/-- The buffer of each event input port is a sequence of the events that it holds, and has
room for those that it awaits. -/
def JalvProcess.Queues (proc : JalvProcess) (held awaited : Nat → List AtomEvent) : Prop :=
  ∀ index port, proc.ports[index]? = some port → port.type = .event → port.flow = .input →
    ∃ evbuf, port.evbuf = some evbuf ∧ evbuf.Sequence (held index) ∧
      EventsRoom evbuf.capacity.toNat (eventsSize (held index)) (awaited index)

def JalvProcess.Room (proc : JalvProcess) (events : Nat → List AtomEvent) : Prop :=
  ∀ index port evbuf, proc.ports[index]? = some port → port.type = .event → port.flow = .input →
    port.evbuf = some evbuf → EventsRoom evbuf.capacity.toNat 0 (events index)

section

variable {proc next : JalvProcess} {held awaited : Nat → List AtomEvent} {nframes : UInt32}

theorem JalvProcess.Queues.await {none : Nat → List AtomEvent} (queues : proc.Queues held none)
    (room : proc.Room fun index => held index ++ awaited index) : proc.Queues held awaited := by
  intro index port found event input
  obtain ⟨evbuf, buffer, holds, _⟩ := queues index port found event input
  have all := (eventsRoom_append.mp (room index port evbuf found event input buffer)).2
  rw [Nat.zero_add] at all
  exact ⟨evbuf, buffer, holds, all⟩

theorem JalvProcess.Queues.same_ports (queues : proc.Queues held awaited) (same : next.ports = proc.ports) :
    next.Queues held awaited := by
  unfold Queues at queues ⊢
  rwa [same]

theorem LV2Evbuf.Sequence.writeEnd {evbuf : LV2Evbuf} {events rest : List AtomEvent} {event : AtomEvent}
    (holds : evbuf.Sequence events)
    (room : EventsRoom evbuf.capacity.toNat (eventsSize events) ([event] ++ rest)) :
    let next := (lv2EvbufWrite (lv2EvbufEnd evbuf) event.frames event.atom).2.evbuf
    next.Sequence (events ++ [event]) ∧ EventsRoom next.capacity.toNat (eventsSize (events ++ [event])) rest := by
  obtain ⟨same, atEnd⟩ := holds.end
  obtain ⟨first, others⟩ := eventsRoom_append.mp room
  have written := (LV2Evbuf.Sequence.write (same.symm ▸ holds) atEnd (same.symm ▸ first)).1
  refine ⟨written, ?_⟩
  rw [lv2EvbufWrite_capacity, same, eventsSize_append]
  exact others

theorem appendEvent_queues {index : Nat} {atom : Atom}
    (queues : proc.Queues held fun other => (if index = other then [⟨nframes, atom⟩] else []) ++ awaited other)
    (appended : appendEvent proc index nframes atom = some next) :
    next.Queues (fun other => held other ++ if index = other then [⟨nframes, atom⟩] else []) awaited := by
  obtain ⟨port, evbuf, found, buffer, rfl⟩ := appendEvent_cases appended
  obtain ⟨inside, _⟩ := List.getElem?_eq_some_iff.mp found
  intro other changed here event input
  by_cases same : index = other
  · subst same
    rw [JalvProcess.setEvbuf, List.getElem?_set_self inside, Option.some.injEq] at here
    subst here
    obtain ⟨_, buffer', holds, room⟩ := queues index port found event input
    rw [buffer, Option.some.injEq] at buffer'
    subst buffer'
    simp only [if_true] at room ⊢
    obtain ⟨written, rest⟩ := holds.writeEnd room
    exact ⟨_, rfl, written, rest⟩
  · rw [JalvProcess.setEvbuf, List.getElem?_set_ne same] at here
    obtain ⟨old, buffer', holds, room⟩ := queues other changed here event input
    simp only [if_neg same, List.append_nil, List.nil_append] at room ⊢
    exact ⟨old, buffer', holds, room⟩

theorem deliver_queues {message : UiMessage}
    (queues : proc.Queues held fun index => message.events proc nframes index ++ awaited index)
    (delivered : deliver nframes proc message = some next) :
    next.Queues (fun index => held index ++ message.events proc nframes index) awaited := by
  have received : (proc.receive message).Queues held fun index =>
      message.events proc nframes index ++ awaited index :=
    queues.same_ports (by cases message <;> rfl)
  cases applyUiMessage_effect delivered with
  | controlPortChange _ same =>
    simp only [UiMessage.events, List.append_nil, List.nil_append] at received ⊢
    exact received.same_ports (by rw [same])
  | runStateChange same =>
    simp only [UiMessage.events, List.append_nil, List.nil_append] at received ⊢
    exact received.same_ports (by rw [same])
  | eventTransfer appended => exact appendEvent_queues received appended
  | stateRequest _ _ _ appended => exact appendEvent_queues received appended

theorem uiEvents_frame {message : UiMessage} (delivered : deliver nframes proc message = some next)
    (messages : List UiMessage) (index : Nat) :
    uiEvents next nframes messages index = uiEvents proc nframes messages index := by
  obtain ⟨_, _, _, _, _, same⟩ := deliver_frame delivered
  rw [same]
  rfl

theorem deliverAll_queues {messages : List UiMessage}
    (queues : proc.Queues held fun index => uiEvents proc nframes messages index ++ awaited index)
    (delivered : messages.foldlM (deliver nframes) proc = some next) :
    next.Queues (fun index => held index ++ uiEvents proc nframes messages index) awaited := by
  induction messages generalizing proc held with
  | nil =>
    cases delivered
    simpa only [uiEvents, List.flatMap_nil, List.append_nil, List.nil_append] using queues
  | cons message rest ih =>
    rw [List.foldlM_cons] at delivered
    obtain ⟨middle, first, others⟩ := Option.bind_eq_some_iff.mp delivered
    simp only [uiEvents, List.flatMap_cons, List.append_assoc] at queues ⊢
    have same := uiEvents_frame first rest
    have queued : middle.Queues (fun index => held index ++ message.events proc nframes index)
        (fun index => uiEvents middle nframes rest index ++ awaited index) := by
      simp only [same]
      exact deliver_queues queues first
    have appended := ih queued others
    simp only [same] at appended
    simpa only [uiEvents, List.append_assoc] using appended

theorem deliverAll_deliverable {messages : List UiMessage} (prepared : proc.layout.Prepared)
    (deliverable : ∀ message ∈ messages, message.Deliverable proc.layout) (nframes : UInt32) :
    ∃ next, messages.foldlM (deliver nframes) proc = some next ∧ next.layout = proc.layout := by
  induction messages generalizing proc with
  | nil => exact ⟨proc, rfl, rfl⟩
  | cons message rest ih =>
    obtain ⟨first, others⟩ := List.forall_mem_cons.mp deliverable
    obtain ⟨middle, delivered, same⟩ := deliver_deliverable prepared first nframes
    obtain ⟨next, all, layout⟩ := ih (same ▸ prepared) (same ▸ others)
    refine ⟨next, ?_, layout.trans same⟩
    rw [List.foldlM_cons, delivered]
    exact all

/-- `apply_ui_events` on a ring with messages that can be delivered delivers them all. -/
theorem applyUiEvents_deliverable {ring : ZixRing} {messages : List UiMessage} (prepared : proc.layout.Prepared)
    (small : ring.capacity < 2 ^ 32) (content : ring.content = stream UiMessage.encode messages)
    (deliverable : ∀ message ∈ messages, message.Deliverable proc.layout) (nframes : UInt32) :
    ∃ next, applyUiEvents proc ring nframes = some (.success, next, ⟨ring.capacity, [], Nat.zero_le _⟩) ∧
      messages.foldlM (deliver nframes) proc = some next ∧ next.layout = proc.layout := by
  obtain ⟨next, delivered, layout⟩ := deliverAll_deliverable prepared deliverable nframes
  refine ⟨next, ?_, delivered, layout⟩
  rw [applyUiEvents_stream nframes (fun message member => (deliverable message member).readable) small content,
    delivered]
  rfl

theorem jalvProcessActivate_queues (proc : JalvProcess) (urids : JalvURIDs) (midiBufSize : Nat)
    (updateFrames : UInt32) (contents : Nat → Memory Byte) (message : Memory Byte) :
    (jalvProcessActivate proc urids midiBufSize updateFrames contents message).Queues
      (fun _ => []) fun _ => [] := by
  intro index port found event input
  simp only [jalvProcessActivate, List.getElem?_mapIdx, Option.map_eq_some_iff] at found
  obtain ⟨before, _, rfl⟩ := found
  unfold activatePort at event input ⊢
  split at event
  · next kind =>
    rw [if_pos kind] at input ⊢
    have flow : before.flow = .input := input
    refine ⟨_, rfl, ?_, trivial⟩
    rw [decide_eq_true flow]
    exact lv2EvbufReset_sequence _
  · next other => exact absurd event other

theorem jalvProcessActivate_buffered (proc : JalvProcess) (urids : JalvURIDs) (midiBufSize : Nat)
    (updateFrames : UInt32) (contents : Nat → Memory Byte) (message : Memory Byte) :
    (jalvProcessActivate proc urids midiBufSize updateFrames contents message).layout.Buffered := by
  intro entry member event
  simp only [JalvProcess.layout, jalvProcessActivate, List.mem_map, List.mem_mapIdx] at member
  obtain ⟨_, ⟨index, inside, rfl⟩, rfl⟩ := member
  simp only [JalvProcessPort.layout, activatePort] at event ⊢
  split at event
  · next kind =>
    rw [if_pos kind]
    rfl
  · next other => exact absurd event other

end

end Jalv
