import Jalv.Process.Queues

/-! The events of messages that find room in the buffers of their ports.

Messages are applied in order, and an event that the space check rejects is dropped.
The buffers hold the accepted events as long as the check itself does not overflow.
-/

set_option autoImplicit false

namespace Jalv

open Foundation

def JalvProcess.buffer (proc : JalvProcess) (index : Nat) : Option LV2Evbuf := proc.ports[index]?.bind (·.evbuf)

def JalvProcess.accepts (proc : JalvProcess) (index : Nat) (event : AtomEvent) : Bool :=
  (proc.buffer index).any fun evbuf => lv2EvbufAccepts evbuf event.atom.size

def acceptedEventsFrom (nframes : UInt32) : JalvProcess → List UiMessage → Nat → List AtomEvent
  | _, [], _ => []
  | proc, message :: rest, index =>
    (message.events proc nframes index).filter (proc.accepts index) ++
      match deliver nframes proc message with
      | some next => acceptedEventsFrom nframes next rest index
      | none => []

/-- No event goes to a buffer in which the remaining space is negative, where the space
check lets everything through. -/
def SpaceChecked (nframes : UInt32) : JalvProcess → List UiMessage → Prop
  | _, [] => True
  | proc, message :: rest =>
    (∀ index evbuf, message.events proc nframes index ≠ [] → proc.buffer index = some evbuf →
        evbuf.size.toNat + 8 ≤ evbuf.capacity.toNat) ∧
      ∀ next, deliver nframes proc message = some next → SpaceChecked nframes next rest

section

variable {proc next : JalvProcess} {held : Nat → List AtomEvent} {nframes : UInt32}

theorem JalvProcess.Queues.await_one (queues : proc.Queues held fun _ => []) {index : Nat} {event : AtomEvent}
    (accepted : proc.accepts index event = true)
    (checked : ∀ evbuf, proc.buffer index = some evbuf → evbuf.size.toNat + 8 ≤ evbuf.capacity.toNat) :
    proc.Queues held fun other => (if index = other then [event] else []) ++ [] := by
  intro other port found kind input
  obtain ⟨evbuf, buffer, holds, _⟩ := queues other port found kind input
  refine ⟨evbuf, buffer, holds, ?_⟩
  simp only [List.append_nil]
  by_cases same : index = other
  · subst same
    have here : proc.buffer index = some evbuf := by rw [JalvProcess.buffer, found, Option.bind_some, buffer]
    rw [JalvProcess.accepts, here, Option.any_some] at accepted
    have fits := (lv2EvbufAccepts_iff event.atom.size (checked evbuf here)).mp accepted
    have size := holds.size
    rw [if_pos rfl]
    exact ⟨by omega, trivial⟩
  · rw [if_neg same]
    trivial

theorem appendEvent_rejected {index : Nat} {atom : Atom} (rejected : proc.accepts index ⟨nframes, atom⟩ = false)
    (appended : appendEvent proc index nframes atom = some next) : next.ports = proc.ports := by
  obtain ⟨port, evbuf, found, buffer, rfl⟩ := appendEvent_cases appended
  obtain ⟨inside, here⟩ := List.getElem?_eq_some_iff.mp found
  have check : lv2EvbufAccepts (lv2EvbufEnd evbuf).evbuf atom.size = false := by
    rw [JalvProcess.accepts, JalvProcess.buffer, found, Option.bind_some, buffer] at rejected
    exact rejected
  have kept : ({ port with evbuf := some (lv2EvbufEnd evbuf).evbuf } : JalvProcessPort) = port := by
    rw [lv2EvbufEnd, ← buffer]
  rw [lv2EvbufWrite_rejected check, JalvProcess.setEvbuf, kept, ← here, List.set_getElem_self]

/-- An event is appended to the buffer of its port if it is accepted. -/
theorem appendEvent_accepted {index : Nat} {atom : Atom} (queues : proc.Queues held fun _ => [])
    (checked : ∀ evbuf, proc.buffer index = some evbuf → evbuf.size.toNat + 8 ≤ evbuf.capacity.toNat)
    (appended : appendEvent proc index nframes atom = some next) :
    next.Queues (fun other => held other ++
      (if index = other then [⟨nframes, atom⟩] else []).filter (proc.accepts other)) fun _ => [] := by
  cases accepted : proc.accepts index ⟨nframes, atom⟩ with
  | true =>
    have all (other : Nat) :
        (if index = other then [(⟨nframes, atom⟩ : AtomEvent)] else []).filter (proc.accepts other) =
        if index = other then [⟨nframes, atom⟩] else [] := by
      split
      · next same => rw [← same, List.filter_cons_of_pos accepted, List.filter_nil]
      · rfl
    simp only [all]
    exact appendEvent_queues (queues.await_one accepted checked) appended
  | false =>
    have none (other : Nat) :
        (if index = other then [(⟨nframes, atom⟩ : AtomEvent)] else []).filter (proc.accepts other) = [] := by
      split
      · next same =>
        rw [← same]
        exact List.filter_cons_of_neg (by simp [accepted])
      · rfl
    simp only [none, List.append_nil]
    exact queues.same_ports (appendEvent_rejected accepted appended)

theorem deliver_accepted {message : UiMessage} (queues : proc.Queues held fun _ => [])
    (checked : ∀ index evbuf, message.events proc nframes index ≠ [] → proc.buffer index = some evbuf →
      evbuf.size.toNat + 8 ≤ evbuf.capacity.toNat)
    (delivered : deliver nframes proc message = some next) :
    next.Queues (fun index => held index ++ (message.events proc nframes index).filter (proc.accepts index))
      fun _ => [] := by
  have received : (proc.receive message).Queues held fun _ => [] := queues.same_ports (by cases message <;> rfl)
  cases applyUiMessage_effect delivered with
  | controlPortChange _ same =>
    simp only [UiMessage.events, List.filter_nil, List.append_nil]
    exact received.same_ports (by rw [same])
  | runStateChange same =>
    simp only [UiMessage.events, List.filter_nil, List.append_nil]
    exact received.same_ports (by rw [same])
  -- Receiving a message changes no buffer
  | @eventTransfer portIndex atom appended =>
    have own (evbuf : LV2Evbuf) (buffer : proc.buffer portIndex.toNat = some evbuf) :=
      checked portIndex.toNat evbuf (by simp [UiMessage.events]) buffer
    have written := @appendEvent_accepted (proc.receive (.eventTransfer portIndex atom)) _ _ _ _ _ received own appended
    exact written
  | stateRequest _ _ _ appended =>
    have own (evbuf : LV2Evbuf) (buffer : proc.buffer proc.controlIn.toNat = some evbuf) :=
      checked proc.controlIn.toNat evbuf (by simp [UiMessage.events]) buffer
    exact appendEvent_accepted received own appended

theorem deliverAll_accepted {messages : List UiMessage} (queues : proc.Queues held fun _ => [])
    (checked : SpaceChecked nframes proc messages)
    (delivered : messages.foldlM (deliver nframes) proc = some next) :
    next.Queues (fun index => held index ++ acceptedEventsFrom nframes proc messages index) fun _ => [] := by
  induction messages generalizing proc held with
  | nil =>
    cases delivered
    simpa only [acceptedEventsFrom, List.append_nil] using queues
  | cons message rest ih =>
    rw [List.foldlM_cons] at delivered
    obtain ⟨middle, first, others⟩ := Option.bind_eq_some_iff.mp delivered
    have appended := ih (deliver_accepted queues checked.1 first) (checked.2 middle first) others
    simpa only [acceptedEventsFrom, first, List.append_assoc] using appended

end

end Jalv
