import Jalv.Process.Receive
import Mathlib.Logic.Relation

/-! The loop of `apply_ui_events`, one step at a time.

Another thread may take steps between the read of a header, the read of what follows
it, and the effect of the message.
-/

set_option autoImplicit false

namespace Jalv

open Foundation

/-- Where the process thread is in the loop. Behind the read of a message, `i` is that of the next one. -/
inductive ApplyPlace where
  | scanning (i : Nat)
  | reading (i : Nat) (header : JalvMessageHeader)
  | received (i : Nat) (message : ReceivedMessage)
  | returned (status : JalvProcessStatus)
  deriving DecidableEq

structure ApplyLoop where
  nframes : UInt32
  space : Nat
  place : ApplyPlace
  deriving DecidableEq

namespace ApplyLoop

def start (ring : ZixRing) (nframes : UInt32) : ApplyLoop := ⟨nframes, ring.readSpace, .scanning 0⟩

def scan (loop : ApplyLoop) (i : Nat) (ring : ZixRing) : ApplyPlace × ZixRing :=
  if i < loop.space then
    let (bytes, ring) := ring.read sizeofHeader
    if bytes.length = sizeofHeader then (.reading i (.decode bytes), ring) else (.returned .badHeader, ring)
  else (.returned .success, ring)

/-- One step of the loop, which is over when it has returned. -/
def next (loop : ApplyLoop) (proc : JalvProcess) (ring : ZixRing) : Option (ApplyLoop × JalvProcess × ZixRing) :=
  match loop.place with
  | .scanning i =>
    let (place, ring) := loop.scan i ring
    some ({ loop with place }, proc, ring)
  | .reading i header =>
    match readUiMessage proc ring header with
    | none => none
    | some (.error status, proc, ring) => some ({ loop with place := .returned status }, proc, ring)
    | some (.ok message, proc, ring) =>
      some ({ loop with place := .received (i + (sizeofHeader + header.size.toNat)) message }, proc, ring)
  | .received i message =>
    (applyReceived proc loop.nframes message).map fun proc => ({ loop with place := .scanning i }, proc, ring)
  | .returned _ => none

def Step (before after : ApplyLoop × JalvProcess × ZixRing) : Prop :=
  before.1.next before.2.1 before.2.2 = some after

end ApplyLoop

section

variable {nframes : UInt32} {proc next : JalvProcess} {ring rest : ZixRing} {status : JalvProcessStatus}

/-- What the loop does is what its steps do, one after the other. -/
theorem applyUiEventsFrom_steps {space fuel i : Nat}
    (applied : applyUiEventsFrom nframes space fuel i proc ring = some (status, next, rest)) :
    Relation.ReflTransGen ApplyLoop.Step (⟨nframes, space, .scanning i⟩, proc, ring)
      (⟨nframes, space, .returned status⟩, next, rest) := by
  induction fuel generalizing i proc ring with
  | zero => cases applied
  | succ fuel ih =>
    rw [applyUiEventsFrom] at applied
    split at applied
    · next more =>
      dsimp only at applied
      split at applied
      · next whole =>
        have scanned : ApplyLoop.Step (⟨nframes, space, .scanning i⟩, proc, ring)
            (⟨nframes, space, .reading i (.decode (ring.read sizeofHeader).1)⟩, proc, (ring.read sizeofHeader).2) := by
          simp only [ApplyLoop.Step, ApplyLoop.next, ApplyLoop.scan, if_pos more, if_pos whole]
        refine .head scanned ?_
        split at applied
        · cases applied
        · next read =>
          cases applied
          refine .single ?_
          simp only [ApplyLoop.Step, ApplyLoop.next, read]
        · next _ received taken behind read =>
          split at applied
          · cases applied
          · next _ after applies =>
            let header := JalvMessageHeader.decode (ring.read sizeofHeader).1
            have reads : ApplyLoop.Step (⟨nframes, space, .reading i header⟩, proc, (ring.read sizeofHeader).2)
                (⟨nframes, space, .received (i + (sizeofHeader + header.size.toNat)) received⟩, taken, behind) := by
              simp only [ApplyLoop.Step, ApplyLoop.next, header, read]
            have effect : ApplyLoop.Step
                (⟨nframes, space, .received (i + (sizeofHeader + header.size.toNat)) received⟩, taken, behind)
                (⟨nframes, space, .scanning (i + (sizeofHeader + header.size.toNat))⟩, after, behind) := by
              simp only [ApplyLoop.Step, ApplyLoop.next, applies, Option.map_some]
            exact .head reads (.head effect (ih applied))
      · next short =>
        cases applied
        refine .single ?_
        simp only [ApplyLoop.Step, ApplyLoop.next, ApplyLoop.scan, if_pos more, if_neg short]
    · next stop =>
      cases applied
      refine .single ?_
      simp only [ApplyLoop.Step, ApplyLoop.next, ApplyLoop.scan, if_neg stop]

theorem ApplyLoop.scan_ne (loop : ApplyLoop) (i j : Nat) (ring : ZixRing) : (loop.scan i ring).1 ≠ .scanning j := by
  unfold scan
  split
  · dsimp only
    split <;> nofun
  · nofun

-- Each step leads to another place.
theorem ApplyLoop.Step.ne {before after : ApplyLoop × JalvProcess × ZixRing} (step : Step before after) :
    after.1 ≠ before.1 := by
  obtain ⟨⟨nframes, space, place⟩, proc, ring⟩ := before
  obtain ⟨after, rest⟩ := after
  rintro rfl
  cases place with
  | scanning i =>
    have place := congrArg (Option.map (·.1.place)) step
    exact scan_ne _ _ _ _ (Option.some.inj place)
  | reading i header =>
    simp only [Step, next] at step
    split at step <;> cases step
  | received i message =>
    obtain ⟨_, _, same⟩ := Option.map_eq_some_iff.mp step
    cases same
  | returned status => cases step

theorem applyUiEvents_steps (applied : applyUiEvents proc ring nframes = some (status, next, rest)) :
    Relation.ReflTransGen ApplyLoop.Step (.start ring nframes, proc, ring)
      (⟨nframes, ring.readSpace, .returned status⟩, next, rest) :=
  applyUiEventsFrom_steps applied

end

/-- The messages that the loop has yet to apply, one of which it may have begun to read. -/
def ApplyPlace.Pending (content : List Byte) (pending : List UiMessage) : ApplyPlace → Prop
  | .scanning _ | .returned _ => content = stream UiMessage.encode pending
  | .reading _ header => ∃ message rest, pending = message :: rest ∧ header = message.header ∧
      content = message.payload ++ stream UiMessage.encode rest ∧ message.encode.length < 2 ^ 32
  | .received _ taken => ∃ message rest, pending = message :: rest ∧ taken = .whole message ∧
      content = stream UiMessage.encode rest

/-- The process thread is not inside of a message. -/
def ApplyPlace.Whole : ApplyPlace → Prop
  | .scanning _ | .returned _ => True
  | .reading _ _ | .received _ _ => False

section

variable {loop after : ApplyLoop} {proc next : JalvProcess} {ring rest : ZixRing} {pending : List UiMessage}

theorem ApplyPlace.pending_of_whole {place : ApplyPlace} {content : List Byte} (whole : place.Whole) :
    place.Pending content pending ↔ content = stream UiMessage.encode pending := by
  cases place with
  | scanning | returned => exact Iff.rfl
  | reading | received => exact whole.elim

theorem ApplyPlace.Pending.unique {place : ApplyPlace} {content : List Byte} {other : List UiMessage}
    (waits : place.Pending content pending) (further : place.Pending content other) : pending = other := by
  cases place with
  | scanning | returned => exact UiMessage.stream_injective (Eq.trans (Eq.symm waits) further)
  | reading i header =>
    obtain ⟨message, rest, rfl, rfl, content, _⟩ := waits
    obtain ⟨first, others, rfl, same, again, _⟩ := further
    have encoded : message.encode ++ stream UiMessage.encode rest = first.encode ++ stream UiMessage.encode others := by
      rw [UiMessage.encode_eq, UiMessage.encode_eq, List.append_assoc, List.append_assoc, same, ← content, again]
    obtain ⟨rfl, left⟩ := UiMessage.prefixFree _ _ _ _ encoded
    rw [UiMessage.stream_injective left]
  | received i taken =>
    obtain ⟨message, rest, rfl, rfl, content⟩ := waits
    obtain ⟨first, others, rfl, same, again⟩ := further
    cases same
    rw [UiMessage.stream_injective (content.symm.trans again)]

theorem ApplyPlace.Pending.append {place : ApplyPlace} {content : List Byte} (waits : place.Pending content pending)
    (message : UiMessage) : place.Pending (content ++ message.encode) (pending ++ [message]) := by
  cases place with
  | scanning | returned =>
    have content : _ = stream UiMessage.encode pending := waits
    rw [content]
    exact (stream_concat _ _ _).symm
  | reading i header =>
    obtain ⟨first, others, rfl, same, content, bound⟩ := waits
    exact ⟨first, others ++ [message], rfl, same, by rw [content, stream_concat, List.append_assoc], bound⟩
  | received i received =>
    obtain ⟨first, others, rfl, same, content⟩ := waits
    exact ⟨first, others ++ [message], rfl, same, by rw [content, stream_concat]⟩

theorem ApplyLoop.scan_pending (loop : ApplyLoop) (i : Nat) (small : ring.capacity < 2 ^ 32)
    (content : ring.content = stream UiMessage.encode pending) :
    (loop.scan i ring).2.capacity = ring.capacity ∧
      (loop.scan i ring).1.Pending (loop.scan i ring).2.content pending := by
  by_cases more : i < loop.space
  · cases pending with
    | nil =>
      have short : ring.content.length < sizeofHeader := by
        rw [content, stream_nil, List.length_nil, sizeofHeader]
        omega
      rw [scan, if_pos more, Fifo.read_short short]
      exact ⟨rfl, content⟩
    | cons message others =>
      have front : ring.content = message.header.encode ++ (message.payload ++ stream UiMessage.encode others) := by
        rw [content, stream_cons, UiMessage.encode_eq, List.append_assoc]
      have bound : message.encode.length < 2 ^ 32 := encode_length_lt small content message List.mem_cons_self
      obtain ⟨headless, taken, capacity, behind⟩ := Fifo.read_prefix message.header.length_encode front
      simp only [scan, if_pos more, taken, JalvMessageHeader.length_encode, if_true, JalvMessageHeader.decode_encode]
      exact ⟨capacity, message, others, rfl, rfl, behind, bound⟩
  · rw [scan, if_neg more]
    exact ⟨rfl, content⟩

/-- A step of the loop: the first of the messages has its effect, or only the receive buffer changes. -/
inductive ApplyLoop.Effect (proc next : JalvProcess) (nframes : UInt32) (pending : List UiMessage) :
    List UiMessage → Prop where
  | reads (processMsg : List Byte) (same : next = { proc with processMsg }) : Effect proc next nframes pending pending
  | applies {message : UiMessage} {others : List UiMessage} (first : pending = message :: others)
      (effect : MessageEffect proc nframes next message) : Effect proc next nframes pending others

theorem ApplyLoop.next_effect (small : ring.capacity < 2 ^ 32) (waits : loop.place.Pending ring.content pending)
    (step : loop.next proc ring = some (after, next, rest)) :
    rest.capacity = ring.capacity ∧ ∃ left, Effect proc next loop.nframes pending left ∧
      after.place.Pending rest.content left := by
  unfold ApplyLoop.next at step
  split at step
  · next i place =>
    cases step
    rw [place] at waits
    obtain ⟨capacity, left⟩ := scan_pending loop i small waits
    exact ⟨capacity, pending, .reads proc.processMsg rfl, left⟩
  · next i header place =>
    rw [place] at waits
    obtain ⟨message, others, rfl, rfl, content, bound⟩ := waits
    by_cases readable : message.Readable proc.processMsgSize
    · obtain ⟨ring, read, capacity, behind⟩ := readUiMessage_payload readable content bound
      rw [read] at step
      cases step
      have received : ∃ processMsg, proc.receive message = { proc with processMsg } := by
        cases message <;> exact ⟨_, rfl⟩
      obtain ⟨processMsg, same⟩ := received
      exact ⟨capacity, _, .reads processMsg same, message, others, rfl, rfl, behind⟩
    · rw [readUiMessage_unreadable readable bound] at step
      cases step
  · next i received place =>
    rw [place] at waits
    obtain ⟨message, others, rfl, rfl, content⟩ := waits
    obtain ⟨applied, does, same⟩ := Option.map_eq_some_iff.mp step
    cases same
    exact ⟨rfl, others, .applies rfl (applyUiMessage_effect does), content⟩
  · cases step

end

end Jalv
