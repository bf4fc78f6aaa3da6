import Jalv.Event.Capacity

/-! What an event buffer contains.

A buffer in input mode holds a sequence of events. Writing at its end with room
for the event appends the event, and reading from the beginning returns them all.
-/

set_option autoImplicit false

namespace Jalv

open Foundation

def eventsSize (events : List AtomEvent) : Nat := (events.map eventFormat.stride).sum

@[simp] theorem eventsSize_nil : eventsSize [] = 0 := rfl

@[simp] theorem eventsSize_cons (event : AtomEvent) (rest : List AtomEvent) :
    eventsSize (event :: rest) = paddedEventSize event.atom.size.toNat + eventsSize rest := rfl

@[simp] theorem eventsSize_append (first second : List AtomEvent) :
    eventsSize (first ++ second) = eventsSize first + eventsSize second := by
  simp [eventsSize]

theorem eventsSize_mod (events : List AtomEvent) : eventsSize events % 8 = 0 := by
  induction events with
  | nil => rfl
  | cons event rest ih =>
    have multiple := paddedEventSize_mod event.atom.size.toNat
    rw [eventsSize_cons]
    omega

theorem length_le_eventsSize (events : List AtomEvent) : events.length ≤ eventsSize events := by
  induction events with
  | nil => exact Nat.le_refl _
  | cons event rest ih =>
    have bounds := paddedEventSize_bounds event.atom.size.toNat
    unfold sizeofAtomEvent at bounds
    rw [eventsSize_cons, List.length_cons]
    omega

/-- The buffer is a well-formed sequence of exactly these events. -/
structure LV2Evbuf.Sequence (evbuf : LV2Evbuf) (events : List AtomEvent) : Prop where
  type : evbuf.type = evbuf.atomSequence
  size : evbuf.size.toNat = 8 + eventsSize events
  held : eventFormat.Holds evbuf.contents 0 events (eventsSize events)

theorem lv2EvbufReset_sequence (evbuf : LV2Evbuf) : (lv2EvbufReset evbuf true).Sequence [] where
  type := rfl
  size := rfl
  held := .nil 0

def LV2EvbufIterator.AtEnd (iter : LV2EvbufIterator) : Prop := iter.offset.toNat + 8 = iter.evbuf.size.toNat

/-- Each of the events fits into a sequence when it is written behind the ones before it. -/
def EventsRoom (capacity : Nat) : Nat → List AtomEvent → Prop
  | _, [] => True
  | used, event :: rest => 16 + event.atom.size.toNat + (8 + used + 8) ≤ capacity ∧
      EventsRoom capacity (used + paddedEventSize event.atom.size.toNat) rest

theorem eventsRoom_append {capacity used : Nat} {first second : List AtomEvent} :
    EventsRoom capacity used (first ++ second) ↔
      EventsRoom capacity used first ∧ EventsRoom capacity (used + eventsSize first) second := by
  induction first generalizing used with
  | nil => simp [EventsRoom]
  | cons event rest ih =>
    rw [List.cons_append, EventsRoom, EventsRoom, ih, eventsSize_cons, and_assoc, ← Nat.add_assoc used]

def writeEvents (iter : LV2EvbufIterator) (events : List AtomEvent) : LV2EvbufIterator :=
  events.foldl (fun iter event => (lv2EvbufWrite iter event.frames event.atom).2) iter

@[simp] theorem writeEvents_nil (iter : LV2EvbufIterator) : writeEvents iter [] = iter := rfl

theorem writeEvents_append (iter : LV2EvbufIterator) (first second : List AtomEvent) :
    writeEvents iter (first ++ second) = writeEvents (writeEvents iter first) second :=
  List.foldl_append

@[simp] theorem writeEvents_capacity (iter : LV2EvbufIterator) (events : List AtomEvent) :
    (writeEvents iter events).evbuf.capacity = iter.evbuf.capacity := by
  induction events generalizing iter with
  | nil => rfl
  | cons event rest ih => exact (ih _).trans (lv2EvbufWrite_capacity iter event.frames event.atom)

theorem writeEvents_mode (iter : LV2EvbufIterator) (events : List AtomEvent) :
    (writeEvents iter events).evbuf.type = iter.evbuf.type ∧
      (writeEvents iter events).evbuf.atomSequence = iter.evbuf.atomSequence := by
  induction events generalizing iter with
  | nil => exact ⟨rfl, rfl⟩
  | cons event rest ih =>
    obtain ⟨type, sequence⟩ := ih (lv2EvbufWrite iter event.frames event.atom).2
    exact ⟨type.trans (lv2EvbufWrite_type _ _ _), sequence.trans (lv2EvbufWrite_atomSequence _ _ _)⟩

section

variable {evbuf : LV2Evbuf} {iter : LV2EvbufIterator} {events : List AtomEvent}

theorem LV2Evbuf.Sequence.begin (empty : evbuf.Sequence []) : (lv2EvbufBegin evbuf).AtEnd := by
  have size := empty.size
  rw [LV2EvbufIterator.AtEnd, lv2EvbufBegin, size]
  rfl

theorem LV2Evbuf.Sequence.end (holds : evbuf.Sequence events) :
    (lv2EvbufEnd evbuf).evbuf = evbuf ∧ (lv2EvbufEnd evbuf).AtEnd := by
  have size := holds.size
  have multiple := eventsSize_mod events
  have bound := evbuf.size.toNat_lt
  have offset : (UInt32.ofNat (eventsSize events)).toNat = eventsSize events := by
    rw [UInt32.toNat_ofNat', Nat.mod_eq_of_lt (by omega)]
  have found : lv2EvbufEnd evbuf = ⟨evbuf, UInt32.ofNat (eventsSize events)⟩ :=
    lv2EvbufEnd_offset holds.type (by omega) (by omega)
  rw [found]
  exact ⟨rfl, by simp only [LV2EvbufIterator.AtEnd]; omega⟩

theorem LV2Evbuf.Sequence.accept (holds : iter.evbuf.Sequence events) (atEnd : iter.AtEnd) {event : AtomEvent}
    (accepted : lv2EvbufAccepts iter.evbuf event.atom.size = true)
    (bound : iter.evbuf.size.toNat + paddedEventSize event.atom.size.toNat < 2 ^ 32) :
    (lv2EvbufWrite iter event.frames event.atom).2.evbuf.Sequence (events ++ [event]) ∧
      (lv2EvbufWrite iter event.frames event.atom).2.AtEnd := by
  have size := holds.size
  have start : iter.offset.toNat + 8 = iter.evbuf.size.toNat := atEnd
  obtain ⟨sizeAfter, offsetAfter, contents⟩ :=
    lv2EvbufWrite_accepted iter event.frames event.atom start accepted bound
  have place : iter.offset.toNat = eventsSize events := by omega
  have total : eventsSize (events ++ [event]) = eventsSize events + paddedEventSize event.atom.size.toNat := by
    rw [eventsSize_append, eventsSize_cons, eventsSize_nil, Nat.add_zero]
  refine ⟨⟨?_, by omega, ?_⟩, ?_⟩
  · rw [lv2EvbufWrite_type, lv2EvbufWrite_atomSequence, holds.type]
  · rw [contents, place, total]
    exact holds.held.snoc event
  · rw [LV2EvbufIterator.AtEnd]
    omega

theorem LV2Evbuf.Sequence.write (holds : iter.evbuf.Sequence events) (atEnd : iter.AtEnd) {event : AtomEvent}
    (room : EventsRoom iter.evbuf.capacity.toNat (eventsSize events) [event]) :
    (lv2EvbufWrite iter event.frames event.atom).2.evbuf.Sequence (events ++ [event]) ∧
      (lv2EvbufWrite iter event.frames event.atom).2.AtEnd := by
  have size := holds.size
  have capacity := iter.evbuf.capacity.toNat_lt
  have fits := room.1
  have bounds := paddedEventSize_bounds event.atom.size.toNat
  unfold sizeofAtomEvent at bounds
  exact holds.accept atEnd ((lv2EvbufAccepts_iff event.atom.size (by omega)).mpr (by omega)) (by omega)

theorem LV2Evbuf.Sequence.writeEvents (holds : iter.evbuf.Sequence events) (atEnd : iter.AtEnd)
    {written : List AtomEvent} (room : EventsRoom iter.evbuf.capacity.toNat (eventsSize events) written) :
    (Jalv.writeEvents iter written).evbuf.Sequence (events ++ written) := by
  induction written generalizing iter events with
  | nil => simpa using holds
  | cons event rest ih =>
    obtain ⟨first, others⟩ := room
    have room : EventsRoom iter.evbuf.capacity.toNat (eventsSize events) [event] := ⟨first, trivial⟩
    obtain ⟨next, nextEnd⟩ := holds.write atEnd room
    have appended := ih next nextEnd (by simpa using others)
    rwa [List.append_assoc, List.singleton_append] at appended

theorem lv2EvbufEventsFrom_eq {start : UInt32} {place stop fuel : Nat} (type : evbuf.type = evbuf.atomSequence)
    (held : eventFormat.Holds evbuf.contents place events stop) (begins : start.toNat = place)
    (ends : stop + 8 = evbuf.size.toNat) (enough : events.length < fuel) :
    lv2EvbufEventsFrom fuel ⟨evbuf, start⟩ = some events := by
  have bound := evbuf.size.toNat_lt
  have size : (lv2EvbufGetSize evbuf).toNat = stop := by
    simp only [lv2EvbufGetSize_sequence type, UInt32.toNat_sub, UInt32.reduceToNat]
    omega
  have valid (offset : UInt32) : lv2EvbufIsValid ⟨evbuf, offset⟩ = decide (offset.toNat < stop) := by
    simp only [lv2EvbufIsValid, UInt32.lt_iff_toNat_lt, size]
  -- The iterator follows the records of the region
  induction held generalizing start fuel with
  | nil place =>
    obtain ⟨fuel, rfl⟩ : ∃ less, fuel = less + 1 := ⟨fuel - 1, by simp only [List.length_nil] at enough; omega⟩
    simp [lv2EvbufEventsFrom, lv2EvbufGet, valid, begins]
  | @cons place stop event rest found tail ih =>
    obtain ⟨fuel, rfl⟩ : ∃ less, fuel = less + 1 := ⟨fuel - 1, by omega⟩
    have inside : place + paddedEventSize event.atom.size.toNat ≤ stop := tail.le
    have bounds := paddedEventSize_bounds event.atom.size.toNat
    unfold sizeofAtomEvent at bounds
    have here : lv2EvbufIsValid ⟨evbuf, start⟩ = true := by
      rw [valid, decide_eq_true_iff]
      omega
    have decoded : AtomEvent.decode evbuf.contents start.toNat = event := by
      rw [begins]
      exact eventFormat.decodes evbuf.contents place event found
    have bodySize : LV2EvbufIterator.bodySize ⟨evbuf, start⟩ = event.atom.size := by
      rw [← decoded]
      rfl
    have padded : (lv2AtomPadSize (16 + event.atom.size)).toNat = paddedEventSize event.atom.size.toNat :=
      toNat_padded (by omega)
    have next : lv2EvbufNext ⟨evbuf, start⟩ = ⟨evbuf, start + lv2AtomPadSize (16 + event.atom.size)⟩ := by
      simp only [lv2EvbufNext, here, if_true, bodySize]
    -- The padded event ends inside the sequence, so the offset does not overflow
    have behind : (start + lv2AtomPadSize (16 + event.atom.size)).toNat =
        place + paddedEventSize event.atom.size.toNat := by
      rw [UInt32.toNat_add, padded, begins, Nat.mod_eq_of_lt (by omega)]
    have others := ih behind ends (Nat.lt_of_succ_lt_succ enough) size valid
    have get : lv2EvbufGet ⟨evbuf, start⟩ = some event := by
      rw [lv2EvbufGet, if_pos here, decoded]
    rw [lv2EvbufEventsFrom, get]
    simp only [next, others, Option.map_some]

theorem LV2Evbuf.Sequence.read (holds : evbuf.Sequence events) : lv2EvbufEvents evbuf = some events := by
  have size := holds.size
  have bound := evbuf.size.toNat_lt
  have few := length_le_eventsSize events
  exact lv2EvbufEventsFrom_eq holds.type holds.held rfl (by omega) (by omega)

end

end Jalv
