import Jalv.Event.Buffer

/-! Whether the space check of the event buffer keeps its writes inside.

The check compares against the unpadded size of an event, while the size of the
sequence grows by the padded one. The capacities for which no history of
appends gets past the check wrongly are characterized exactly.
-/

set_option autoImplicit false

namespace Jalv

open Foundation

/-- Where an appending write takes its iterator from: the one carried on since
`lv2_evbuf_begin`, or a fresh one from `lv2_evbuf_end`. -/
inductive AppendFrom where
  | carried
  | fresh
  deriving DecidableEq, Repr

structure Append where
  source : AppendFrom
  frames : UInt32
  atom : Atom

namespace Append

def start (append : Append) (iter : LV2EvbufIterator) : LV2EvbufIterator :=
  match append.source with
  | .carried => iter
  | .fresh => lv2EvbufEnd iter.evbuf

def write (append : Append) (iter : LV2EvbufIterator) : Bool × LV2EvbufIterator :=
  lv2EvbufWrite (append.start iter) append.frames append.atom

/-- The write stays inside the allocation if it is accepted, and it is accepted
exactly when the event fits behind the sequence, computed over the integers. -/
structure Sound (append : Append) (iter : LV2EvbufIterator) : Prop where
  inside : (append.write iter).1 = true →
    (append.start iter).offset.toNat + 16 + append.atom.size.toNat ≤ iter.evbuf.allocated
  exact : (append.write iter).1 = true ↔
    (16 + append.atom.size.toNat : Int) ≤ iter.evbuf.capacity.toNat - 8 - iter.evbuf.size.toNat

end Append

def AppendsSound : LV2EvbufIterator → List Append → Prop
  | _, [] => True
  | iter, append :: rest => append.Sound iter ∧ AppendsSound (append.write iter).2 rest

def inputBegin (capacity : UInt32) (atomChunk atomSequence : URID) (contents : Memory Byte) :
    LV2EvbufIterator :=
  lv2EvbufBegin (lv2EvbufReset (lv2EvbufNew capacity atomChunk atomSequence contents) true)

/-- Capacities that no history of appends exhausts: multiples of the padding, and
those in which not even one empty event fits. -/
def PaddedCapacity (capacity : Nat) : Prop := 16 ≤ capacity ∧ (capacity % 8 = 0 ∨ capacity < 32)

structure Appending (iter : LV2EvbufIterator) : Prop where
  sequence : iter.evbuf.type = iter.evbuf.atomSequence
  atEnd : iter.offset.toNat + 8 = iter.evbuf.size.toNat
  aligned : iter.offset.toNat % 8 = 0
  room : iter.evbuf.size.toNat + 8 ≤ iter.evbuf.capacity.toNat

theorem appending_inputBegin (capacity : UInt32) (atomChunk atomSequence : URID)
    (contents : Memory Byte) (padded : PaddedCapacity capacity.toNat) :
    Appending (inputBegin capacity atomChunk atomSequence contents) where
  sequence := rfl
  atEnd := rfl
  aligned := rfl
  room := padded.1

theorem lv2EvbufEnd_offset {evbuf : LV2Evbuf} {offset : UInt32}
    (sequence : evbuf.type = evbuf.atomSequence) (atEnd : offset.toNat + 8 = evbuf.size.toNat)
    (aligned : offset.toNat % 8 = 0) : lv2EvbufEnd evbuf = ⟨evbuf, offset⟩ := by
  have bound := evbuf.size.toNat_lt
  have size : (lv2EvbufGetSize evbuf).toNat = offset.toNat := by
    simp only [lv2EvbufGetSize_sequence sequence, UInt32.toNat_sub, UInt32.reduceToNat]
    omega
  have same : lv2AtomPadSize (lv2EvbufGetSize evbuf) = offset := by
    apply UInt32.toNat_inj.mp
    rw [toNat_lv2AtomPadSize, size]
    omega
  rw [lv2EvbufEnd, same]

theorem Appending.start_eq {iter : LV2EvbufIterator} (appending : Appending iter) (append : Append) :
    append.start iter = iter := by
  unfold Append.start
  cases append.source with
  | carried => rfl
  | fresh => exact lv2EvbufEnd_offset appending.sequence appending.atEnd appending.aligned

theorem Appending.write_eq {iter : LV2EvbufIterator} (appending : Appending iter) (append : Append) :
    append.write iter = lv2EvbufWrite iter append.frames append.atom := by
  rw [Append.write, appending.start_eq]

theorem Appending.sound {iter : LV2EvbufIterator} (appending : Appending iter) (append : Append) :
    append.Sound iter := by
  have accepts := lv2EvbufAccepts_iff append.atom.size appending.room
  have atEnd := appending.atEnd
  have fst : (append.write iter).1 = lv2EvbufAccepts iter.evbuf append.atom.size := by
    rw [appending.write_eq, lv2EvbufWrite_fst]
  constructor
  · intro accepted
    rw [fst, accepts] at accepted
    rw [appending.start_eq, LV2Evbuf.allocated]
    omega
  · rw [fst, accepts]
    omega

theorem Appending.step {iter : LV2EvbufIterator} (appending : Appending iter) (append : Append)
    (padded : PaddedCapacity iter.evbuf.capacity.toNat) :
    Appending (append.write iter).2 := by
  rw [appending.write_eq]
  have accepts := lv2EvbufAccepts_iff append.atom.size appending.room
  have bounds := paddedEventSize_bounds append.atom.size.toNat
  have multiple := paddedEventSize_mod append.atom.size.toNat
  have atEnd := appending.atEnd
  have aligned := appending.aligned
  unfold sizeofAtomEvent at bounds
  cases accepted : lv2EvbufAccepts iter.evbuf append.atom.size with
  | false =>
    rw [lv2EvbufWrite_rejected accepted]
    exact appending
  | true =>
    have room := accepts.mp accepted
    obtain ⟨_, size, offset, _⟩ := lv2EvbufWrite_room iter append.frames append.atom atEnd room
    -- A capacity below 32 accepts nothing, so it is a multiple of 8 here,
    -- and a multiple of 8 with room for the event has room for its padding.
    have multiples : iter.evbuf.capacity.toNat % 8 = 0 := by
      rcases padded.2 with multiple | tiny
      · exact multiple
      · omega
    refine ⟨by simpa using appending.sequence, by omega, by omega, ?_⟩
    rw [lv2EvbufWrite_capacity]
    omega

theorem Appending.appendsSound {iter : LV2EvbufIterator} (appending : Appending iter)
    (padded : PaddedCapacity iter.evbuf.capacity.toNat) (appends : List Append) :
    AppendsSound iter appends := by
  induction appends generalizing iter with
  | nil => trivial
  | cons append rest ih =>
    refine ⟨appending.sound append, ih (appending.step append padded) ?_⟩
    rwa [appending.write_eq, lv2EvbufWrite_capacity]

def zeroAtom (size : UInt32) : Atom :=
  { size, type := 0, body := List.replicate size.toNat 0, sized := List.length_replicate }

def zeroAppend (size : UInt32) : Append := ⟨.carried, 0, zeroAtom size⟩

theorem not_sound_of_exhausted {iter : LV2EvbufIterator} (size : UInt32)
    (exhausted : iter.evbuf.capacity.toNat < iter.evbuf.size.toNat + 8) :
    ¬ (zeroAppend size).Sound iter := by
  intro sound
  have accepted : ((zeroAppend size).write iter).1 = true := by
    rw [Append.write, lv2EvbufWrite_fst]
    exact lv2EvbufAccepts_of_exhausted size exhausted
  have fits := sound.exact.mp accepted
  omega

/-- The longest event that fits into an empty sequence exhausts a capacity that is
not a multiple of 8, and any event after it is let through. -/
theorem not_appendsSound_of_unpadded (capacity : UInt32) (atomChunk atomSequence : URID)
    (contents : Memory Byte) (large : 32 ≤ capacity.toNat) (unpadded : capacity.toNat % 8 ≠ 0) :
    ¬ AppendsSound (inputBegin capacity atomChunk atomSequence contents)
      [zeroAppend (capacity - 32), zeroAppend 0] := by
  rintro ⟨_, second, _⟩
  refine not_sound_of_exhausted 0 ?_ second
  have bound := capacity.toNat_lt
  -- An event of this size fills the sequence up to its padding
  have longest : (capacity - 32).toNat = capacity.toNat - 32 := by
    simp only [UInt32.toNat_sub, UInt32.reduceToNat]
    omega
  have room : 16 + (zeroAtom (capacity - 32)).size.toNat + (8 + 8) ≤ capacity.toNat := by
    change 16 + (capacity - 32).toNat + (8 + 8) ≤ capacity.toNat
    omega
  have start : (zeroAppend (capacity - 32)).write (inputBegin capacity atomChunk atomSequence contents) =
      lv2EvbufWrite (inputBegin capacity atomChunk atomSequence contents) 0
        (zeroAtom (capacity - 32)) := rfl
  obtain ⟨_, size, _, _⟩ := lv2EvbufWrite_room
    (inputBegin capacity atomChunk atomSequence contents) 0 (zeroAtom (capacity - 32)) rfl room
  have bounds := paddedEventSize_bounds (zeroAtom (capacity - 32)).size.toNat
  have multiple := paddedEventSize_mod (zeroAtom (capacity - 32)).size.toNat
  rw [start, size, lv2EvbufWrite_capacity]
  change capacity.toNat < 8 + paddedEventSize (capacity - 32).toNat + 8
  change sizeofAtomEvent + (capacity - 32).toNat ≤ paddedEventSize (capacity - 32).toNat ∧ _ at bounds
  change paddedEventSize (capacity - 32).toNat % 8 = 0 at multiple
  unfold sizeofAtomEvent at bounds
  omega

/-- The space check is right for every history of appends exactly when the
capacity is a multiple of 8 from 16 on, or between 16 and 31. -/
theorem appendsSound_iff (capacity : UInt32) (atomChunk atomSequence : URID)
    (contents : Memory Byte) :
    (∀ appends, AppendsSound (inputBegin capacity atomChunk atomSequence contents) appends) ↔
      PaddedCapacity capacity.toNat := by
  constructor
  · intro sound
    have large : 16 ≤ capacity.toNat := by
      by_contra tiny
      exact not_sound_of_exhausted 0 (by change capacity.toNat < 8 + 8; omega) (sound [zeroAppend 0]).1
    refine ⟨large, ?_⟩
    by_contra unpadded
    exact not_appendsSound_of_unpadded capacity atomChunk atomSequence contents (by omega) (by omega)
      (sound _)
  · intro padded
    exact (appending_inputBegin capacity atomChunk atomSequence contents padded).appendsSound padded

/-- With 33 bytes, an event of one byte leaves a negative rest, and an event
of 100 bytes is then written past the 49 allocated content bytes. -/
theorem appendsSound_refuted :
    ¬ AppendsSound (inputBegin 33 1 2 fun _ => 0) [zeroAppend 1, zeroAppend 100] ∧
      ((zeroAppend 100).write ((zeroAppend 1).write (inputBegin 33 1 2 fun _ => 0)).2).1 = true ∧
      49 < ((zeroAppend 1).write (inputBegin 33 1 2 fun _ => 0)).2.offset.toNat + 16 + 100 := by
  refine ⟨?_, by decide, by decide⟩
  rintro ⟨_, second, _⟩
  exact not_sound_of_exhausted 100 (by decide) second

end Jalv
