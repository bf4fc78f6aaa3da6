import Jalv.Event.Atom

/-! The event buffer of an atom port (`lv2_evbuf.c`).

The contents are the bytes behind the `LV2_Atom_Sequence` header. The buffer is
allocated with `capacity + 16` of them. Nothing here checks that a write stays
inside that allocation: the only check is the one the code makes.
-/

set_option autoImplicit false

namespace Jalv

open Foundation

/-- `LV2_Evbuf_Impl`, with the atom header of `buf` as the fields `size` and `type`. -/
structure LV2Evbuf where
  capacity : UInt32
  atomChunk : URID
  atomSequence : URID
  size : UInt32
  type : URID
  contents : Memory Byte

def LV2Evbuf.allocated (evbuf : LV2Evbuf) : Nat := evbuf.capacity.toNat + 16

structure LV2EvbufIterator where
  evbuf : LV2Evbuf
  offset : UInt32

def lv2EvbufNew (capacity : UInt32) (atomChunk atomSequence : URID) (contents : Memory Byte) :
    LV2Evbuf :=
  { capacity, atomChunk, atomSequence, size := 0, type := 0, contents }

def lv2EvbufReset (evbuf : LV2Evbuf) (input : Bool) : LV2Evbuf :=
  if input then { evbuf with size := 8, type := evbuf.atomSequence }
  else { evbuf with size := evbuf.capacity, type := evbuf.atomChunk }

def lv2EvbufGetSize (evbuf : LV2Evbuf) : UInt32 :=
  if evbuf.type = evbuf.atomSequence then evbuf.size - 8 else 0

def lv2EvbufGetCapacity (evbuf : LV2Evbuf) : UInt32 := evbuf.capacity

def lv2EvbufBegin (evbuf : LV2Evbuf) : LV2EvbufIterator := ⟨evbuf, 0⟩

def lv2EvbufEnd (evbuf : LV2Evbuf) : LV2EvbufIterator :=
  ⟨evbuf, lv2AtomPadSize (lv2EvbufGetSize evbuf)⟩

def lv2EvbufIsValid (iter : LV2EvbufIterator) : Bool := iter.offset < lv2EvbufGetSize iter.evbuf

def LV2EvbufIterator.bodySize (iter : LV2EvbufIterator) : UInt32 :=
  wordValue (iter.evbuf.contents.load (iter.offset.toNat + 8) 4)

def lv2EvbufNext (iter : LV2EvbufIterator) : LV2EvbufIterator :=
  if lv2EvbufIsValid iter then
    { iter with offset := iter.offset + lv2AtomPadSize (16 + iter.bodySize) }
  else iter

/-- The event at an iterator. The subframes that the code reports are always zero. -/
def lv2EvbufGet (iter : LV2EvbufIterator) : Option AtomEvent :=
  if lv2EvbufIsValid iter then some (AtomEvent.decode iter.evbuf.contents iter.offset.toNat) else none

/-- Whether the space check lets a write of `size` bytes through. The unsigned
subtraction is done in `size_t`, on the size of the event before padding. -/
def lv2EvbufAccepts (evbuf : LV2Evbuf) (size : UInt32) : Bool :=
  !(evbuf.capacity.toUInt64 - 8 - evbuf.size.toUInt64 < 16 + size.toUInt64)

def lv2EvbufWrite (iter : LV2EvbufIterator) (frames : UInt32) (atom : Atom) : Bool × LV2EvbufIterator :=
  if lv2EvbufAccepts iter.evbuf atom.size then
    let size := lv2AtomPadSize (16 + atom.size)
    let contents := iter.evbuf.contents.store iter.offset.toNat (AtomEvent.encode ⟨frames, atom⟩)
    (true, ⟨{ iter.evbuf with size := iter.evbuf.size + size, contents }, iter.offset + size⟩)
  else (false, iter)

/-- The loop `for (i = begin; is_valid (i); i = next (i)) get (i)`. An offset can
take at most `2 ^ 32` values, so a loop that needs more steps never ends. -/
def lv2EvbufEventsFrom : Nat → LV2EvbufIterator → Option (List AtomEvent)
  | 0, _ => none
  | fuel + 1, iter =>
    match lv2EvbufGet iter with
    | some event => (lv2EvbufEventsFrom fuel (lv2EvbufNext iter)).map (event :: ·)
    | none => some []

def lv2EvbufEvents (evbuf : LV2Evbuf) : Option (List AtomEvent) :=
  lv2EvbufEventsFrom (2 ^ 32) (lv2EvbufBegin evbuf)

@[simp] theorem lv2EvbufReset_capacity (evbuf : LV2Evbuf) (input : Bool) :
    (lv2EvbufReset evbuf input).capacity = evbuf.capacity := by
  cases input <;> rfl

theorem lv2EvbufGetSize_sequence {evbuf : LV2Evbuf} (sequence : evbuf.type = evbuf.atomSequence) :
    lv2EvbufGetSize evbuf = evbuf.size - 8 := by
  rw [lv2EvbufGetSize, if_pos sequence]

-- While the remaining space is not negative, the check compares integers.
theorem lv2EvbufAccepts_iff {evbuf : LV2Evbuf} (size : UInt32)
    (room : evbuf.size.toNat + 8 ≤ evbuf.capacity.toNat) :
    lv2EvbufAccepts evbuf size = true ↔
      16 + size.toNat + (evbuf.size.toNat + 8) ≤ evbuf.capacity.toNat := by
  have capacity := evbuf.capacity.toNat_lt
  have used := evbuf.size.toNat_lt
  have asked := size.toNat_lt
  simp only [lv2EvbufAccepts, Bool.not_eq_true', decide_eq_false_iff_not, UInt64.not_lt,
    UInt64.le_iff_toNat_le, UInt64.toNat_sub, UInt64.toNat_add, UInt32.toNat_toUInt64,
    UInt64.reduceToNat]
  omega

/-- Once the remaining space is negative it wraps around, and every write is let through. -/
theorem lv2EvbufAccepts_of_exhausted {evbuf : LV2Evbuf} (size : UInt32)
    (exhausted : evbuf.capacity.toNat < evbuf.size.toNat + 8) :
    lv2EvbufAccepts evbuf size = true := by
  have capacity := evbuf.capacity.toNat_lt
  have used := evbuf.size.toNat_lt
  have asked := size.toNat_lt
  simp only [lv2EvbufAccepts, Bool.not_eq_true', decide_eq_false_iff_not, UInt64.not_lt,
    UInt64.le_iff_toNat_le, UInt64.toNat_sub, UInt64.toNat_add, UInt32.toNat_toUInt64,
    UInt64.reduceToNat]
  omega

theorem toNat_padded {size : UInt32} (bound : size.toNat + 24 ≤ 2 ^ 32) :
    (lv2AtomPadSize (16 + size)).toNat = paddedEventSize size.toNat := by
  simp only [toNat_lv2AtomPadSize, UInt32.toNat_add, UInt32.reduceToNat, paddedEventSize, sizeofAtomEvent]
  omega

theorem lv2EvbufWrite_rejected {iter : LV2EvbufIterator} {frames : UInt32} {atom : Atom}
    (full : lv2EvbufAccepts iter.evbuf atom.size = false) :
    lv2EvbufWrite iter frames atom = (false, iter) := by
  simp [lv2EvbufWrite, full]

theorem lv2EvbufWrite_fst (iter : LV2EvbufIterator) (frames : UInt32) (atom : Atom) :
    (lv2EvbufWrite iter frames atom).1 = lv2EvbufAccepts iter.evbuf atom.size := by
  unfold lv2EvbufWrite
  cases lv2EvbufAccepts iter.evbuf atom.size <;> rfl

@[simp] theorem lv2EvbufWrite_capacity (iter : LV2EvbufIterator) (frames : UInt32) (atom : Atom) :
    (lv2EvbufWrite iter frames atom).2.evbuf.capacity = iter.evbuf.capacity := by
  unfold lv2EvbufWrite
  split <;> rfl

@[simp] theorem lv2EvbufWrite_atomSequence (iter : LV2EvbufIterator) (frames : UInt32) (atom : Atom) :
    (lv2EvbufWrite iter frames atom).2.evbuf.atomSequence = iter.evbuf.atomSequence := by
  unfold lv2EvbufWrite
  split <;> rfl

@[simp] theorem lv2EvbufWrite_type (iter : LV2EvbufIterator) (frames : UInt32) (atom : Atom) :
    (lv2EvbufWrite iter frames atom).2.evbuf.type = iter.evbuf.type := by
  unfold lv2EvbufWrite
  split <;> rfl

/-- A write that is let through advances the sequence and the iterator, as far as 32 bits reach. -/
theorem lv2EvbufWrite_accepted (iter : LV2EvbufIterator) (frames : UInt32) (atom : Atom)
    (end' : iter.offset.toNat + 8 = iter.evbuf.size.toNat)
    (accepted : lv2EvbufAccepts iter.evbuf atom.size = true)
    (bound : iter.evbuf.size.toNat + paddedEventSize atom.size.toNat < 2 ^ 32) :
    (lv2EvbufWrite iter frames atom).2.evbuf.size.toNat =
        iter.evbuf.size.toNat + paddedEventSize atom.size.toNat ∧
      (lv2EvbufWrite iter frames atom).2.offset.toNat =
        iter.offset.toNat + paddedEventSize atom.size.toNat ∧
      (lv2EvbufWrite iter frames atom).2.evbuf.contents =
        iter.evbuf.contents.store iter.offset.toNat (AtomEvent.encode ⟨frames, atom⟩) := by
  have bounds := paddedEventSize_bounds atom.size.toNat
  have multiple := paddedEventSize_mod atom.size.toNat
  unfold sizeofAtomEvent at bounds
  have padded : (lv2AtomPadSize (16 + atom.size)).toNat = paddedEventSize atom.size.toNat :=
    toNat_padded (by omega)
  simp only [lv2EvbufWrite, accepted, if_true, UInt32.toNat_add, padded, and_true]
  constructor <;> exact Nat.mod_eq_of_lt (by omega)

theorem lv2EvbufWrite_room (iter : LV2EvbufIterator) (frames : UInt32) (atom : Atom)
    (end' : iter.offset.toNat + 8 = iter.evbuf.size.toNat)
    (room : 16 + atom.size.toNat + (iter.evbuf.size.toNat + 8) ≤ iter.evbuf.capacity.toNat) :
    (lv2EvbufWrite iter frames atom).1 = true ∧
      (lv2EvbufWrite iter frames atom).2.evbuf.size.toNat =
        iter.evbuf.size.toNat + paddedEventSize atom.size.toNat ∧
      (lv2EvbufWrite iter frames atom).2.offset.toNat =
        iter.offset.toNat + paddedEventSize atom.size.toNat ∧
      (lv2EvbufWrite iter frames atom).2.evbuf.contents =
        iter.evbuf.contents.store iter.offset.toNat (AtomEvent.encode ⟨frames, atom⟩) := by
  have capacity := iter.evbuf.capacity.toNat_lt
  have accepted := (lv2EvbufAccepts_iff atom.size (by omega)).mpr room
  have bounds := paddedEventSize_bounds atom.size.toNat
  unfold sizeofAtomEvent at bounds
  exact ⟨(lv2EvbufWrite_fst iter frames atom).trans accepted,
    lv2EvbufWrite_accepted iter frames atom end' accepted (by omega)⟩

end Jalv
