import Jalv.Event.Reading
import Jalv.Event.Sequence

/-! What is read from an event buffer after a history of appends.

The accepted events are read back as long as the size of the sequence stays below
`2 ^ 32`. The space check lets the size get there only in buffers that are nearly that
large and whose capacity is not a multiple of 8.
-/

set_option autoImplicit false

namespace Jalv

open Foundation

namespace Append

def event (append : Append) : AtomEvent := ⟨append.frames, append.atom⟩

/-- If the write is accepted, it stays inside the allocation. -/
def Inside (append : Append) (iter : LV2EvbufIterator) : Prop :=
  (append.write iter).1 = true →
    (append.start iter).offset.toNat + 16 + append.atom.size.toNat ≤ iter.evbuf.allocated

end Append

def AppendsInside : LV2EvbufIterator → List Append → Prop
  | _, [] => True
  | iter, append :: rest => append.Inside iter ∧ AppendsInside (append.write iter).2 rest

def writeAppends (iter : LV2EvbufIterator) (appends : List Append) : LV2EvbufIterator :=
  appends.foldl (fun iter append => (append.write iter).2) iter

def acceptedEvents : LV2EvbufIterator → List Append → List AtomEvent
  | _, [] => []
  | iter, append :: rest =>
    (if (append.write iter).1 then [append.event] else []) ++ acceptedEvents (append.write iter).2 rest

structure RoundTrips (iter : LV2EvbufIterator) (appends : List Append) : Prop where
  asserted : (writeAppends iter appends).evbuf.SizeAsserted
  read : lv2EvbufEvents (writeAppends iter appends).evbuf = some (acceptedEvents iter appends)

/-- Capacities for which the size of a sequence does not overflow: multiples of the padding, and those
that are far enough from `2 ^ 32`. -/
def ReadableCapacity (capacity : Nat) : Prop := capacity % 8 = 0 ∨ capacity + 32 ≤ 2 ^ 32

structure Appended (iter : LV2EvbufIterator) (events : List AtomEvent) : Prop where
  sequence : iter.evbuf.Sequence events
  atEnd : iter.AtEnd
  room : iter.evbuf.capacity.toNat % 8 = 0 → 16 ≤ iter.evbuf.capacity.toNat →
    iter.evbuf.size.toNat + 8 ≤ iter.evbuf.capacity.toNat

theorem appended_begin (evbuf : LV2Evbuf) : Appended (lv2EvbufBegin (lv2EvbufReset evbuf true)) [] where
  sequence := lv2EvbufReset_sequence evbuf
  atEnd := (lv2EvbufReset_sequence evbuf).begin
  room _ large := large

section

variable {iter : LV2EvbufIterator} {events : List AtomEvent}

theorem Appended.start_eq (appended : Appended iter events) (append : Append) : append.start iter = iter := by
  have size := appended.sequence.size
  have multiple := eventsSize_mod events
  have atEnd : iter.offset.toNat + 8 = iter.evbuf.size.toNat := appended.atEnd
  unfold Append.start
  cases append.source with
  | carried => rfl
  | fresh => exact lv2EvbufEnd_offset appended.sequence.type atEnd (by omega)

theorem Appended.write_eq (appended : Appended iter events) (append : Append) :
    append.write iter = lv2EvbufWrite iter append.frames append.atom := by
  rw [Append.write, appended.start_eq]

/-- An accepted event inside of the allocation leaves the size below `2 ^ 32`. -/
theorem Appended.bound (appended : Appended iter events) {append : Append} (inside : append.Inside iter)
    (readable : ReadableCapacity iter.evbuf.capacity.toNat)
    (accepted : lv2EvbufAccepts iter.evbuf append.atom.size = true) :
    iter.evbuf.size.toNat + paddedEventSize append.atom.size.toNat < 2 ^ 32 := by
  have size := appended.sequence.size
  have multiple := eventsSize_mod events
  have atEnd : iter.offset.toNat + 8 = iter.evbuf.size.toNat := appended.atEnd
  have capacity := iter.evbuf.capacity.toNat_lt
  have bounds := paddedEventSize_bounds append.atom.size.toNat
  have padding := paddedEventSize_mod append.atom.size.toNat
  unfold sizeofAtomEvent at bounds
  have within : iter.offset.toNat + 16 + append.atom.size.toNat ≤ iter.evbuf.capacity.toNat + 16 := by
    have reached := inside (by rw [appended.write_eq, lv2EvbufWrite_fst, accepted])
    rwa [appended.start_eq] at reached
  by_cases full : iter.evbuf.capacity.toNat % 8 = 0 ∧ 16 ≤ iter.evbuf.capacity.toNat
  · have room := appended.room full.1 full.2
    have fits := (lv2EvbufAccepts_iff append.atom.size room).mp accepted
    omega
  · unfold ReadableCapacity at readable
    omega

theorem Appended.write (appended : Appended iter events) {append : Append} (inside : append.Inside iter)
    (readable : ReadableCapacity iter.evbuf.capacity.toNat) :
    Appended (append.write iter).2 (events ++ if (append.write iter).1 then [append.event] else []) := by
  rw [appended.write_eq, lv2EvbufWrite_fst]
  cases accepted : lv2EvbufAccepts iter.evbuf append.atom.size with
  | false =>
    rw [lv2EvbufWrite_rejected accepted, if_neg Bool.false_ne_true, List.append_nil]
    exact appended
  | true =>
    have bound := appended.bound inside readable accepted
    have atEnd : iter.offset.toNat + 8 = iter.evbuf.size.toNat := appended.atEnd
    obtain ⟨sequence, behind⟩ := @LV2Evbuf.Sequence.accept iter events appended.sequence appended.atEnd
      append.event accepted bound
    obtain ⟨size, _⟩ := lv2EvbufWrite_accepted iter append.frames append.atom atEnd accepted bound
    refine ⟨sequence, behind, fun multiple large => ?_⟩
    rw [lv2EvbufWrite_capacity] at multiple large ⊢
    have fits := (lv2EvbufAccepts_iff append.atom.size (appended.room multiple large)).mp accepted
    have padding := paddedEventSize_mod append.atom.size.toNat
    have bounds := paddedEventSize_bounds append.atom.size.toNat
    have total := appended.sequence.size
    have aligned := eventsSize_mod events
    unfold sizeofAtomEvent at bounds
    omega

theorem Appended.writeAppends (appended : Appended iter events) {appends : List Append}
    (inside : AppendsInside iter appends) (readable : ReadableCapacity iter.evbuf.capacity.toNat) :
    Appended (Jalv.writeAppends iter appends) (events ++ acceptedEvents iter appends) := by
  induction appends generalizing iter events with
  | nil =>
    rw [acceptedEvents, List.append_nil]
    exact appended
  | cons append rest ih =>
    obtain ⟨first, others⟩ := inside
    have kept : (append.write iter).2.evbuf.capacity = iter.evbuf.capacity := by
      rw [appended.write_eq, lv2EvbufWrite_capacity]
    rw [acceptedEvents, ← List.append_assoc]
    exact ih (appended.write first readable) others (by rwa [kept])

end

/-- A size in the header that ends in the first event. -/
theorem lv2EvbufEvents_short {evbuf : LV2Evbuf} (short : (lv2EvbufGetSize evbuf).toNat ≤ 16)
    (far : 16 ≤ (lv2AtomPadSize (16 + (lv2EvbufBegin evbuf).bodySize)).toNat) :
    ∃ events, lv2EvbufEvents evbuf = some events ∧ events.length ≤ 1 := by
  have turns : lv2EvbufEvents evbuf = lv2EvbufEventsFrom (2 ^ 32 - 2 + 1 + 1) (lv2EvbufBegin evbuf) := rfl
  rw [turns]
  cases valid : lv2EvbufIsValid (lv2EvbufBegin evbuf) with
  | false => exact ⟨[], lv2EvbufEventsFrom_invalid valid, Nat.zero_le 1⟩
  | true =>
    have behind : lv2EvbufIsValid (lv2EvbufNext (lv2EvbufBegin evbuf)) = false := by
      rw [lv2EvbufNext, if_pos valid, lv2EvbufIsValid, decide_eq_false_iff_not, UInt32.lt_iff_toNat_lt]
      simp only [lv2EvbufBegin, UInt32.zero_add] at far ⊢
      omega
    rw [lv2EvbufEventsFrom_valid valid, lv2EvbufEventsFrom_invalid behind]
    exact ⟨_, rfl, Nat.le_refl 1⟩

section

variable (evbuf : LV2Evbuf)

theorem longest_size (large : 2 ^ 32 < evbuf.capacity.toNat + 32) :
    (zeroAppend (evbuf.capacity - 32)).atom.size.toNat = evbuf.capacity.toNat - 32 := by
  have bound := evbuf.capacity.toNat_lt
  change (evbuf.capacity - 32).toNat = _
  simp only [UInt32.toNat_sub, UInt32.reduceToNat]
  omega

/-- The longest event that is accepted fills the buffer up to its padding. -/
theorem longest_write (unpadded : evbuf.capacity.toNat % 8 ≠ 0) (large : 2 ^ 32 < evbuf.capacity.toNat + 32) :
    ∃ iter, (zeroAppend (evbuf.capacity - 32)).write (lv2EvbufBegin (lv2EvbufReset evbuf true)) = (true, iter) ∧
      iter.evbuf.Sequence [(zeroAppend (evbuf.capacity - 32)).event] ∧ iter.AtEnd ∧
      iter.evbuf.capacity = evbuf.capacity ∧ iter.evbuf.size.toNat = evbuf.capacity.toNat / 8 * 8 := by
  have start := appended_begin evbuf
  have bound := evbuf.capacity.toNat_lt
  have longest := longest_size evbuf large
  have padded : paddedEventSize (zeroAppend (evbuf.capacity - 32)).atom.size.toNat + 8 =
      evbuf.capacity.toNat / 8 * 8 := by
    rw [longest]
    unfold paddedEventSize sizeofAtomEvent
    omega
  have accepted : lv2EvbufAccepts (lv2EvbufReset evbuf true) (zeroAppend (evbuf.capacity - 32)).atom.size = true := by
    refine (lv2EvbufAccepts_iff _ ?_).mpr ?_
    · change 8 + 8 ≤ evbuf.capacity.toNat
      omega
    · change _ + (8 + 8) ≤ evbuf.capacity.toNat
      rw [longest]
      omega
  have fits : 8 + paddedEventSize (zeroAppend (evbuf.capacity - 32)).atom.size.toNat < 2 ^ 32 := by omega
  obtain ⟨sequence, atEnd⟩ := @LV2Evbuf.Sequence.accept _ [] start.sequence start.atEnd
    (zeroAppend (evbuf.capacity - 32)).event accepted fits
  obtain ⟨size, _⟩ := lv2EvbufWrite_accepted (lv2EvbufBegin (lv2EvbufReset evbuf true))
    (zeroAppend (evbuf.capacity - 32)).frames (zeroAppend (evbuf.capacity - 32)).atom start.atEnd accepted fits
  refine ⟨_, ?_, sequence, atEnd, lv2EvbufWrite_capacity _ _ _, ?_⟩
  · rw [Append.write, Append.start]
    exact Prod.ext ((lv2EvbufWrite_fst _ _ _).trans accepted) rfl
  · change _ = 8 + _ at size
    exact size.trans (by omega)

def LV2EvbufIterator.overflown (iter : LV2EvbufIterator) : LV2Evbuf :=
  { iter.evbuf with
    size := iter.evbuf.size + 32
    contents := iter.evbuf.contents.store iter.offset.toNat (zeroAppend 9).event.encode }

theorem overflown_write {iter : LV2EvbufIterator} (accepted : lv2EvbufAccepts iter.evbuf 9 = true) :
    (zeroAppend 9).write iter = (true, ⟨iter.overflown, iter.offset + 32⟩) := by
  have padded : lv2AtomPadSize (16 + 9) = 32 := by decide
  have nine : (zeroAtom 9).size = 9 := rfl
  have write : (zeroAppend 9).write iter = lv2EvbufWrite iter 0 (zeroAtom 9) := rfl
  rw [write, lv2EvbufWrite, nine, if_pos accepted, padded]
  rfl

/-- The first event is still in front of the second one, and its size is read. -/
theorem overflown_bodySize {iter : LV2EvbufIterator} {append : Append}
    (sequence : iter.evbuf.Sequence [append.event]) (front : 12 ≤ iter.offset.toNat) :
    (lv2EvbufBegin iter.overflown).bodySize = append.atom.size := by
  have behind : iter.overflown.contents.load (0 + 8) 4 = iter.evbuf.contents.load (0 + 8) 4 :=
    Memory.load_store_disjoint iter.evbuf.contents (Or.inl front)
  cases sequence.held with
  | cons found _ =>
    have sizeWord : iter.overflown.contents.load (0 + 8) 4 = word append.atom.size :=
      behind.trans (AtomEvent.load_encode found).2.1
    rw [LV2EvbufIterator.bodySize]
    exact (congrArg wordValue sizeWord).trans (wordValue_word _)

/-- Behind it, one more event of 9 bytes is accepted inside of the allocation, and the size overflows. -/
theorem not_roundTrips (unpadded : evbuf.capacity.toNat % 8 ≠ 0) (large : 2 ^ 32 < evbuf.capacity.toNat + 32) :
    AppendsInside (lv2EvbufBegin (lv2EvbufReset evbuf true)) [zeroAppend (evbuf.capacity - 32), zeroAppend 9] ∧
      ¬RoundTrips (lv2EvbufBegin (lv2EvbufReset evbuf true)) [zeroAppend (evbuf.capacity - 32), zeroAppend 9] := by
  have bound := evbuf.capacity.toNat_lt
  have longest := longest_size evbuf large
  obtain ⟨iter, first, sequence, atEnd, capacity, size⟩ := longest_write evbuf unpadded large
  have place : iter.offset.toNat + 8 = iter.evbuf.size.toNat := atEnd
  have accepted : lv2EvbufAccepts iter.evbuf 9 = true :=
    lv2EvbufAccepts_of_exhausted 9 (by rw [capacity]; omega)
  have second := overflown_write accepted
  refine ⟨⟨fun _ => ?_, ?_, trivial⟩, ?_⟩
  · rw [longest]
    change 0 + 16 + _ ≤ evbuf.capacity.toNat + 16
    omega
  · rw [first]
    intro _
    change iter.offset.toNat + 16 + 9 ≤ iter.evbuf.capacity.toNat + 16
    rw [capacity]
    omega
  · rintro ⟨asserted, read⟩
    have final : writeAppends (lv2EvbufBegin (lv2EvbufReset evbuf true))
        [zeroAppend (evbuf.capacity - 32), zeroAppend 9] = ⟨iter.overflown, iter.offset + 32⟩ := by
      simp only [writeAppends, List.foldl_cons, List.foldl_nil, first, second]
    have accepts : acceptedEvents (lv2EvbufBegin (lv2EvbufReset evbuf true))
        [zeroAppend (evbuf.capacity - 32), zeroAppend 9] =
          [(zeroAppend (evbuf.capacity - 32)).event, (zeroAppend 9).event] := by
      simp [acceptedEvents, first, second]
    rw [final] at asserted read
    rw [accepts] at read
    have type : iter.overflown.type = iter.overflown.atomSequence := sequence.type
    have overflown : iter.overflown.size.toNat + 2 ^ 32 = evbuf.capacity.toNat / 8 * 8 + 32 := by
      change (iter.evbuf.size + 32).toNat + _ = _
      simp only [UInt32.toNat_add, UInt32.reduceToNat]
      omega
    have sized : 8 ≤ iter.overflown.size.toNat := asserted type
    have far : 16 ≤ (lv2AtomPadSize (16 + (lv2EvbufBegin iter.overflown).bodySize)).toNat := by
      rw [overflown_bodySize sequence (by omega), toNat_lv2AtomPadSize, UInt32.toNat_add, longest]
      simp only [UInt32.reduceToNat]
      omega
    have short : (lv2EvbufGetSize iter.overflown).toNat ≤ 16 := by
      rw [lv2EvbufGetSize_sequence type, UInt32.toNat_sub]
      simp only [UInt32.reduceToNat]
      omega
    obtain ⟨events, found, few⟩ := lv2EvbufEvents_short short far
    have both : events = _ := Option.some.inj (found.symm.trans read)
    rw [both] at few
    exact Nat.not_succ_le_self 1 few

end

theorem Appended.roundTrips {evbuf : LV2Evbuf} (readable : ReadableCapacity evbuf.capacity.toNat)
    {appends : List Append}
    (inside : AppendsInside (lv2EvbufBegin (lv2EvbufReset evbuf true)) appends) :
    RoundTrips (lv2EvbufBegin (lv2EvbufReset evbuf true)) appends := by
  have appended := (appended_begin evbuf).writeAppends inside readable
  have size := appended.sequence.size
  exact ⟨fun _ => by omega, appended.sequence.read⟩

/-- A rejected write changes nothing. The accepted events are read back from all buffers
but those whose capacity is within 31 bytes of `2 ^ 32` and not a multiple of 8. -/
theorem roundTrips_iff (evbuf : LV2Evbuf) :
    (∀ iter frames atom, (lv2EvbufWrite iter frames atom).1 = false → (lv2EvbufWrite iter frames atom).2 = iter) ∧
      ((∀ appends, AppendsInside (lv2EvbufBegin (lv2EvbufReset evbuf true)) appends →
          RoundTrips (lv2EvbufBegin (lv2EvbufReset evbuf true)) appends) ↔
        ReadableCapacity evbuf.capacity.toNat) := by
  refine ⟨fun iter frames atom rejected => ?_, fun trips => ?_, fun readable appends => Appended.roundTrips readable⟩
  · rw [lv2EvbufWrite_fst] at rejected
    rw [lv2EvbufWrite_rejected rejected]
  · by_contra unreadable
    unfold ReadableCapacity at unreadable
    obtain ⟨inside, lost⟩ := not_roundTrips evbuf (by omega) (by omega)
    exact lost (trips _ inside)

/-- A buffer of `2 ^ 32 - 1` bytes: the second event makes the size overflow to 24. -/
theorem roundTrips_refuted : ∃ appends : List Append,
    AppendsInside (lv2EvbufBegin (lv2EvbufReset (lv2EvbufNew 0xFFFFFFFF 1 2 fun _ => 0) true)) appends ∧
      ¬RoundTrips (lv2EvbufBegin (lv2EvbufReset (lv2EvbufNew 0xFFFFFFFF 1 2 fun _ => 0) true)) appends :=
  ⟨_, not_roundTrips (lv2EvbufNew 0xFFFFFFFF 1 2 fun _ => 0) (by decide) (by decide)⟩

end Jalv
