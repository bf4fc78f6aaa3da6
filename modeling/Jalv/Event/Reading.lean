import Jalv.Event.Buffer

/-! Reading an event buffer with contents of any kind, as a plugin may leave them.

The loop over the events follows sizes that it reads from the buffer, in 32 bits. It
ends, with all events inside of the capacity, exactly if the same sizes do not lead
out of the capacity when they are added up as integers.
-/

set_option autoImplicit false

namespace Jalv

open Foundation

namespace LV2Evbuf

def SizeAsserted (evbuf : LV2Evbuf) : Prop := evbuf.type = evbuf.atomSequence → 8 ≤ evbuf.size.toNat

def turn (evbuf : LV2Evbuf) (count : Nat) : LV2EvbufIterator := lv2EvbufNext^[count] (lv2EvbufBegin evbuf)

/-- The loop over the events ends, its offset grows in each turn, and each event that it
reports has its header and its body inside of the capacity. The capacity is the largest
size of the sequence, with the 8 bytes before its first event. -/
structure ReadsInside (evbuf : LV2Evbuf) : Prop where
  asserted : evbuf.SizeAsserted
  ends : (lv2EvbufEvents evbuf).isSome
  advances : ∀ count, lv2EvbufIsValid (evbuf.turn count) → (evbuf.turn count).offset < (evbuf.turn (count + 1)).offset
  inside : ∀ count, lv2EvbufIsValid (evbuf.turn count) →
    8 + (evbuf.turn count).offset.toNat + (16 + (evbuf.turn count).bodySize.toNat) ≤ evbuf.capacity.toNat

def sizeAt (evbuf : LV2Evbuf) (start : Nat) : Nat := (wordValue (evbuf.contents.load (start + 8) 4)).toNat

/-- Where events begin: at the start, and behind each event that begins inside of the sequence. -/
inductive EventStart (evbuf : LV2Evbuf) : Nat → Prop where
  | first : EventStart evbuf 0
  | next {start : Nat} : EventStart evbuf start → start + 8 < evbuf.size.toNat →
      EventStart evbuf (start + paddedEventSize (evbuf.sizeAt start))

/-- A sequence has the size of its own header, and its events lie inside of the capacity. -/
def WellFormed (evbuf : LV2Evbuf) : Prop :=
  evbuf.type = evbuf.atomSequence → 8 ≤ evbuf.size.toNat ∧ ∀ start, evbuf.EventStart start →
    start + 8 < evbuf.size.toNat → 8 + start + (16 + evbuf.sizeAt start) ≤ evbuf.capacity.toNat

end LV2Evbuf

section

variable {evbuf : LV2Evbuf} {iter : LV2EvbufIterator}

theorem lv2EvbufIsValid_iff (sequence : evbuf.type = evbuf.atomSequence) (sized : 8 ≤ evbuf.size.toNat)
    (offset : UInt32) : lv2EvbufIsValid ⟨evbuf, offset⟩ = true ↔ offset.toNat + 8 < evbuf.size.toNat := by
  have bound := evbuf.size.toNat_lt
  simp only [lv2EvbufIsValid, lv2EvbufGetSize_sequence sequence, decide_eq_true_eq, UInt32.lt_iff_toNat_lt,
    UInt32.toNat_sub, UInt32.reduceToNat]
  omega

theorem not_lv2EvbufIsValid (other : iter.evbuf.type ≠ iter.evbuf.atomSequence) : lv2EvbufIsValid iter = false := by
  have least : ¬iter.offset < 0 := UInt32.not_lt.mpr (UInt32.zero_le)
  rw [lv2EvbufIsValid, lv2EvbufGetSize, if_neg other]
  exact decide_eq_false least

theorem lv2EvbufEventsFrom_invalid {fuel : Nat} (invalid : lv2EvbufIsValid iter = false) :
    lv2EvbufEventsFrom (fuel + 1) iter = some [] := by
  simp [lv2EvbufEventsFrom, lv2EvbufGet, invalid]

theorem lv2EvbufEventsFrom_valid {fuel : Nat} (valid : lv2EvbufIsValid iter = true) :
    lv2EvbufEventsFrom (fuel + 1) iter = (lv2EvbufEventsFrom fuel (lv2EvbufNext iter)).map
      (AtomEvent.decode iter.evbuf.contents iter.offset.toNat :: ·) := by
  simp [lv2EvbufEventsFrom, lv2EvbufGet, valid]

@[simp] theorem lv2EvbufNext_evbuf (iter : LV2EvbufIterator) : (lv2EvbufNext iter).evbuf = iter.evbuf := by
  unfold lv2EvbufNext
  split <;> rfl

/-- Behind an event at a multiple of 8 that ends in the capacity, the offset has not overflowed. -/
theorem lv2EvbufNext_offset (valid : lv2EvbufIsValid iter = true) (aligned : iter.offset.toNat % 8 = 0)
    (inside : 8 + iter.offset.toNat + (16 + iter.bodySize.toNat) ≤ iter.evbuf.capacity.toNat) :
    (lv2EvbufNext iter).offset.toNat = iter.offset.toNat + paddedEventSize iter.bodySize.toNat := by
  have bound := iter.evbuf.capacity.toNat_lt
  have padded : (lv2AtomPadSize (16 + iter.bodySize)).toNat = paddedEventSize iter.bodySize.toNat :=
    toNat_padded (by omega)
  have bounds := paddedEventSize_bounds iter.bodySize.toNat
  have multiple := paddedEventSize_mod iter.bodySize.toNat
  unfold sizeofAtomEvent at bounds
  rw [lv2EvbufNext, if_pos valid]
  simp only [UInt32.toNat_add, padded]
  omega

namespace LV2Evbuf

theorem turn_succ (evbuf : LV2Evbuf) (count : Nat) : evbuf.turn (count + 1) = lv2EvbufNext (evbuf.turn count) :=
  Function.iterate_succ_apply' ..

@[simp] theorem turn_evbuf (evbuf : LV2Evbuf) (count : Nat) : (evbuf.turn count).evbuf = evbuf := by
  induction count with
  | zero => rfl
  | succ count ih => rw [turn_succ, lv2EvbufNext_evbuf, ih]

theorem turn_eq (evbuf : LV2Evbuf) (count : Nat) : evbuf.turn count = ⟨evbuf, (evbuf.turn count).offset⟩ := by
  have same := turn_evbuf evbuf count
  generalize evbuf.turn count = iter at same ⊢
  cases iter
  cases same
  rfl

theorem turn_bodySize (evbuf : LV2Evbuf) (count : Nat) :
    (evbuf.turn count).bodySize.toNat = evbuf.sizeAt (evbuf.turn count).offset.toNat := by
  rw [LV2EvbufIterator.bodySize, turn_evbuf]
  rfl

theorem EventStart.aligned {start : Nat} (begins : evbuf.EventStart start) : start % 8 = 0 := by
  induction begins with
  | first => rfl
  | @next start _ _ ih =>
    have multiple := paddedEventSize_mod (evbuf.sizeAt start)
    omega

/-- The loop ends if its offset grows in each turn. -/
theorem eventsFrom_isSome
    (advances : ∀ count, lv2EvbufIsValid (evbuf.turn count) →
      (evbuf.turn count).offset < (evbuf.turn (count + 1)).offset)
    (fuel count : Nat) (enough : 2 ^ 32 ≤ fuel + (evbuf.turn count).offset.toNat) :
    (lv2EvbufEventsFrom fuel (evbuf.turn count)).isSome := by
  induction fuel generalizing count with
  | zero =>
    have bound := (evbuf.turn count).offset.toNat_lt
    omega
  | succ fuel ih =>
    cases valid : lv2EvbufIsValid (evbuf.turn count) with
    | false =>
      rw [lv2EvbufEventsFrom_invalid valid]
      rfl
    | true =>
      have grows := UInt32.lt_iff_toNat_lt.mp (advances count valid)
      rw [lv2EvbufEventsFrom_valid valid, ← turn_succ, Option.isSome_map]
      exact ih (count + 1) (by omega)

theorem WellFormed.turn_start (wellFormed : evbuf.WellFormed) (sequence : evbuf.type = evbuf.atomSequence)
    (count : Nat) :
    evbuf.EventStart (evbuf.turn count).offset.toNat := by
  obtain ⟨sized, inside⟩ := wellFormed sequence
  induction count with
  | zero => exact .first
  | succ count ih =>
    cases valid : lv2EvbufIsValid (evbuf.turn count) with
    | false =>
      have same : evbuf.turn (count + 1) = evbuf.turn count := by
        rw [turn_succ, lv2EvbufNext, valid]
        rfl
      rwa [same]
    | true =>
      have within : (evbuf.turn count).offset.toNat + 8 < evbuf.size.toNat := by
        rw [turn_eq] at valid
        exact (lv2EvbufIsValid_iff sequence sized _).mp valid
      have fits := inside _ ih within
      rw [turn_succ, lv2EvbufNext_offset valid ih.aligned (by rwa [turn_bodySize, turn_evbuf]), turn_bodySize]
      exact .next ih within

theorem WellFormed.readsInside (wellFormed : evbuf.WellFormed) : evbuf.ReadsInside := by
  have inside (count : Nat) (valid : lv2EvbufIsValid (evbuf.turn count)) :
      8 + (evbuf.turn count).offset.toNat + (16 + (evbuf.turn count).bodySize.toNat) ≤ evbuf.capacity.toNat := by
    by_cases sequence : evbuf.type = evbuf.atomSequence
    · obtain ⟨sized, inside⟩ := wellFormed sequence
      rw [turn_eq] at valid
      rw [turn_bodySize]
      exact inside _ (wellFormed.turn_start sequence count) ((lv2EvbufIsValid_iff sequence sized _).mp valid)
    · rw [not_lv2EvbufIsValid (by rwa [turn_evbuf])] at valid
      cases valid
  have advances (count : Nat) (valid : lv2EvbufIsValid (evbuf.turn count)) :
      (evbuf.turn count).offset < (evbuf.turn (count + 1)).offset := by
    have sequence : evbuf.type = evbuf.atomSequence := by
      by_contra other
      rw [not_lv2EvbufIsValid (by rwa [turn_evbuf])] at valid
      cases valid
    have aligned := (wellFormed.turn_start sequence count).aligned
    have bounds := paddedEventSize_bounds (evbuf.turn count).bodySize.toNat
    unfold sizeofAtomEvent at bounds
    rw [UInt32.lt_iff_toNat_lt, turn_succ, lv2EvbufNext_offset valid aligned (by simpa using inside count valid)]
    omega
  exact ⟨fun sequence => (wellFormed sequence).1, eventsFrom_isSome advances _ 0 (Nat.le_add_right _ _), advances,
    inside⟩

/-- Each place where an event begins is reached by the loop, as long as the events before it are inside. -/
theorem ReadsInside.start_turn (reads : evbuf.ReadsInside) (sequence : evbuf.type = evbuf.atomSequence) {start : Nat}
    (begins : evbuf.EventStart start) : ∃ count, (evbuf.turn count).offset.toNat = start := by
  induction begins with
  | first => exact ⟨0, rfl⟩
  | @next start before within ih =>
    obtain ⟨count, here⟩ := ih
    have valid : lv2EvbufIsValid (evbuf.turn count) = true := by
      rw [turn_eq]
      exact (lv2EvbufIsValid_iff sequence (reads.asserted sequence) _).mpr (here ▸ within)
    refine ⟨count + 1, ?_⟩
    rw [turn_succ, lv2EvbufNext_offset valid (here ▸ before.aligned) (by simpa using reads.inside count valid),
      turn_bodySize, here]

end LV2Evbuf

/-- Reading is robust exactly for contents in which the sizes of the events, added up as
integers, stay inside of the capacity up to the end that the header gives. -/
theorem readsInside_iff (evbuf : LV2Evbuf) : evbuf.ReadsInside ↔ evbuf.WellFormed := by
  constructor
  · intro reads sequence
    refine ⟨reads.asserted sequence, fun start begins within => ?_⟩
    obtain ⟨count, rfl⟩ := reads.start_turn sequence begins
    have valid : lv2EvbufIsValid (evbuf.turn count) = true := by
      rw [LV2Evbuf.turn_eq]
      exact (lv2EvbufIsValid_iff sequence (reads.asserted sequence) _).mpr within
    rw [← LV2Evbuf.turn_bodySize]
    exact reads.inside count valid
  · exact LV2Evbuf.WellFormed.readsInside

end

/-- A sequence of 32 bytes with an event of 16 bytes less than `2 ^ 32`. -/
def endlessSequence : LV2Evbuf :=
  { capacity := 64, atomChunk := 1, atomSequence := 2, size := 32, type := 2
    contents := fun address => if address = 8 then 0xF0 else if 9 ≤ address ∧ address ≤ 11 then 0xFF else 0 }

/-- The loop stays at this event: its size with the header is zero in 32 bits. -/
theorem readsInside_refuted : ¬endlessSequence.ReadsInside ∧ lv2EvbufEvents endlessSequence = none := by
  have stays : lv2EvbufNext (lv2EvbufBegin endlessSequence) = lv2EvbufBegin endlessSequence := rfl
  have endless (fuel : Nat) : lv2EvbufEventsFrom fuel (lv2EvbufBegin endlessSequence) = none := by
    induction fuel with
    | zero => rfl
    | succ fuel ih => rw [lv2EvbufEventsFrom_valid rfl, stays, ih, Option.map_none]
  refine ⟨fun reads => ?_, endless _⟩
  have ends := reads.ends
  rw [lv2EvbufEvents, endless] at ends
  cases ends

end Jalv
