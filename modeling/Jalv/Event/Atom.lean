import Jalv.Foundation.Bytes
import Jalv.Foundation.RecordLog
import Mathlib.Data.Nat.Bitwise

/-! Atoms and the event records of an atom sequence.

An atom is a size, a type URID and a body of that size. An event of a sequence
is a 16 byte header (time stamp, size and type) followed by the body, padded to
the next multiple of 8 bytes.
-/

set_option autoImplicit false

namespace Jalv

open Foundation

abbrev URID := UInt32

structure Atom where
  size : UInt32
  type : URID
  body : List Byte
  sized : body.length = size.toNat
  deriving DecidableEq

def sizeofAtom : Nat := 8
def sizeofAtomEvent : Nat := 16

/-- `lv2_atom_pad_size`: the size rounded up to a multiple of 8, in 32 bits. -/
def lv2AtomPadSize (size : UInt32) : UInt32 := (size + 7) &&& ~~~7

theorem and_high_bits (value : Nat) (bound : value < 2 ^ 32) :
    value &&& 4294967288 = value / 8 * 8 := by
  have mask : (4294967288 : Nat) = (2 ^ 29 - 1) <<< 3 := by decide
  have shifted : value / 8 * 8 = (value >>> 3) <<< 3 := by
    rw [Nat.shiftLeft_eq, Nat.shiftRight_eq_div_pow]
  rw [mask, shifted]
  apply Nat.eq_of_testBit_eq
  intro bit
  rw [Nat.testBit_and, Nat.testBit_shiftLeft, Nat.testBit_shiftLeft, Nat.testBit_shiftRight,
    Nat.testBit_two_pow_sub_one]
  by_cases low : bit ≥ 3
  · have position : 3 + (bit - 3) = bit := by omega
    rw [position]
    by_cases high : bit - 3 < 29
    · simp [low, high]
    · have beyond : value.testBit bit = false :=
        Nat.testBit_lt_two_pow (Nat.lt_of_lt_of_le bound (Nat.pow_le_pow_right (by decide) (by omega)))
      simp [low, high, beyond]
  · simp [low]

theorem toNat_lv2AtomPadSize (size : UInt32) :
    (lv2AtomPadSize size).toNat = (size.toNat + 7) % 2 ^ 32 / 8 * 8 := by
  have mask : (~~~7 : UInt32).toNat = 4294967288 := by decide
  rw [lv2AtomPadSize, UInt32.toNat_and, mask, and_high_bits _ (UInt32.toNat_lt _), UInt32.toNat_add]
  rfl

def paddedEventSize (size : Nat) : Nat := (sizeofAtomEvent + size + 7) / 8 * 8

theorem paddedEventSize_bounds (size : Nat) :
    sizeofAtomEvent + size ≤ paddedEventSize size ∧ paddedEventSize size < sizeofAtomEvent + size + 8 := by
  unfold paddedEventSize
  omega

theorem paddedEventSize_mod (size : Nat) : paddedEventSize size % 8 = 0 := by
  unfold paddedEventSize
  omega

structure AtomEvent where
  frames : UInt32
  atom : Atom
  deriving DecidableEq

namespace AtomEvent

def encode (event : AtomEvent) : List Byte :=
  little 8 event.frames.toNat ++ word event.atom.size ++ word event.atom.type ++ event.atom.body

theorem length_encode (event : AtomEvent) :
    event.encode.length = sizeofAtomEvent + event.atom.size.toNat := by
  simp only [encode, sizeofAtomEvent, List.length_append, length_little, length_word, event.atom.sized]

def decode (contents : Memory Byte) (offset : Nat) : AtomEvent :=
  let size := wordValue (contents.load (offset + 8) 4)
  { frames := UInt32.ofNat (littleValue (contents.load offset 8))
    atom :=
      { size
        type := wordValue (contents.load (offset + 12) 4)
        body := contents.load (offset + 16) size.toNat
        sized := Memory.length_load _ _ _ } }

end AtomEvent

theorem Atom.ext {first second : Atom} (types : first.type = second.type)
    (bodies : first.body = second.body) : first = second := by
  have sizes : first.size = second.size := by
    apply UInt32.toNat_inj.mp
    rw [← first.sized, ← second.sized, bodies]
  cases first
  cases second
  simp only at types bodies sizes
  subst types bodies sizes
  rfl

theorem AtomEvent.load_encode {contents : Memory Byte} {offset : Nat} {event : AtomEvent}
    (found : contents.load offset event.encode.length = event.encode) :
    contents.load offset 8 = little 8 event.frames.toNat ∧
      contents.load (offset + 8) 4 = word event.atom.size ∧
      contents.load (offset + 12) 4 = word event.atom.type ∧
      contents.load (offset + 16) event.atom.size.toNat = event.atom.body := by
  have split : contents.load offset (8 + 4 + 4 + event.atom.size.toNat) = event.encode := by
    rw [← found, length_encode]
    rfl
  rw [Memory.load_append, Memory.load_append, Memory.load_append, encode] at split
  obtain ⟨header, body⟩ := List.append_inj split (by simp)
  obtain ⟨header, type⟩ := List.append_inj header (by simp)
  obtain ⟨frames, size⟩ := List.append_inj header (by simp)
  exact ⟨frames, size, type, body⟩

def eventFormat : RecordFormat AtomEvent Byte where
  encode := AtomEvent.encode
  stride event := paddedEventSize event.atom.size.toNat
  decode := AtomEvent.decode
  covers event := by
    rw [AtomEvent.length_encode]
    exact (paddedEventSize_bounds _).1
  decodes contents offset event found := by
    obtain ⟨frames, size, type, body⟩ := AtomEvent.load_encode found
    have bound : event.frames.toNat < 256 ^ 8 :=
      Nat.lt_trans event.frames.toNat_lt (by decide)
    have sameFrames : (AtomEvent.decode contents offset).frames = event.frames := by
      simp only [AtomEvent.decode, frames, littleValue_little_of_lt bound, UInt32.ofNat_toNat]
    have sameAtom : (AtomEvent.decode contents offset).atom = event.atom := by
      apply Atom.ext
      · simp only [AtomEvent.decode, type, wordValue_word]
      · simp only [AtomEvent.decode, size, wordValue_word, body]
    cases event
    simp only at sameFrames sameAtom
    rw [← sameFrames, ← sameAtom]

end Jalv
