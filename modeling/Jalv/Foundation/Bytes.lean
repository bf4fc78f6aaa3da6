import Mathlib.Algebra.Order.Ring.Nat
import Mathlib.Tactic.Ring

/-! Little-endian words as byte lists.

A word of a given width is written least significant byte first. Reading the
bytes back gives the value modulo the width, and every byte list is the image
of the value it denotes.
-/

set_option autoImplicit false

namespace Foundation

abbrev Byte := UInt8

/-- The `width` low bytes of `value`, least significant first. -/
def little : Nat → Nat → List Byte
  | 0, _ => []
  | width + 1, value => UInt8.ofNat value :: little width (value / 256)

def littleValue : List Byte → Nat
  | [] => 0
  | byte :: rest => byte.toNat + 256 * littleValue rest

@[simp] theorem length_little (width value : Nat) : (little width value).length = width := by
  induction width generalizing value with
  | zero => rfl
  | succ width ih => simp [little, ih]

theorem littleValue_little (width value : Nat) :
    littleValue (little width value) = value % 256 ^ width := by
  induction width generalizing value with
  | zero => simp [little, littleValue, Nat.mod_one]
  | succ width ih =>
    have low : (UInt8.ofNat value).toNat = value % 256 := UInt8.toNat_ofNat'
    simp only [little, littleValue, ih, low]
    rw [Nat.pow_succ, Nat.mul_comm (256 ^ width), Nat.mod_mul]

theorem littleValue_little_of_lt {width value : Nat} (bound : value < 256 ^ width) :
    littleValue (little width value) = value := by
  rw [littleValue_little, Nat.mod_eq_of_lt bound]

theorem littleValue_lt (bytes : List Byte) : littleValue bytes < 256 ^ bytes.length := by
  induction bytes with
  | nil => simp [littleValue]
  | cons byte rest ih =>
    have small := byte.toNat_lt
    simp only [littleValue, List.length_cons, Nat.pow_succ]
    omega

theorem little_littleValue (bytes : List Byte) : little bytes.length (littleValue bytes) = bytes := by
  induction bytes with
  | nil => rfl
  | cons byte rest ih =>
    have small := byte.toNat_lt
    have tail : (byte.toNat + 256 * littleValue rest) / 256 = littleValue rest := by omega
    have head : UInt8.ofNat (byte.toNat + 256 * littleValue rest) = byte := by
      apply UInt8.toNat_inj.mp
      rw [UInt8.toNat_ofNat']
      omega
    simp only [List.length_cons, littleValue, little, tail, head, ih]

theorem little_mod (width value : Nat) : little width (value % 256 ^ width) = little width value := by
  have back := little_littleValue (little width value)
  rwa [length_little, littleValue_little] at back

theorem take_little {short width : Nat} (shorter : short ≤ width) (value : Nat) :
    (little width value).take short = little short value := by
  induction short generalizing width value with
  | zero => rfl
  | succ short ih =>
    obtain ⟨width, rfl⟩ := Nat.exists_eq_add_one_of_ne_zero (Nat.ne_of_gt (Nat.zero_lt_of_lt shorter))
    rw [little, List.take_succ_cons, ih (Nat.le_of_succ_le_succ shorter), little]

theorem little_injective {width left right : Nat} (leftBound : left < 256 ^ width)
    (rightBound : right < 256 ^ width) (same : little width left = little width right) :
    left = right := by
  have values := congrArg littleValue same
  rwa [littleValue_little_of_lt leftBound, littleValue_little_of_lt rightBound] at values

def word (value : UInt32) : List Byte := little 4 value.toNat

def wordValue (bytes : List Byte) : UInt32 := UInt32.ofNat (littleValue bytes)

@[simp] theorem length_word (value : UInt32) : (word value).length = 4 := length_little 4 _

@[simp] theorem wordValue_word (value : UInt32) : wordValue (word value) = value := by
  have bound : value.toNat < 256 ^ 4 := value.toNat_lt
  rw [wordValue, word, littleValue_little_of_lt bound, UInt32.ofNat_toNat]

theorem word_wordValue {bytes : List Byte} (four : bytes.length = 4) : word (wordValue bytes) = bytes := by
  have bound : littleValue bytes < 2 ^ 32 := (littleValue_lt bytes).trans_eq (by rw [four]; rfl)
  have back := little_littleValue bytes
  rw [word, wordValue, UInt32.toNat_ofNat', Nat.mod_eq_of_lt bound, ← four]
  exact back

def splitWord (bytes : List Byte) : UInt32 × List Byte := (wordValue (bytes.take 4), bytes.drop 4)

@[simp] theorem splitWord_word (value : UInt32) (rest : List Byte) :
    splitWord (word value ++ rest) = (value, rest) := by
  rw [splitWord, List.take_left' (length_word value), List.drop_left' (length_word value), wordValue_word]

@[simp] theorem splitWord_word_only (value : UInt32) : splitWord (word value) = (value, []) := by
  have whole := splitWord_word value []
  rwa [List.append_nil] at whole

end Foundation
