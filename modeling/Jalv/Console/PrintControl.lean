import Jalv.Console.ParseCommand
import Mathlib.Data.Int.Order.Lemmas
import Mathlib.Data.Nat.Digits.Defs

/-! Printing the value of a control (`jalv_console.c`), and reading an integer back. -/

set_option autoImplicit false

namespace Jalv

open Foundation

def anyValueBytes (store : ValueStore) : Option (List Byte) :=
  if store.value.size.toNat > sizeofPointer then store.heap.block store.value.value
  else some (little 8 store.value.value.toNat)

def stringAt (bytes : List Byte) : Option Text :=
  if 0 ∈ bytes then some (bytes.takeWhile (· ≠ 0)) else none

def printNat (value : Nat) : Text :=
  if value = 0 then [48] else (Nat.digits 10 value).reverse.map fun digit => UInt8.ofNat (48 + digit)

def printInt (value : Int) : Text := if value < 0 then 45 :: printNat value.natAbs else printNat value.natAbs

def trueWord : Text := [116, 114, 117, 101]
def falseWord : Text := [102, 97, 108, 115, 101]

/-- The value as it is printed. `printNumber` is `%f` of `any_value_number`. -/
def printValue (printNumber : AnyValue → Text) (forge : Forge) (store : ValueStore) : Option Text :=
  let number := store.value.value
  if store.value.type = forge.uri then do
    return [60] ++ (← stringAt (← anyValueBytes store)) ++ [62]
  else if store.value.type = forge.string ∨ store.value.type = forge.path then do
    return [34] ++ (← stringAt (← anyValueBytes store)) ++ [34]
  else if store.value.type = forge.bool then some (if number.toUInt32 ≠ 0 then trueWord else falseWord)
  else if store.value.type = forge.double ∨ store.value.type = forge.float then some (printNumber store.value)
  else if store.value.type = forge.int then some (printInt number.toUInt32.toInt32.toInt)
  else if store.value.type = forge.long then some (printInt number.toInt64.toInt)
  else some [63]

/-- `print_control_value`: the symbol, an equals sign between blanks, the value and the end of the line. -/
def printControlValue (printNumber : AnyValue → Text) (forge : Forge) (control : Control) : Option Text :=
  (printValue printNumber forge control.value).map fun text => control.symbol ++ [32, 61, 32] ++ (text ++ [10])

def strtolBits (text : Text) : UInt64 :=
  match text.dropWhile isSpace with
  | 45 :: digits => (Int64.ofInt (max (-longMax - 1) (-decimal (digits.takeWhile isDigit)))).toUInt64
  | 43 :: digits => (Int64.ofInt (min longMax (decimal (digits.takeWhile isDigit)))).toUInt64
  | digits => (Int64.ofInt (min longMax (decimal (digits.takeWhile isDigit)))).toUInt64

section

theorem stringAt_terminated {text : Text} (noZero : 0 ∉ text) (rest : List Byte) :
    stringAt (text ++ [0] ++ rest) = some text := by
  have before : ∀ char ∈ text, decide (char ≠ 0) := by
    intro char member
    rw [decide_eq_true_eq]
    rintro rfl
    exact noZero member
  have zero : (0 : Byte) ∈ text ++ [0] ++ rest := by simp
  rw [stringAt, if_pos zero, List.append_assoc, List.takeWhile_append_of_pos before]
  simp

theorem stringAt_append {bytes : List Byte} {text : Text} (string : stringAt bytes = some text) (more : List Byte) :
    stringAt (bytes ++ more) = some text := by
  unfold stringAt at string ⊢
  split at string
  · next zero =>
    have ends : ¬ (bytes.takeWhile (· ≠ 0)).length = bytes.length := fun whole => by
      have all := (List.takeWhile_prefix _).eq_of_length whole
      simpa using List.takeWhile_eq_self_iff.mp all 0 zero
    rw [if_pos (List.mem_append_left more zero), ← string, List.takeWhile_append, if_neg ends]
  · cases string

theorem decimal_map (digits : List Nat) (small : ∀ digit ∈ digits, digit < 10) :
    decimal (digits.reverse.map fun digit => UInt8.ofNat (48 + digit)) = Nat.ofDigits 10 digits := by
  rw [decimal, List.foldl_map, List.foldl_reverse, Nat.ofDigits_eq_foldr]
  induction digits with
  | nil => rfl
  | cons digit rest ih =>
    obtain ⟨first, others⟩ := List.forall_mem_cons.mp small
    have byte : (UInt8.ofNat (48 + digit)).toNat = 48 + digit := by
      rw [UInt8.toNat_ofNat']
      omega
    rw [List.foldr_cons, List.foldr_cons, ih others, byte]
    simp only [Nat.cast_id]
    omega

theorem decimal_printNat (value : Nat) : decimal (printNat value) = value := by
  unfold printNat
  split
  · next zero => rw [zero]; rfl
  · rw [decimal_map _ fun _ => Nat.digits_lt_base (by decide), Nat.ofDigits_digits]

theorem printNat_digits (value : Nat) : ∀ char ∈ printNat value, isDigit char := by
  unfold printNat
  split
  · simp [isDigit]
  · intro char member
    obtain ⟨digit, inside, rfl⟩ := List.mem_map.mp member
    have small := Nat.digits_lt_base (by decide) (List.mem_reverse.mp inside)
    have byte : (UInt8.ofNat (48 + digit)).toNat = 48 + digit := by
      rw [UInt8.toNat_ofNat']
      omega
    simp only [isDigit, byte, decide_eq_true_eq]
    omega

theorem printNat_ne_nil (value : Nat) : printNat value ≠ [] := by
  unfold printNat
  split
  · exact List.cons_ne_nil _ _
  · next positive => simpa [Nat.digits_ne_nil_iff_ne_zero] using positive

variable {rest : Text}

theorem takeWhile_printNat (value : Nat) (ends : rest.takeWhile isDigit = []) :
    (printNat value ++ rest).takeWhile isDigit = printNat value := by
  rw [List.takeWhile_append_of_pos (printNat_digits value), ends, List.append_nil]

/-- A printed long is read back, where no digit follows. -/
theorem strtolBits_printInt (value : Int64) (ends : rest.takeWhile isDigit = []) :
    strtolBits (printInt value.toInt ++ rest) = value.toUInt64 := by
  have low := value.le_toInt
  have high := value.toInt_lt
  unfold printInt
  split
  · next negative =>
    have sign : (45 :: printNat value.toInt.natAbs ++ rest).dropWhile isSpace =
        45 :: (printNat value.toInt.natAbs ++ rest) := rfl
    have bounded : max (-(longMax : Int) - 1) (-value.toInt.natAbs) = value.toInt := by
      unfold longMax
      omega
    simp only [strtolBits, sign, takeWhile_printNat _ ends, decimal_printNat, bounded, Int64.ofInt_toInt]
  · next positive =>
    obtain ⟨digit, others, same⟩ := List.exists_cons_of_ne_nil (printNat_ne_nil value.toInt.natAbs)
    have isFirst : isDigit digit := printNat_digits _ digit (by rw [same]; exact List.mem_cons_self)
    have noSpace : isSpace digit = false := by
      simp only [isDigit, decide_eq_true_eq] at isFirst
      simp only [isSpace, decide_eq_false_iff_not]
      omega
    have number : (printNat value.toInt.natAbs ++ rest).dropWhile isSpace = printNat value.toInt.natAbs ++ rest := by
      rw [same, List.cons_append, List.dropWhile_cons_of_neg (by simp [noSpace])]
    have bounded : min (longMax : Int) value.toInt.natAbs = value.toInt := by
      unfold longMax
      omega
    have digits := takeWhile_printNat value.toInt.natAbs ends
    rw [strtolBits, number]
    split
    · next _ minus =>
      rw [same, List.cons_append, List.cons.injEq] at minus
      rw [minus.1] at isFirst
      cases isFirst
    · next _ plus =>
      rw [same, List.cons_append, List.cons.injEq] at plus
      rw [plus.1] at isFirst
      cases isFirst
    · rw [digits, decimal_printNat, bounded, Int64.ofInt_toInt]

/-- A printed integer is read back from the low bits of a long. -/
theorem strtolBits_printInt32 (value : Int32) (ends : rest.takeWhile isDigit = []) :
    (strtolBits (printInt value.toInt ++ rest)).toUInt32 = value.toUInt32 := by
  have wide : value.toInt = value.toInt64.toInt := (Int32.toInt_toInt64 value).symm
  have narrow := congrArg Int32.toBitVec (Int32.toInt32_toInt64 value)
  rw [Int64.toBitVec_toInt32, BitVec.signExtend_eq_setWidth_of_le _ (by decide)] at narrow
  rw [wide, strtolBits_printInt _ ends]
  exact UInt32.toBitVec_inj.mp narrow

end

end Jalv
