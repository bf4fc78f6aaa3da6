import Jalv.Control.Control

/-! The number that a value is read as (`any_value_number`).

A set copies as many bytes as it is given into the word of a short value, a read takes as
many as the type has. A Bool is set with one byte by some callers, and read with four.
-/

set_option autoImplicit false

namespace Jalv

open Foundation

/-- The conversions to `double`, from the bits of a double and of a float and from integers.
Integers of 32 bits have doubles of their own. -/
structure Doubles (Double : Type) where
  ofDouble : UInt64 → Double
  ofFloat : UInt32 → Double
  ofInt : Int32 → Double
  ofLong : Int64 → Double
  zero : Double
  exact : Function.Injective ofInt

variable {Double : Type} (doubles : Doubles Double) (forge : Forge)

def anyValueNumber (value : AnyValue) : Double :=
  if value.type = forge.double then doubles.ofDouble value.value
  else if value.type = forge.float then doubles.ofFloat value.value.toUInt32
  else if value.type = forge.int ∨ value.type = forge.bool then doubles.ofInt value.value.toUInt32.toInt32
  else if value.type = forge.long then doubles.ofLong value.value.toInt64
  else doubles.zero

def Forge.numberTypes : List URID := [forge.double, forge.float, forge.int, forge.bool, forge.long]

/-- What the callers of `any_value_set` pass for a number. A `byteBool` comes from the
console and from nodes, a `bool` from atoms and other frontends. -/
inductive NumberBody where
  | double (bits : UInt64)
  | float (bits : UInt32)
  | int (value : Int32)
  | long (value : Int64)
  | bool (value : Int32)
  | byteBool (value : Bool)
  deriving DecidableEq

namespace NumberBody

def atom : NumberBody → Atom
  | double bits => ⟨8, forge.double, little 8 bits.toNat, length_little 8 _⟩
  | float bits => ⟨4, forge.float, word bits, length_word _⟩
  | int value => ⟨4, forge.int, word value.toUInt32, length_word _⟩
  | long value => ⟨8, forge.long, little 8 value.toUInt64.toNat, length_little 8 _⟩
  | bool value => ⟨4, forge.bool, word value.toUInt32, length_word _⟩
  | byteBool value => ⟨1, forge.bool, [if value then 1 else 0], rfl⟩

def denoted : NumberBody → Double
  | double bits => doubles.ofDouble bits
  | float bits => doubles.ofFloat bits
  | int value | bool value => doubles.ofInt value
  | long value => doubles.ofLong value
  | byteBool value => doubles.ofInt (if value then 1 else 0)

end NumberBody

/-- The stores that successful sets lead to, whether or not the last of them kept the
ownership of a block. -/
inductive ValueStore.Reached : ValueStore → Prop
  | initial : Reached .initial
  | set {store next : ValueStore} (proposal : Option UInt64) (atom : Atom) :
      store.Reached → anyValueSet proposal store atom = some (0, next) → next.Reached

theorem ValueStore.Reached.freeable {store : ValueStore} (reached : store.Reached) : store.Freeable := by
  cases reached with
  | initial => exact ValueStore.freeable_initial
  | set _ _ _ set => exact anyValueSet_freeable set

/-- Setting the number succeeds, and then it is what the value is read as. -/
def ReadsAsSet (store : ValueStore) (body : NumberBody) : Prop :=
  ∀ proposal, ∃ next, anyValueSet proposal store (body.atom forge) = some (0, next) ∧
    anyValueNumber doubles forge next.value = body.denoted doubles

/-- No bytes of an earlier value are left where a Bool is read behind its first byte. A
value with a block is reset before. -/
def ValueStore.CleanBehindByte (store : ValueStore) : Prop :=
  sizeofPointer < store.value.size.toNat ∨ ((little 8 store.value.value.toNat).drop 1).take 3 = [0, 0, 0]

/-- The four bytes that are read of a word into which one byte has been copied. -/
theorem word_memcpyNumber_byte (number : UInt64) (byte : Byte) :
    word (memcpyNumber number [byte]).toUInt32 = byte :: ((little 8 number.toNat).drop 1).take 3 := by
  have bytes := little_memcpyNumber number (show [byte].length ≤ 8 from Nat.le_add_left 1 7)
  calc word (memcpyNumber number [byte]).toUInt32
      = little 4 (memcpyNumber number [byte]).toNat := by
        rw [word, UInt64.toNat_toUInt32]
        exact little_mod 4 _
    _ = (little 8 (memcpyNumber number [byte]).toNat).take 4 := (take_little (by decide) _).symm
    _ = byte :: ((little 8 number.toNat).drop 1).take 3 := by
        rw [bytes]
        rfl

theorem ofInt_byteBool (value : Bool) (stored : UInt32) :
    doubles.ofInt stored.toInt32 = doubles.ofInt (if value then 1 else 0) ↔
      word stored = [if value then 1 else 0, 0, 0, 0] := by
  have target : word (if value then 1 else 0) = [if value then 1 else 0, 0, 0, 0] := by
    cases value <;> rfl
  rw [doubles.exact.eq_iff, ← target]
  constructor
  · intro same
    have bits := congrArg Int32.toUInt32 same
    rw [UInt32.toUInt32_toInt32] at bits
    rw [bits]
    cases value <;> rfl
  · intro same
    have bits := congrArg wordValue same
    rw [wordValue_word, wordValue_word] at bits
    rw [bits]
    cases value <;> rfl

theorem anyValueSet_number {store : ValueStore} (reached : store.Reached) (proposal : Option UInt64)
    (body : NumberBody) :
    ∃ next, anyValueSet proposal store (body.atom forge) = some (0, next) ∧ next.Holds (body.atom forge) := by
  have short : (body.atom forge).size.toNat ≤ sizeofPointer := by
    cases body <;> simp [NumberBody.atom, sizeofPointer]
  by_cases shorter : (body.atom forge).size.toNat < sizeofPointer
  · exact anyValueSet_shorter reached.freeable shorter proposal
  · exact ⟨_, anyValueSet_short proposal (fun both => shorter both.2) short, holds_copied _ _ _ short⟩

theorem anyValueSet_byteBool {store : ValueStore} (reached : store.Reached) (proposal : Option UInt64) (value : Bool) :
    ∃ next old, anyValueSet proposal store ((NumberBody.byteBool value).atom forge) = some (0, next) ∧
      next.value = ⟨1, forge.bool, memcpyNumber old [if value then 1 else 0]⟩ ∧
      (((little 8 old.toNat).drop 1).take 3 = [0, 0, 0] ↔ store.CleanBehindByte) := by
  by_cases release : sizeofPointer < store.value.size.toNat
  · have reset : anyValueReset store = some ⟨.zero, store.heap.erase store.value.value⟩ := by
      rw [anyValueReset, if_pos release, Heap.free, if_pos (reached.freeable release), Option.map_some]
    have shorter : ((NumberBody.byteBool value).atom forge).size.toNat < sizeofPointer :=
      show 1 < sizeofPointer by decide
    have set := anyValueSet_release proposal release shorter
    rw [reset, Option.bind_some] at set
    exact ⟨_, 0, set, rfl, iff_of_true rfl (Or.inl release)⟩
  · have kept : ¬(store.value.size.toNat > sizeofPointer ∧
        ((NumberBody.byteBool value).atom forge).size.toNat < sizeofPointer) := fun both => release both.1
    refine ⟨_, store.value.value, anyValueSet_short proposal kept (show 1 ≤ sizeofPointer by decide), rfl, ?_⟩
    exact ⟨Or.inr, fun clean => clean.resolve_left release⟩

section

variable {doubles forge} {store : ValueStore} (distinct : forge.numberTypes.Nodup)
include distinct

/-- A body that is as long as what is read of it reads back, whatever was stored before. -/
theorem anyValueNumber_of_holds {body : NumberBody} (full : ∀ value, body ≠ .byteBool value)
    (held : store.Holds (body.atom forge)) : anyValueNumber doubles forge store.value = body.denoted doubles := by
  simp only [Forge.numberTypes, List.nodup_cons, List.mem_cons, List.not_mem_nil, not_or] at distinct
  have type := held.type
  have whole (eight : (body.atom forge).size = 8) :
      store.value.value = UInt64.ofNat (littleValue (body.atom forge).body) := by
    have bytes := held.number (by rw [eight]; decide)
    rw [eight, List.take_of_length_le (by simp)] at bytes
    rw [← bytes, littleValue_little_of_lt store.value.value.toNat_lt, UInt64.ofNat_toNat]
  have low (four : (body.atom forge).size = 4) :
      store.value.value.toUInt32 = wordValue (body.atom forge).body := by
    rw [← held.low four, wordValue_word]
  have sixtyFour (bits : UInt64) : UInt64.ofNat (littleValue (little 8 bits.toNat)) = bits := by
    rw [littleValue_little_of_lt bits.toNat_lt, UInt64.ofNat_toNat]
  cases body with
  | double bits =>
    have value : store.value.value = bits := (whole rfl).trans (sixtyFour bits)
    simp [anyValueNumber, type, NumberBody.atom, NumberBody.denoted, value]
  | float bits =>
    have value : store.value.value.toUInt32 = bits := (low rfl).trans (wordValue_word bits)
    have other : forge.float ≠ forge.double := Ne.symm distinct.1.1
    simp [anyValueNumber, type, NumberBody.atom, NumberBody.denoted, value, other]
  | int number =>
    have value : store.value.value.toUInt32 = number.toUInt32 := (low rfl).trans (wordValue_word _)
    have others : forge.int ≠ forge.double ∧ forge.int ≠ forge.float :=
      ⟨Ne.symm distinct.1.2.1, Ne.symm distinct.2.1.1⟩
    simp [anyValueNumber, type, NumberBody.atom, NumberBody.denoted, value, others]
  | long number =>
    have value : store.value.value = number.toUInt64 := (whole rfl).trans (sixtyFour _)
    have others : forge.long ≠ forge.double ∧ forge.long ≠ forge.float ∧ forge.long ≠ forge.int ∧
        forge.long ≠ forge.bool := by
      grind
    simp [anyValueNumber, type, NumberBody.atom, NumberBody.denoted, value, others]
  | bool number =>
    have value : store.value.value.toUInt32 = number.toUInt32 := (low rfl).trans (wordValue_word _)
    have others : forge.bool ≠ forge.double ∧ forge.bool ≠ forge.float := by grind
    simp [anyValueNumber, type, NumberBody.atom, NumberBody.denoted, value, others]
  | byteBool value => exact absurd rfl (full value)

/-- A Bool of one byte is read together with the three bytes behind it. -/
theorem anyValueNumber_byteBool_iff {next : ValueStore} (old : UInt64) (value : Bool)
    (stored : next.value = ⟨1, forge.bool, memcpyNumber old [if value then 1 else 0]⟩) :
    anyValueNumber doubles forge next.value = (NumberBody.byteBool value).denoted doubles ↔
      ((little 8 old.toNat).drop 1).take 3 = [0, 0, 0] := by
  simp only [Forge.numberTypes, List.nodup_cons, List.mem_cons, List.not_mem_nil, not_or] at distinct
  have others : forge.bool ≠ forge.double ∧ forge.bool ≠ forge.float := by grind
  have number : anyValueNumber doubles forge next.value =
      doubles.ofInt (memcpyNumber old [if value then 1 else 0]).toUInt32.toInt32 := by
    simp [anyValueNumber, stored, others]
  rw [number, NumberBody.denoted, ofInt_byteBool, word_memcpyNumber_byte, List.cons.injEq, eq_self, true_and]

/-- A number is read as it was set, unless it is a Bool of one byte that is set over other
bytes. -/
theorem readsAsSet_iff (reached : store.Reached) (body : NumberBody) :
    ReadsAsSet doubles forge store body ↔ ((∃ value, body = .byteBool value) → store.CleanBehindByte) := by
  by_cases oneByte : ∃ value, body = .byteBool value
  · obtain ⟨value, rfl⟩ := oneByte
    constructor
    · intro reads _
      obtain ⟨next, old, set, stored, clean⟩ := anyValueSet_byteBool forge reached none value
      obtain ⟨next', set', number⟩ := reads none
      cases set.symm.trans set'
      exact clean.mp ((anyValueNumber_byteBool_iff distinct old value stored).mp number)
    · intro condition proposal
      obtain ⟨next, old, set, stored, clean⟩ := anyValueSet_byteBool forge reached proposal value
      exact ⟨next, set, (anyValueNumber_byteBool_iff distinct old value stored).mpr
        (clean.mpr (condition ⟨value, rfl⟩))⟩
  · refine iff_of_true (fun proposal => ?_) fun isByte => absurd isByte oneByte
    obtain ⟨next, set, held⟩ := anyValueSet_number forge reached proposal body
    exact ⟨next, set, anyValueNumber_of_holds distinct (fun value same => oneByte ⟨value, same⟩) held⟩

end

/-- The value of a finite number with `fraction` bits below `exponent` ones and a sign. -/
def finiteValue (fraction exponent bits : Nat) : Rat :=
  let significand := bits % 2 ^ fraction
  let scale := bits / 2 ^ fraction % 2 ^ exponent
  let magnitude := if scale = 0 then 2 * significand else (2 ^ fraction + significand) * 2 ^ scale
  let sign : Int := if bits / 2 ^ (fraction + exponent) % 2 = 0 then 1 else -1
  mkRat (sign * magnitude) (2 ^ (2 ^ (exponent - 1) - 1 + fraction))

def rationals : Doubles Rat where
  ofDouble bits := finiteValue 52 11 bits.toNat
  ofFloat bits := finiteValue 23 8 bits.toNat
  ofInt value := value.toInt
  ofLong value := value.toInt
  zero := 0
  exact _ _ same := Int32.toInt_inj.mp (Rat.intCast_inj.mp same)

def smallForge : Forge where
  blank := 1
  bool := 2
  double := 4
  float := 5
  int := 6
  long := 7
  object := 9
  path := 10
  resource := 13
  string := 15
  uri := 17
  urid := 18

def unitStore : ValueStore := ⟨⟨4, 5, memcpyNumber 0 [0, 0, 0x80, 0x3F]⟩, .empty⟩

theorem reached_unitStore : unitStore.Reached :=
  .set none ⟨4, 5, [0, 0, 0x80, 0x3F], rfl⟩ .initial rfl

def countStore : ValueStore := ⟨⟨4, 7, memcpyNumber 0 [5, 0, 0, 0]⟩, .empty⟩

/-- A true Bool of one byte is read as set after the small int, but not after the float. -/
theorem readsAsSet_unitStore :
    ReadsAsSet rationals smallForge countStore (.byteBool true) ∧
      ¬ReadsAsSet rationals smallForge unitStore (.byteBool true) := by
  have reached : countStore.Reached := .set none ⟨4, 7, [5, 0, 0, 0], rfl⟩ .initial rfl
  constructor
  · exact (readsAsSet_iff (by decide) reached (.byteBool true)).mpr fun _ => .inr (by decide)
  · intro reads
    have clean := (readsAsSet_iff (by decide) reached_unitStore (.byteBool true)).mp reads ⟨true, rfl⟩
    revert clean
    unfold ValueStore.CleanBehindByte
    decide

/-- After the float 1.0, a true Bool of one byte is read as 1065353217. -/
theorem readsAsSet_refuted :
    unitStore.Reached ∧ unitStore.Owned ∧ ¬ReadsAsSet rationals smallForge unitStore (.byteBool true) := by
  refine ⟨reached_unitStore, .inlined _ (by decide), fun reads => ?_⟩
  obtain ⟨next, set, number⟩ := reads none
  cases set
  revert number
  decide

end Jalv
