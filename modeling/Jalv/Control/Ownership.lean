import Jalv.Control.AnyValue

/-! Ownership of the block behind a value.

A value owns its block exactly while its size is greater than a pointer. The
two transitions that do not preserve this are the ones between the two
representations that `any_value_set` leaves to `realloc` and `memcpy`: growing
from inline bytes that are not zero, which `realloc` takes for a pointer, and
shrinking to exactly the size of a pointer, which overwrites the pointer.
-/

set_option autoImplicit false

namespace Jalv

open Foundation

/-- A call on a value. For a set, `proposal` is what `realloc` would return. -/
inductive ValueCall where
  | set (proposal : Option UInt64) (atom : Atom)
  | reset

def ValueCall.run (store : ValueStore) : ValueCall → Option (Nat × ValueStore)
  | .set proposal atom => anyValueSet proposal store atom
  | .reset => (anyValueReset store).map fun next => (0, next)

def ValueStore.NoLeak (store : ValueStore) : Prop :=
  ∀ address, store.heap.block address ≠ none →
    sizeofPointer < store.value.size.toNat ∧ address = store.value.value

/-- After a successful set, the value reads back as it was set. -/
def ValueCall.Stored (reply : Nat) (next : ValueStore) : ValueCall → Prop
  | .set _ atom => reply = 0 →
      next.value.size = atom.size ∧ next.value.type = atom.type ∧ anyValueData next = some atom.body
  | .reset => next.value = .zero

/-- Every call of the sequence has a defined result, leaks nothing and stores its value. -/
def OwnershipKept : ValueStore → List ValueCall → Prop
  | _, [] => True
  | store, call :: calls => ∃ reply next, call.run store = some (reply, next) ∧
      next.NoLeak ∧ call.Stored reply next ∧ OwnershipKept next calls

/-- A value longer than a pointer is not set to the size of a pointer, and an
inline value whose word is not zero is not set to a longer one. -/
def ValueCall.Representable (value : AnyValue) : ValueCall → Prop
  | .set _ atom =>
      (sizeofPointer < value.size.toNat → atom.size.toNat ≠ sizeofPointer) ∧
      (value.size.toNat ≤ sizeofPointer → sizeofPointer < atom.size.toNat → value.value = 0)
  | .reset => True

def RepresentableRun : ValueStore → List ValueCall → Prop
  | _, [] => True
  | store, call :: calls => call.Representable store.value ∧
      ∀ reply next, call.run store = some (reply, next) → RepresentableRun next calls

/-- An inline value owns nothing. A longer one owns one block with room for it. -/
inductive ValueStore.Owned : ValueStore → Prop
  | inlined (value : AnyValue) (short : value.size.toNat ≤ sizeofPointer) : Owned ⟨value, .empty⟩
  | dynamic (value : AnyValue) (long : sizeofPointer < value.size.toNat) (nonnull : value.value ≠ 0)
      (cells : List Byte) (room : value.size.toNat ≤ cells.length) :
      Owned ⟨value, .single value.value nonnull cells⟩

theorem ValueStore.owned_initial : ValueStore.initial.Owned := .inlined .zero (by decide)

theorem ValueStore.Owned.noLeak {store : ValueStore} (owned : store.Owned) : store.NoLeak := by
  intro address live
  cases owned with
  | inlined value short => exact absurd rfl live
  | dynamic value long nonnull cells room =>
    refine ⟨long, ?_⟩
    by_contra other
    exact live (by rw [Heap.single, Heap.block_insert, if_neg other, Heap.block_empty])

theorem anyValueReset_owned {store : ValueStore} (owned : store.Owned) :
    anyValueReset store = some .initial := by
  cases owned with
  | inlined value short => rw [anyValueReset, if_neg (Nat.not_lt.mpr short), ValueStore.initial]
  | dynamic value long nonnull cells room =>
    rw [anyValueReset, if_pos long, Heap.free_single]
    rfl

theorem little_memcpyNumber (number : UInt64) {body : List Byte} (short : body.length ≤ 8) :
    little 8 (memcpyNumber number body).toNat = body ++ (little 8 number.toNat).drop body.length := by
  have whole : (body ++ (little 8 number.toNat).drop body.length).length = 8 := by
    rw [List.length_append, List.length_drop, length_little]
    omega
  have bound := littleValue_lt (body ++ (little 8 number.toNat).drop body.length)
  rw [whole] at bound
  have back := little_littleValue (body ++ (little 8 number.toNat).drop body.length)
  rw [whole] at back
  rw [memcpyNumber, UInt64.toNat_ofNat_of_lt' bound, back]

theorem take_memcpyNumber (number : UInt64) {body : List Byte} (short : body.length ≤ 8) :
    (little 8 (memcpyNumber number body).toNat).take body.length = body := by
  rw [little_memcpyNumber number short, List.take_left']
  rfl

theorem memcpyNumber_self_iff (number : UInt64) {body : List Byte} (short : body.length ≤ 8) :
    memcpyNumber number body = number ↔ (little 8 number.toNat).take body.length = body := by
  constructor
  · intro same
    have copied := take_memcpyNumber number short
    rwa [same] at copied
  · intro same
    have whole : body ++ (little 8 number.toNat).drop body.length = little 8 number.toNat := by
      conv_lhs => rw [← same, List.length_take, length_little, Nat.min_eq_left short, List.take_append_drop]
    rw [memcpyNumber, whole, littleValue_little_of_lt number.toNat_lt, UInt64.ofNat_toNat]

theorem anyValueSet_short {store : ValueStore} {atom : Atom} (proposal : Option UInt64)
    (kept : ¬ (store.value.size.toNat > sizeofPointer ∧ atom.size.toNat < sizeofPointer))
    (short : atom.size.toNat ≤ sizeofPointer) :
    anyValueSet proposal store atom =
      some (0, ⟨⟨atom.size, atom.type, memcpyNumber store.value.value atom.body⟩, store.heap⟩) := by
  simp only [anyValueSet, if_neg kept, if_neg (Nat.not_lt.mpr short)]
  rfl

theorem anyValueSet_release {store : ValueStore} {atom : Atom} (proposal : Option UInt64)
    (release : store.value.size.toNat > sizeofPointer) (shorter : atom.size.toNat < sizeofPointer) :
    anyValueSet proposal store atom = (anyValueReset store).bind fun next =>
      some (0, ⟨⟨atom.size, atom.type, memcpyNumber next.value.value atom.body⟩, next.heap⟩) := by
  have short : ¬ atom.size.toNat > sizeofPointer := by omega
  simp only [anyValueSet, if_pos (And.intro release shorter), if_neg short]
  rfl

theorem anyValueSet_grow {store : ValueStore} {atom : Atom} (proposal : Option UInt64)
    (long : sizeofPointer < atom.size.toNat) (grows : store.value.size < atom.size) :
    anyValueSet proposal store atom =
      (store.heap.realloc store.value.value atom.size.toNat proposal).bind fun result =>
        match result.1 with
        | none => (anyValueReset ⟨store.value, result.2⟩).bind fun next => some (1, next)
        | some pointer => (result.2.overwrite pointer atom.body).bind fun heap =>
            some (0, ⟨⟨atom.size, atom.type, pointer⟩, heap⟩) := by
  have kept : ¬ (store.value.size.toNat > sizeofPointer ∧ atom.size.toNat < sizeofPointer) := by omega
  simp only [anyValueSet, if_neg kept, if_pos long, Option.bind_eq_bind, Option.bind_some]
  rw [if_pos grows]
  rfl

theorem anyValueSet_fit {store : ValueStore} {atom : Atom} (proposal : Option UInt64)
    (long : sizeofPointer < atom.size.toNat) (fits : ¬ store.value.size < atom.size) :
    anyValueSet proposal store atom =
      (store.heap.overwrite store.value.value atom.body).bind fun heap =>
        some (0, ⟨⟨atom.size, atom.type, store.value.value⟩, heap⟩) := by
  have kept : ¬ (store.value.size.toNat > sizeofPointer ∧ atom.size.toNat < sizeofPointer) := by omega
  simp only [anyValueSet, if_neg kept, if_pos long, Option.bind_eq_bind, Option.bind_some]
  rw [if_neg fits]
  rfl

structure ValueStore.Holds (store : ValueStore) (atom : Atom) : Prop where
  size : store.value.size = atom.size
  type : store.value.type = atom.type
  data : anyValueData store = some atom.body

theorem holds_copied (atom : Atom) (number : UInt64) (heap : Heap UInt64 Byte)
    (short : atom.size.toNat ≤ sizeofPointer) :
    ValueStore.Holds ⟨⟨atom.size, atom.type, memcpyNumber number atom.body⟩, heap⟩ atom where
  size := rfl
  type := rfl
  data := by
    have bytes := take_memcpyNumber number (atom.sized.trans_le short)
    rw [atom.sized] at bytes
    rw [anyValueData, if_neg (Nat.not_lt.mpr short), bytes]

theorem holds_written {atom : Atom} {pointer : UInt64} {heap after : Heap UInt64 Byte}
    (long : sizeofPointer < atom.size.toNat) (written : heap.overwrite pointer atom.body = some after) :
    ValueStore.Holds ⟨⟨atom.size, atom.type, pointer⟩, after⟩ atom where
  size := rfl
  type := rfl
  data := by
    obtain ⟨rest, block⟩ := Heap.overwrite_block written
    rw [anyValueData, if_pos long, block, Option.map_some]
    exact congrArg some (List.take_left' atom.sized)

theorem ValueStore.Holds.number {store : ValueStore} {atom : Atom} (held : store.Holds atom)
    (short : atom.size.toNat ≤ sizeofPointer) :
    (little 8 store.value.value.toNat).take atom.size.toNat = atom.body := by
  have data := held.data
  rw [anyValueData, held.size, if_neg (Nat.not_lt.mpr short)] at data
  exact Option.some.inj data

/-- A value of four bytes is in the low bits of the word. -/
theorem ValueStore.Holds.low {store : ValueStore} {atom : Atom} (held : store.Holds atom) (size : atom.size = 4) :
    word store.value.value.toUInt32 = atom.body := by
  have bytes := held.number (by rw [size]; decide)
  rw [size, take_little (by decide)] at bytes
  rw [word, UInt64.toNat_toUInt32, ← bytes]
  exact little_mod 4 store.value.value.toNat

theorem anyValueReset_value {store next : ValueStore} (reset : anyValueReset store = some next) :
    next.value = .zero := by
  unfold anyValueReset at reset
  split at reset
  · obtain ⟨_, _, same⟩ := Option.map_eq_some_iff.mp reset
    exact (congrArg ValueStore.value same).symm
  · exact (congrArg ValueStore.value (Option.some.inj reset)).symm

theorem anyValueReset_zero {store : ValueStore} (zero : store.value = .zero) : anyValueReset store = some store := by
  obtain ⟨_, _⟩ := store
  cases zero
  rfl

/-- A set with a defined result either stores its value, or fails and leaves the zero value. -/
theorem anyValueSet_cases {proposal : Option UInt64} {store next : ValueStore} {atom : Atom} {status : Nat}
    (set : anyValueSet proposal store atom = some (status, next)) :
    status = 0 ∧ next.Holds atom ∨ status = 1 ∧ next.value = .zero ∧ (store.value = .zero → next = store) := by
  by_cases release : store.value.size.toNat > sizeofPointer ∧ atom.size.toNat < sizeofPointer
  · rw [anyValueSet_release proposal release.1 release.2] at set
    obtain ⟨middle, _, same⟩ := Option.bind_eq_some_iff.mp set
    cases same
    exact Or.inl ⟨rfl, holds_copied atom _ _ (Nat.le_of_lt release.2)⟩
  · by_cases long : sizeofPointer < atom.size.toNat
    · by_cases grows : store.value.size < atom.size
      · rw [anyValueSet_grow proposal long grows] at set
        obtain ⟨⟨newData, heap⟩, moved, rest⟩ := Option.bind_eq_some_iff.mp set
        cases newData with
        | none =>
          have same := Heap.realloc_none moved
          subst same
          obtain ⟨middle, reset, same⟩ := Option.bind_eq_some_iff.mp rest
          cases same
          refine Or.inr ⟨rfl, anyValueReset_value reset, fun zero => ?_⟩
          exact Option.some.inj (reset.symm.trans (anyValueReset_zero zero))
        | some pointer =>
          obtain ⟨after, written, same⟩ := Option.bind_eq_some_iff.mp rest
          cases same
          exact Or.inl ⟨rfl, holds_written long written⟩
      · rw [anyValueSet_fit proposal long grows] at set
        obtain ⟨after, written, same⟩ := Option.bind_eq_some_iff.mp set
        cases same
        exact Or.inl ⟨rfl, holds_written long written⟩
    · rw [anyValueSet_short proposal release (Nat.not_lt.mp long)] at set
      cases set
      exact Or.inl ⟨rfl, holds_copied atom _ _ (Nat.not_lt.mp long)⟩

/-- A value that needs a larger block, for which the allocator has none. -/
def ValueStore.CannotGrow (store : ValueStore) (proposal : Option UInt64) (atom : Atom) : Prop :=
  sizeofPointer < atom.size.toNat ∧ store.value.size < atom.size ∧
    store.heap.realloc store.value.value atom.size.toNat proposal = some (none, store.heap)

theorem anyValueSet_status {proposal : Option UInt64} {store next : ValueStore} {atom : Atom} {status : Nat}
    (set : anyValueSet proposal store atom = some (status, next)) : status = 0 ↔ ¬store.CannotGrow proposal atom := by
  by_cases grow : sizeofPointer < atom.size.toNat ∧ store.value.size < atom.size
  · obtain ⟨long, grows⟩ := grow
    rw [anyValueSet_grow proposal long grows] at set
    obtain ⟨⟨newData, heap⟩, moved, rest⟩ := Option.bind_eq_some_iff.mp set
    cases newData with
    | none =>
      obtain ⟨_, _, same⟩ := Option.bind_eq_some_iff.mp rest
      cases same
      have fails : store.CannotGrow proposal atom := ⟨long, grows, Heap.realloc_none moved ▸ moved⟩
      exact iff_of_false Nat.one_ne_zero (not_not.mpr fails)
    | some pointer =>
      obtain ⟨_, _, same⟩ := Option.bind_eq_some_iff.mp rest
      cases same
      refine iff_of_true rfl ?_
      rintro ⟨_, _, failed⟩
      cases moved.symm.trans failed
  · refine iff_of_true ?_ fun fails => grow ⟨fails.1, fails.2.1⟩
    by_cases release : store.value.size.toNat > sizeofPointer ∧ atom.size.toNat < sizeofPointer
    · rw [anyValueSet_release proposal release.1 release.2] at set
      obtain ⟨_, _, same⟩ := Option.bind_eq_some_iff.mp set
      cases same
      rfl
    · by_cases long : sizeofPointer < atom.size.toNat
      · rw [anyValueSet_fit proposal long fun grows => grow ⟨long, grows⟩] at set
        obtain ⟨_, _, same⟩ := Option.bind_eq_some_iff.mp set
        cases same
        rfl
      · rw [anyValueSet_short proposal release (Nat.not_lt.mp long)] at set
        cases set
        rfl

theorem anyValueSet_held {store : ValueStore} {atom : Atom} (proposal : Option UInt64) (held : store.Holds atom) :
    anyValueSet proposal store atom = some (0, store) := by
  have kept : ¬(store.value.size.toNat > sizeofPointer ∧ atom.size.toNat < sizeofPointer) := by
    rw [held.size]
    omega
  have value (number : UInt64) (same : number = store.value.value) :
      (⟨atom.size, atom.type, number⟩ : AnyValue) = store.value := by
    rw [← held.size, ← held.type, same]
  have data := held.data
  rw [anyValueData, held.size] at data
  by_cases long : sizeofPointer < atom.size.toNat
  · have fits : ¬store.value.size < atom.size := by
      rw [held.size]
      exact UInt32.lt_irrefl _
    rw [if_pos long, Option.map_eq_some_iff] at data
    have written := Heap.overwrite_self_iff.mpr (by rw [atom.sized]; exact data)
    rw [anyValueSet_fit proposal long fits, written, Option.bind_some, value _ rfl]
  · have short := Nat.not_lt.mp long
    rw [if_neg long, Option.some.injEq] at data
    have copied := (memcpyNumber_self_iff store.value.value (atom.sized.trans_le short)).mpr
      (by rw [atom.sized]; exact data)
    rw [anyValueSet_short proposal kept short, value _ copied]

def ValueStore.Freeable (store : ValueStore) : Prop :=
  sizeofPointer < store.value.size.toNat → store.heap.Valid store.value.value

theorem ValueStore.freeable_initial : ValueStore.initial.Freeable := fun long => absurd long (by decide)

/-- Whatever the store was, a set with a defined result leaves one that can be freed. -/
theorem anyValueSet_freeable {proposal : Option UInt64} {store next : ValueStore} {atom : Atom} {status : Nat}
    (set : anyValueSet proposal store atom = some (status, next)) : next.Freeable := by
  intro long
  obtain ⟨_, held⟩ | ⟨_, zero, _⟩ := anyValueSet_cases set
  · have data := held.data
    rw [anyValueData, if_pos long] at data
    obtain ⟨cells, block, _⟩ := Option.map_eq_some_iff.mp data
    exact Or.inr (by rw [block]; rfl)
  · rw [zero] at long
    exact absurd long (by decide)

theorem anyValueSet_shorter {store : ValueStore} {atom : Atom} (free : store.Freeable)
    (shorter : atom.size.toNat < sizeofPointer) (proposal : Option UInt64) :
    ∃ next, anyValueSet proposal store atom = some (0, next) ∧ next.Holds atom := by
  by_cases release : store.value.size.toNat > sizeofPointer
  · have reset : anyValueReset store = some ⟨.zero, store.heap.erase store.value.value⟩ := by
      rw [anyValueReset, if_pos release, Heap.free, if_pos (free release), Option.map_some]
    have set := anyValueSet_release proposal release shorter
    rw [reset, Option.bind_some] at set
    exact ⟨_, set, holds_copied atom _ _ (Nat.le_of_lt shorter)⟩
  · exact ⟨_, anyValueSet_short proposal (fun both => release both.1) (Nat.le_of_lt shorter),
      holds_copied atom _ _ (Nat.le_of_lt shorter)⟩

theorem owned_written (atom : Atom) (pointer : UInt64) (nonnull : pointer ≠ 0)
    (long : sizeofPointer < atom.size.toNat) {cells : List Byte} (room : atom.size.toNat ≤ cells.length) :
    ∃ heap, (Heap.single pointer nonnull cells).overwrite pointer atom.body = some heap ∧
      ValueStore.Owned ⟨⟨atom.size, atom.type, pointer⟩, heap⟩ ∧
      anyValueData ⟨⟨atom.size, atom.type, pointer⟩, heap⟩ = some atom.body := by
  have fits : atom.body.length ≤ cells.length := by rw [atom.sized]; exact room
  refine ⟨_, Heap.overwrite_single fits, ?_, ?_⟩
  · refine .dynamic ⟨atom.size, atom.type, pointer⟩ long nonnull _ ?_
    rw [List.length_append, List.length_drop, atom.sized]
    change atom.size.toNat ≤ _
    omega
  · rw [anyValueData, if_pos long, Heap.block_single, Option.map_some]
    exact congrArg some (List.take_left' atom.sized)

theorem owned_copied (atom : Atom) (number : UInt64) (short : atom.size.toNat ≤ sizeofPointer) :
    ValueStore.Owned ⟨⟨atom.size, atom.type, memcpyNumber number atom.body⟩, .empty⟩ ∧
      anyValueData ⟨⟨atom.size, atom.type, memcpyNumber number atom.body⟩, .empty⟩ = some atom.body := by
  refine ⟨.inlined _ short, ?_⟩
  have fits : atom.body.length ≤ 8 := by rw [atom.sized]; exact short
  have bytes := take_memcpyNumber number fits
  rw [atom.sized] at bytes
  rw [anyValueData, if_neg (Nat.not_lt.mpr short), bytes]

theorem ValueStore.Owned.realloc {store : ValueStore} (owned : store.Owned)
    (blank : store.value.size.toNat ≤ sizeofPointer → store.value.value = 0) (size : Nat)
    (proposal : Option UInt64) :
    store.heap.realloc store.value.value size proposal = some (none, store.heap) ∨
      ∃ (pointer : UInt64) (fresh : pointer ≠ 0) (cells : List Byte), cells.length = size ∧
        store.heap.realloc store.value.value size proposal = some (some pointer, .single pointer fresh cells) := by
  cases owned with
  | inlined value short =>
    have null : value.value = 0 := blank short
    simp only [null]
    exact Heap.realloc_empty size proposal
  | dynamic value long nonnull cells room =>
    apply Heap.realloc_single
    exact nonnull

section

variable {store : ValueStore} {atom : Atom}

theorem anyValueSet_grow_owned (owned : store.Owned) (proposal : Option UInt64)
    (long : sizeofPointer < atom.size.toNat) (grows : store.value.size < atom.size)
    (blank : store.value.size.toNat ≤ sizeofPointer → store.value.value = 0) :
    ∃ reply next, anyValueSet proposal store atom = some (reply, next) ∧ next.Owned ∧
      (ValueCall.set proposal atom).Stored reply next := by
  rw [anyValueSet_grow proposal long grows]
  rcases owned.realloc blank atom.size.toNat proposal with failed | ⟨pointer, fresh, cells, size, moved⟩
  · refine ⟨1, .initial, ?_, ValueStore.owned_initial, by rintro ⟨⟩⟩
    rw [failed, Option.bind_some, anyValueReset_owned owned, Option.bind_some]
  · obtain ⟨heap, written, whole, data⟩ := owned_written atom pointer fresh long size.ge
    refine ⟨0, ⟨⟨atom.size, atom.type, pointer⟩, heap⟩, ?_, whole, fun _ => ⟨rfl, rfl, data⟩⟩
    simp only [moved, Option.bind_some, written]

theorem anyValueSet_fit_owned (owned : store.Owned) (proposal : Option UInt64)
    (long : sizeofPointer < atom.size.toNat) (fits : ¬ store.value.size < atom.size) :
    ∃ reply next, anyValueSet proposal store atom = some (reply, next) ∧ next.Owned ∧
      (ValueCall.set proposal atom).Stored reply next := by
  rw [anyValueSet_fit proposal long fits]
  have smaller := UInt32.le_iff_toNat_le.mp (UInt32.not_lt.mp fits)
  cases owned with
  -- An inline value is smaller than the new one
  | inlined value short => exact absurd (smaller.trans short) (Nat.not_le.mpr long)
  | dynamic value longer nonnull cells room =>
    obtain ⟨heap, written, whole, data⟩ := owned_written atom value.value nonnull long (smaller.trans room)
    refine ⟨0, ⟨⟨atom.size, atom.type, value.value⟩, heap⟩, ?_, whole, fun _ => ⟨rfl, rfl, data⟩⟩
    simp only [written, Option.bind_some]

theorem anyValueSet_short_owned (owned : store.Owned) (proposal : Option UInt64)
    (short : atom.size.toNat ≤ sizeofPointer)
    (notPointer : sizeofPointer < store.value.size.toNat → atom.size.toNat ≠ sizeofPointer) :
    ∃ reply next, anyValueSet proposal store atom = some (reply, next) ∧ next.Owned ∧
      (ValueCall.set proposal atom).Stored reply next := by
  by_cases release : store.value.size.toNat > sizeofPointer
  · have shorter : atom.size.toNat < sizeofPointer := Nat.lt_of_le_of_ne short (notPointer release)
    obtain ⟨whole, data⟩ := owned_copied atom AnyValue.zero.value short
    refine ⟨0, _, ?_, whole, fun _ => ⟨rfl, rfl, data⟩⟩
    rw [anyValueSet_release proposal release shorter, anyValueReset_owned owned]
    rfl
  · have kept : ¬ (store.value.size.toNat > sizeofPointer ∧ atom.size.toNat < sizeofPointer) :=
      fun both => release both.1
    cases owned with
    | inlined value small =>
      obtain ⟨whole, data⟩ := owned_copied atom value.value short
      exact ⟨0, _, anyValueSet_short proposal kept short, whole, fun _ => ⟨rfl, rfl, data⟩⟩
    | dynamic value long nonnull cells room => exact absurd long release

end

/-- Every representable call on an owned store has a defined result, and leaves
an owned store that holds the value of the call. -/
theorem ValueCall.run_owned {store : ValueStore} {call : ValueCall} (owned : store.Owned)
    (representable : call.Representable store.value) :
    ∃ reply next, call.run store = some (reply, next) ∧ next.Owned ∧ call.Stored reply next := by
  cases call with
  | reset =>
    refine ⟨0, .initial, ?_, ValueStore.owned_initial, rfl⟩
    rw [ValueCall.run, anyValueReset_owned owned, Option.map_some]
  | set proposal atom =>
    obtain ⟨notPointer, blank⟩ := representable
    by_cases long : sizeofPointer < atom.size.toNat
    · by_cases grows : store.value.size < atom.size
      · exact anyValueSet_grow_owned owned proposal long grows fun short => blank short long
      · exact anyValueSet_fit_owned owned proposal long grows
    · exact anyValueSet_short_owned owned proposal (Nat.not_lt.mp long) notPointer

/-- A call that is not representable passes an invalid pointer to `realloc`, or
overwrites the only pointer to a live block. -/
theorem ValueCall.run_unrepresentable {store : ValueStore} {call : ValueCall} (owned : store.Owned)
    (unrepresentable : ¬ call.Representable store.value) :
    call.run store = none ∨ ∃ next, call.run store = some (0, next) ∧ ¬ next.NoLeak := by
  cases call with
  | reset => exact absurd trivial unrepresentable
  | set proposal atom =>
    cases owned with
    | inlined value short =>
      left
      -- The word of the inline value is passed to `realloc` as a pointer
      have both : sizeofPointer < atom.size.toNat ∧ value.value ≠ 0 := by
        by_contra neither
        refine unrepresentable ⟨fun long => absurd long (Nat.not_lt.mpr short), fun _ long => ?_⟩
        by_contra nonzero
        exact neither ⟨long, nonzero⟩
      have grows : value.size < atom.size := UInt32.lt_iff_toNat_lt.mpr (Nat.lt_of_le_of_lt short both.1)
      rw [ValueCall.run, anyValueSet_grow proposal both.1 grows,
        Heap.realloc_invalid (fun valid => both.2 ((Heap.valid_empty _).mp valid)), Option.bind_none]
    | dynamic value long nonnull cells room =>
      right
      -- A value of just the size of a pointer does not release the block
      have pointerSized : atom.size.toNat = sizeofPointer := by
        by_contra other
        exact unrepresentable ⟨fun _ => other, fun short => absurd long (Nat.not_lt.mpr short)⟩
      refine ⟨_, anyValueSet_short proposal (by omega) pointerSized.le, fun kept => ?_⟩
      have live := kept value.value (by rw [Heap.block_single]; exact Option.some_ne_none _)
      exact absurd live.1 (Nat.not_lt.mpr pointerSized.le)

theorem ownershipKept_iff_of_owned {store : ValueStore} (owned : store.Owned) (calls : List ValueCall) :
    OwnershipKept store calls ↔ RepresentableRun store calls := by
  induction calls generalizing store with
  | nil => exact Iff.rfl
  | cons call calls ih =>
    -- The store stays owned as long as the calls are representable, and the first other one fails
    by_cases representable : call.Representable store.value
    · obtain ⟨reply, next, ran, kept, stored⟩ := ValueCall.run_owned owned representable
      constructor
      · rintro ⟨reply', next', ran', _, _, rest⟩
        cases ran.symm.trans ran'
        refine ⟨representable, fun reply'' next'' ran'' => ?_⟩
        cases ran.symm.trans ran''
        exact (ih kept).mp rest
      · rintro ⟨_, rest⟩
        exact ⟨reply, next, ran, kept.noLeak, stored, (ih kept).mpr (rest reply next ran)⟩
    · refine iff_of_false ?_ fun run => representable run.1
      rintro ⟨reply, next, ran, kept, _⟩
      rcases ValueCall.run_unrepresentable owned representable with undefined | ⟨other, ran', leaks⟩
      · cases undefined.symm.trans ran
      · cases ran.symm.trans ran'
        exact leaks kept

/-- From the zero value, exactly the sequences of representable calls keep ownership. -/
theorem ownershipKept_iff (calls : List ValueCall) :
    OwnershipKept .initial calls ↔ RepresentableRun .initial calls :=
  ownershipKept_iff_of_owned ValueStore.owned_initial calls

def unitFloat : Atom := ⟨4, 1, [0, 0, 0x80, 0x3F], rfl⟩

def longString : Atom := ⟨16, 2, List.replicate 15 97 ++ [0], rfl⟩

def unitDouble : Atom := ⟨8, 3, [0, 0, 0, 0, 0, 0, 0xF0, 0x3F], rfl⟩

/-- Setting a float and then a string passes the bytes of the float to `realloc`, and
setting a string and then a double loses the block of the string. -/
theorem ownershipKept_refuted :
    ¬ OwnershipKept .initial [.set none unitFloat, .set (some 4096) longString] ∧
      ¬ OwnershipKept .initial [.set (some 4096) longString, .set none unitDouble] := by
  constructor
  · rintro ⟨_, _, first, _, _, _, _, second, _⟩
    cases first
    cases second
  · rintro ⟨_, _, first, _, _, _, _, second, kept, _⟩
    cases first
    cases second
    exact absurd (kept 4096 (by decide)).1 (by decide)

end Jalv
