import Jalv.Interner.Mapping
import Mathlib.Data.List.ReduceOption

/-! `symap_map` when an allocation fails.

The arrays are grown before they are filled, so a call that gives up halfway leaves
elements behind the first `size` ones that have not been written.
-/

set_option autoImplicit false

namespace Jalv

open Foundation

/-- The arrays as they are allocated. An element that has not been written is `none`. -/
structure SymapArrays where
  symbols : List (Option CString)
  index : List (Option UInt32)
  size : UInt32
  deriving DecidableEq

/-- `realloc`: what fits is kept, and further elements are not written. -/
def reallocated {α : Type} (succeeds : Bool) (array : List (Option α)) (elements : Nat) :
    Option (List (Option α)) :=
  if succeeds then some (array.take elements ++ List.replicate (elements - array.length) none) else none

-- `memmove(array + target, array + source, count)`
def moved {α : Type} (array : List α) (target source count : Nat) : List α :=
  array.take target ++ (array.drop source).take count ++ array.drop (target + count)

namespace SymapArrays

def written (arrays : SymapArrays) : Symap where
  symbols := (arrays.symbols.take arrays.size.toNat).reduceOption
  index := (arrays.index.take arrays.size.toNat).reduceOption
  size := arrays.size

def symapTryMap (arrays : SymapArrays) (sym : CString) : Option UInt32 :=
  Jalv.symapTryMap arrays.written sym

def symapUnmap (arrays : SymapArrays) (id : UInt32) : Option CString :=
  Jalv.symapUnmap arrays.written id

/-- The end of `symap_map`, behind the allocations: the new symbol is appended, and its
ID inserted into the sorted index. -/
def inserted (arrays : SymapArrays) (sym : CString) (index : Nat) : SymapArrays :=
  let symbols := arrays.symbols.set (arrays.size.toNat - 1) (some sym)
  let ids :=
    if index < arrays.size.toNat - 1 then
      moved arrays.index (index + 1) index (arrays.size.toNat - index - 1)
    else arrays.index
  { arrays with symbols, index := ids.set index (some arrays.size) }

def symapMap (allocations : SymapAllocations) (arrays : SymapArrays) (sym : CString) :
    Option (UInt32 × SymapArrays) := do
  let (index, exact) ← symapSearch arrays.written sym
  if exact then
    let id ← arrays.written.index[index]?
    return (id, arrays)
  -- Claim a new highest ID
  let id := arrays.size + 1
  -- What `realloc` does with no elements is left to the C library
  if id = 0 then none
  -- Grow symbol array
  let some symbols := reallocated allocations.symbols arrays.symbols id.toNat | return (0, arrays)
  let arrays := { arrays with symbols }
  -- Grow index array
  let some index' := reallocated allocations.index arrays.index id.toNat | return (0, arrays)
  let arrays := { arrays with index := index', size := id }
  -- The result of `malloc` is passed to `memcpy` unchecked
  if !allocations.copy then none
  return (id, arrays.inserted sym index)

def symapNew : SymapArrays := ⟨[], [], 0⟩

end SymapArrays

/-- A call on the arrays, with the outcome of the allocations that it makes. -/
inductive SymapArraysCall where
  | map : SymapAllocations → CString → SymapArraysCall
  | tryMap : CString → SymapArraysCall
  | unmap : UInt32 → SymapArraysCall
  deriving DecidableEq

def SymapArraysCall.run (arrays : SymapArrays) : SymapArraysCall → Option (SymapReply × SymapArrays)
  | .map allocations sym => (arrays.symapMap allocations sym).map fun result => (.id result.1, result.2)
  | .tryMap sym => (arrays.symapTryMap sym).map fun id => (.id id, arrays)
  | .unmap id => some (.symbol (arrays.symapUnmap id), arrays)

def SymapArrays.replies : List SymapArraysCall → SymapArrays → Option (List SymapReply)
  | [], _ => some []
  | call :: rest, arrays => do
    let (reply, arrays) ← call.run arrays
    let replies ← replies rest arrays
    return reply :: replies

/-- The arrays agree with a map on the elements that count. -/
structure SymapArrays.Holds (arrays : SymapArrays) (map : Symap) : Prop where
  symbols : arrays.symbols.take arrays.size.toNat = map.symbols.map some
  index : arrays.index.take arrays.size.toNat = map.index.map some
  size : arrays.size = map.size

section Reallocated

variable {α : Type} {array : List (Option α)} {elements : List α}

@[simp] theorem reallocated_false (elements : Nat) : reallocated false array elements = none := rfl

theorem reallocated_eq (holds : array.take elements.length = elements.map some) :
    ∃ last, reallocated true array (elements.length + 1) = some (elements.map some ++ [last]) := by
  have length : elements.length ≤ array.length := by
    have same := congrArg List.length holds
    simp only [List.length_take, List.length_map] at same
    omega
  rw [reallocated, if_pos rfl]
  by_cases full : elements.length = array.length
  · refine ⟨none, ?_⟩
    rw [full, List.take_length] at holds
    have one : elements.length + 1 - array.length = 1 := by omega
    rw [List.take_of_length_le (by omega), one, holds, List.replicate_one]
  · have inside : elements.length < array.length := by omega
    refine ⟨array[elements.length], ?_⟩
    rw [List.take_succ_eq_append_getElem inside, holds, Nat.sub_eq_zero_of_le inside]
    simp

theorem moved_eq (place : Nat) (inside : place ≤ elements.length) (last : Option α) (element : α) :
    (if place < elements.length then
        moved (elements.map some ++ [last]) (place + 1) place (elements.length - place)
      else elements.map some ++ [last]).set place (some element) =
      (elements.take place ++ element :: elements.drop place).map some := by
  split
  · next before =>
    have target : (elements.map some ++ [last]).take (place + 1) =
        (elements.take place).map some ++ [some elements[place]] := by
      rw [List.take_append_of_le_length (by rw [List.length_map]; omega), ← List.map_take,
        List.take_succ_eq_append_getElem before, List.map_append]
      rfl
    have source : ((elements.map some ++ [last]).drop place).take (elements.length - place) =
        (elements.drop place).map some := by
      rw [List.drop_append_of_le_length (by simpa using inside), ← List.map_drop]
      exact List.take_left' (by simp)
    have behind : (elements.map some ++ [last]).drop (place + 1 + (elements.length - place)) = [] :=
      List.drop_eq_nil_of_le (by simp; omega)
    rw [moved, target, source, behind, List.append_nil, List.append_assoc,
      List.set_append_right _ _ (by simp)]
    simp [Nat.min_eq_left inside]
  · next last =>
    have whole : place = elements.length := by omega
    subst whole
    rw [List.set_append_right _ _ (by simp)]
    simp

end Reallocated

namespace SymapArrays

variable {arrays : SymapArrays} {map : Symap} {sorted : List CString} {sym : CString}
  {allocations : SymapAllocations}

theorem reduceOption_map_some {α : Type} (list : List α) : (list.map some).reduceOption = list := by
  change (list.map some).filterMap id = list
  rw [List.filterMap_map]
  exact List.filterMap_some

theorem Holds.written_eq (holds : arrays.Holds map) : arrays.written = map := by
  have symbols : (arrays.symbols.take arrays.size.toNat).reduceOption = map.symbols := by
    rw [holds.symbols, reduceOption_map_some]
  have index : (arrays.index.take arrays.size.toNat).reduceOption = map.index := by
    rw [holds.index, reduceOption_map_some]
  rw [written, symbols, index, holds.size]

theorem symapMap_of_mem (holds : arrays.Holds map) (valid : map.SortedBy sorted)
    (member : sym ∈ map.symbols) :
    arrays.symapMap allocations sym = some (idOf map.symbols sym, arrays) := by
  rcases valid.search sym with ⟨place, result, found⟩ | ⟨_, _, splits⟩
  · simp [symapMap, holds.written_eq, result, valid.index_eq found]
  · exact absurd (valid.perm.mem_iff.mpr member) splits.notMem

theorem symapMap_undefined (holds : arrays.Holds map) (valid : map.SortedBy sorted)
    (absent : sym ∉ map.symbols)
    (undefined : arrays.size + 1 = 0 ∨ allocations.symbols ∧ allocations.index ∧ ¬allocations.copy) :
    arrays.symapMap allocations sym = none := by
  rcases valid.search sym with ⟨_, _, found⟩ | ⟨place, result, _⟩
  · exact absurd (valid.perm.mem_iff.mp (List.mem_of_getElem? found)) absent
  · rcases undefined with full | ⟨symbols, index, copy⟩
    · simp [symapMap, holds.written_eq, result, full]
    · simp [symapMap, holds.written_eq, result, reallocated, symbols, index, copy]

theorem holds_inserted {symbols : List CString} {ids : List UInt32} {id : UInt32} {place : Nat}
    (sym : CString) (last : Option CString) (other : Option UInt32) (inside : place ≤ ids.length)
    (symbolCount : id.toNat = symbols.length + 1) (idCount : id.toNat = ids.length + 1) :
    (inserted ⟨symbols.map some ++ [last], ids.map some ++ [other], id⟩ sym place).Holds
      ⟨symbols ++ [sym], ids.take place ++ id :: ids.drop place, id⟩ where
  symbols := by
    change ((symbols.map some ++ [last]).set (id.toNat - 1) (some sym)).take id.toNat = _
    rw [symbolCount, Nat.add_sub_cancel, List.set_append_right _ _ (by simp)]
    simp [List.take_of_length_le]
  index := by
    have ids' := moved_eq place inside other id
    have less : id.toNat - 1 = ids.length := by omega
    have count : id.toNat - place - 1 = ids.length - place := by omega
    simp only [inserted, less, count, ids']
    exact List.take_of_length_le (by simp; omega)
  size := rfl

section Grown

variable (holds : arrays.Holds map) (valid : map.SortedBy sorted) (room : arrays.size + 1 ≠ 0)
include holds valid room

theorem grown_toNat : (arrays.size + 1).toNat = map.symbols.length + 1 ∧
    (arrays.size + 1).toNat = map.index.length + 1 := by
  have bound := map.size.toNat_lt
  have length := valid.length_eq
  have lookups := congrArg List.length valid.lookups
  simp only [List.length_map] at lookups
  have positive : (arrays.size + 1).toNat ≠ 0 := fun zero => room (UInt32.toNat_inj.mp zero)
  simp only [holds.size, UInt32.toNat_add, UInt32.reduceToNat, valid.size] at positive ⊢
  omega

theorem grown_symbols : ∃ last, reallocated true arrays.symbols (arrays.size + 1).toNat =
    some (map.symbols.map some ++ [last]) := by
  have symbols := holds.symbols
  rw [holds.size, ← valid.size] at symbols
  rw [(grown_toNat holds valid room).1]
  exact reallocated_eq symbols

theorem grown_index : ∃ last, reallocated true arrays.index (arrays.size + 1).toNat =
    some (map.index.map some ++ [last]) := by
  have same := grown_toNat holds valid room
  have length : map.index.length = map.symbols.length := by omega
  have index := holds.index
  rw [holds.size, ← valid.size, ← length] at index
  rw [same.2]
  exact reallocated_eq index

/-- Where an array cannot be grown, the elements that count are as they were. -/
theorem symapMap_failed (absent : sym ∉ map.symbols) (failed : ¬(allocations.symbols ∧ allocations.index)) :
    ∃ grown, arrays.symapMap allocations sym = some (0, grown) ∧ grown.Holds map := by
  rcases valid.search sym with ⟨_, _, found⟩ | ⟨place, result, _⟩
  · exact absurd (valid.perm.mem_iff.mp (List.mem_of_getElem? found)) absent
  · cases symbols : allocations.symbols with
    | false => exact ⟨arrays, by simp [symapMap, holds.written_eq, result, room, symbols], holds⟩
    | true =>
      have index : allocations.index = false := by simpa [symbols] using failed
      obtain ⟨last, grown⟩ := grown_symbols holds valid room
      refine ⟨{ arrays with symbols := map.symbols.map some ++ [last] }, ?_, ?_, holds.index, holds.size⟩
      · simp [symapMap, holds.written_eq, result, room, symbols, grown, index, -UInt32.toNat_add]
      · change (map.symbols.map some ++ [last]).take arrays.size.toNat = _
        rw [holds.size, ← valid.size]
        exact List.take_left' (by simp)

/-- With every allocation the map is extended as the interner without arrays extends it. -/
theorem symapMap_all (absent : sym ∉ map.symbols) :
    ∃ next map' sorted', arrays.symapMap .all sym = some (arrays.size + 1, next) ∧
      Jalv.symapMap .all map sym = some (arrays.size + 1, map') ∧
      next.Holds map' ∧ map'.SortedBy sorted' := by
  have few : map.size.toNat + 1 < 2 ^ 32 := by
    have same := (grown_toNat holds valid room).1
    have bound := (arrays.size + 1).toNat_lt
    rw [← valid.size]
    omega
  obtain ⟨map', sorted', extended, _, valid'⟩ := valid.map_of_notMem absent few
  rcases valid.search sym with ⟨_, _, found⟩ | ⟨place, result, splits⟩
  · exact absurd (valid.perm.mem_iff.mp (List.mem_of_getElem? found)) absent
  · obtain ⟨last, symbols⟩ := grown_symbols holds valid room
    obtain ⟨other, index⟩ := grown_index holds valid room
    have lengths := grown_toNat holds valid room
    have explicit : Jalv.symapMap .all map sym = some (arrays.size + 1,
        ⟨map.symbols ++ [sym], map.index.take place ++ (arrays.size + 1) :: map.index.drop place,
          arrays.size + 1⟩) := by
      simp [Jalv.symapMap, result, SymapAllocations.all, holds.size]
    rw [explicit] at extended
    obtain ⟨_, same⟩ := Prod.mk.inj (Option.some.inj extended)
    subst same
    let grown : SymapArrays :=
      ⟨map.symbols.map some ++ [last], map.index.map some ++ [other], arrays.size + 1⟩
    refine ⟨grown.inserted sym place, _, sorted', ?_, explicit, ?_, valid'⟩
    · simp [symapMap, holds.written_eq, result, room, symbols, index, SymapAllocations.all,
        grown, -UInt32.toNat_add]
    · have bound := splits.bound
      rw [valid.length_eq, ← valid.size] at bound
      exact holds_inserted sym last other (by omega) lengths.1 lengths.2

end Grown

/-- Both hold one map, so that only what has not been written differs. -/
def Alike (first second : SymapArrays) : Prop :=
  ∃ map sorted, first.Holds map ∧ second.Holds map ∧ map.SortedBy sorted

theorem run_alike {first second : SymapArrays} (alike : first.Alike second) (call : SymapArraysCall) :
    (call.run first = none ∧ call.run second = none) ∨
    ∃ reply first' second', call.run first = some (reply, first') ∧
      call.run second = some (reply, second') ∧ first'.Alike second' := by
  obtain ⟨map, sorted, holds, holds', valid⟩ := alike
  cases call with
  | map allocations sym =>
    simp only [SymapArraysCall.run, Option.map_eq_none_iff, Option.map_eq_some_iff]
    by_cases member : sym ∈ map.symbols
    · refine Or.inr ⟨_, first, second, ⟨_, symapMap_of_mem holds valid member, rfl⟩,
        ⟨_, symapMap_of_mem holds' valid member, rfl⟩, map, sorted, holds, holds', valid⟩
    · have size : second.size = first.size := holds'.size.trans holds.size.symm
      by_cases undefined : first.size + 1 = 0 ∨ allocations.symbols ∧ allocations.index ∧ ¬allocations.copy
      · exact Or.inl ⟨symapMap_undefined holds valid member undefined,
          symapMap_undefined holds' valid member (size ▸ undefined)⟩
      · obtain ⟨room, defined⟩ := not_or.mp undefined
        by_cases grow : allocations.symbols ∧ allocations.index
        · have all : allocations = .all := by
            cases allocations
            simp_all [SymapAllocations.all]
          obtain ⟨next, map', sorted', result, extended, kept, valid'⟩ := symapMap_all holds valid room member
          obtain ⟨next', other, _, result', extended', kept', _⟩ :=
            symapMap_all holds' valid (size ▸ room) member
          rw [extended] at extended'
          obtain ⟨_, rfl⟩ := Prod.mk.inj (Option.some.inj extended')
          rw [size] at result'
          exact Or.inr ⟨_, next, next', ⟨_, all ▸ result, rfl⟩, ⟨_, all ▸ result', rfl⟩,
            map', sorted', kept, kept', valid'⟩
        · obtain ⟨grown, result, kept⟩ := symapMap_failed holds valid room member grow
          obtain ⟨grown', result', kept'⟩ := symapMap_failed holds' valid (size ▸ room) member grow
          exact Or.inr ⟨_, grown, grown', ⟨_, result, rfl⟩, ⟨_, result', rfl⟩,
            map, sorted, kept, kept', valid⟩
  | tryMap sym =>
    have some : ∃ id, Jalv.symapTryMap map sym = some id := by
      by_cases member : sym ∈ map.symbols
      · exact ⟨_, valid.tryMap_of_mem member⟩
      · exact ⟨_, valid.tryMap_of_notMem member⟩
    obtain ⟨id, result⟩ := some
    refine Or.inr ⟨.id id, first, second, ?_, ?_, map, sorted, holds, holds', valid⟩
    · simp [SymapArraysCall.run, symapTryMap, holds.written_eq, result]
    · simp [SymapArraysCall.run, symapTryMap, holds'.written_eq, result]
  | unmap id =>
    refine Or.inr ⟨_, first, second, rfl, ?_, map, sorted, holds, holds', valid⟩
    simp [SymapArraysCall.run, symapUnmap, holds.written_eq, holds'.written_eq]

theorem replies_alike {first second : SymapArrays} (alike : first.Alike second)
    (calls : List SymapArraysCall) : first.replies calls = second.replies calls := by
  induction calls generalizing first second with
  | nil => rfl
  | cons call rest ih =>
    rcases run_alike alike call with ⟨none, none'⟩ | ⟨reply, first', second', result, result', later⟩
    · simp [replies, none, none']
    · simp [replies, result, result', ih later]

/-- All elements that count are written, the symbols are distinct and the index sorts them. -/
def WellFormed (arrays : SymapArrays) : Prop :=
  arrays.Holds arrays.written ∧ ∃ sorted, arrays.written.SortedBy sorted

theorem WellFormed.alike (valid : arrays.WellFormed) : arrays.Alike arrays := by
  obtain ⟨holds, sorted, order⟩ := valid
  exact ⟨arrays.written, sorted, holds, holds, order⟩

/-- Every call that returns leaves a well-formed map. -/
theorem WellFormed.run {next : SymapArrays} {reply : SymapReply} (valid : arrays.WellFormed)
    (call : SymapArraysCall) (result : call.run arrays = some (reply, next)) : next.WellFormed := by
  rcases run_alike valid.alike call with ⟨none, _⟩ | ⟨_, first, _, same, _, map, sorted, holds, _, order⟩
  · rw [none] at result
    cases result
  · rw [same] at result
    cases result
    rw [WellFormed, holds.written_eq]
    exact ⟨holds, sorted, order⟩

/-- `symap_map` makes an allocation for the string, and one of them fails. -/
def AllocationFails (arrays : SymapArrays) (allocations : SymapAllocations) (sym : CString) : Prop :=
  sym ∉ arrays.written.symbols ∧ allocations ≠ .all

/-- The call returns 0, no later call sees that it was made, and a retry gives the next ID. -/
def SurvivesFailure (arrays : SymapArrays) (allocations : SymapAllocations) (sym : CString) : Prop :=
  ∃ next, arrays.symapMap allocations sym = some (0, next) ∧
    (∀ calls, next.replies calls = arrays.replies calls) ∧
    ∃ last, next.symapMap .all sym = some (arrays.size + 1, last)

/-- A failed allocation is survived unless the copy of the string is what fails. -/
theorem symapMap_survivesFailure_iff (valid : arrays.WellFormed) :
    (arrays.AllocationFails allocations sym → arrays.SurvivesFailure allocations sym) ↔
      (arrays.AllocationFails allocations sym →
        arrays.size + 1 ≠ 0 ∧ ¬(allocations.symbols ∧ allocations.index)) := by
  obtain ⟨holds, sorted, order⟩ := valid
  constructor
  · intro survives fails
    obtain ⟨next, result, _⟩ := survives fails
    by_contra bad
    have undefined : arrays.size + 1 = 0 ∨
        allocations.symbols ∧ allocations.index ∧ ¬allocations.copy := by
      by_cases full : arrays.size + 1 = 0
      · exact Or.inl full
      · have grow : allocations.symbols ∧ allocations.index := by
          by_contra none
          exact bad ⟨full, none⟩
        refine Or.inr ⟨grow.1, grow.2, fun copy => fails.2 ?_⟩
        cases allocations
        simp_all [SymapAllocations.all]
    rw [symapMap_undefined holds order fails.1 undefined] at result
    cases result
  · intro condition fails
    obtain ⟨room, failed⟩ := condition fails
    obtain ⟨grown, result, kept⟩ := symapMap_failed holds order room fails.1 failed
    have size : grown.size = arrays.size := kept.size.trans holds.size.symm
    obtain ⟨last, _, _, retried, _⟩ := symapMap_all kept order (size ▸ room) fails.1
    exact ⟨grown, result, replies_alike ⟨_, sorted, kept, holds, order⟩, last, size ▸ retried⟩

theorem wellFormed_symapNew : symapNew.WellFormed :=
  ⟨⟨rfl, rfl, rfl⟩, [], sortedBy_symapNew⟩

def failureTestArrays : SymapArrays := ⟨[some ⟨[106, 97], by decide⟩], [some 1], 1⟩

/-- `a` cannot be mapped, as the index does not grow, but may be mapped later. -/
theorem symapMap_survivesFailure_new :
    failureTestArrays.AllocationFails ⟨true, false, true⟩ ⟨[97], by decide⟩ ∧
      failureTestArrays.SurvivesFailure ⟨true, false, true⟩ ⟨[97], by decide⟩ := by
  have valid : failureTestArrays.WellFormed := wellFormed_symapNew.run (.map .all ⟨[106, 97], by decide⟩) rfl
  have fails : failureTestArrays.AllocationFails ⟨true, false, true⟩ ⟨[97], by decide⟩ := by
    simp [AllocationFails, written, failureTestArrays, SymapAllocations.all]
  refine ⟨fails, (symapMap_survivesFailure_iff valid).mpr (fun _ => ⟨by decide, by decide⟩) fails⟩

theorem not_survivesFailure :
    ¬∀ (arrays : SymapArrays) (allocations : SymapAllocations) (sym : CString), arrays.WellFormed →
      arrays.AllocationFails allocations sym → arrays.SurvivesFailure allocations sym := by
  intro claim
  obtain ⟨next, result, _⟩ := claim symapNew ⟨true, true, false⟩ ⟨[97], by decide⟩ wellFormed_symapNew
    (by simp [AllocationFails, written, symapNew, SymapAllocations.all])
  have undefined : symapNew.symapMap ⟨true, true, false⟩ ⟨[97], by decide⟩ = none := rfl
  rw [undefined] at result
  cases result

end SymapArrays

end Jalv
