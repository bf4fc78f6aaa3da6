import Jalv.Foundation.Lists
import Jalv.Interner.Search

/-! What `symap_search` reads of the index, with its bounds in 32 bits.

The bounds wrap around, and the rounds of the loop are counted down, because it is
not known beforehand that it ends.
-/

set_option autoImplicit false

namespace Jalv

open Foundation

/-- The loop of `symap_search`, with the places of the index that it reads. -/
def symapSearchFrom (map : Symap) (sym : CString) :
    Nat → UInt32 → UInt32 → UInt32 → Option (List UInt32 × UInt32 × Bool)
  | 0, _, _, _ => none
  | rounds + 1, lower, upper, i =>
    if upper ≥ lower then do
      let i := lower + (upper - lower) / 2
      let symbol ← map.symbolAt i.toNat
      let cmp := strcmp symbol sym
      if cmp = 0 then return ([i], i, true)
      let (reads, result) ←
        if cmp > 0 then
          if i = 0 then some ([], i, false) -- Avoid underflow
          else symapSearchFrom map sym rounds lower (i - 1) i
        else symapSearchFrom map sym rounds (i + 1) upper (i + 1)
      return (i :: reads, result)
    else some ([], i, false)

def symapSearchWithin (rounds : Nat) (map : Symap) (sym : CString) : Option (List UInt32 × UInt32 × Bool) :=
  if map.size = 0 then some ([], 0, false) -- Empty map, insert at 0
  else do
    let symbol ← map.symbolAt (map.size - 1).toNat
    if strcmp symbol sym < 0 then return ([map.size - 1], map.size, false)
    let (reads, result) ← symapSearchFrom map sym rounds 0 (map.size - 1) (map.size - 1)
    return ((map.size - 1) :: reads, result)

namespace Symap

def strings (map : Symap) : List CString := map.index.filterMap map.symbolOf

/-- The index is a permutation of the numbers from one to the size, strictly sorted by string. -/
structure Indexed (map : Symap) : Prop where
  size : map.symbols.length = map.size.toNat
  perm : map.index.Perm ((List.range map.size.toNat).map fun place => UInt32.ofNat (place + 1))
  order : map.strings.Pairwise fun first second => strcmp first second < 0

/-- The strings are strictly sorted with another one inserted. -/
def SortedWith (map : Symap) (sym : CString) (place : Nat) : Prop :=
  (map.strings.take place ++ sym :: map.strings.drop place).Pairwise fun first second => strcmp first second < 0

/-- A search that only reads what is in the index finds the place of the string, or the one at which
it is to be inserted. -/
structure Finds (map : Symap) (sym : CString) (reads : List UInt32) (place : UInt32) (exact : Bool) : Prop where
  inside : ∀ i ∈ reads, i < map.size
  present : exact = true ↔ sym ∈ map.symbols
  found : exact = true → map.symbolAt place.toNat = some sym
  inserted : exact = false → ∀ position ≤ map.size.toNat, map.SortedWith sym position ↔ position = place.toNat

variable {map : Symap} {sorted : List CString}

theorem symbolOf_ofNat {place : Nat} (inside : place < map.size.toNat) :
    map.symbolOf (UInt32.ofNat (place + 1)) = map.symbols[place]? := by
  have bound := map.size.toNat_lt
  rw [symbolOf, UInt32.ofNat_add, show UInt32.ofNat 1 = 1 from rfl, UInt32.add_sub_cancel, UInt32.toNat_ofNat',
    Nat.mod_eq_of_lt (by omega)]

theorem Indexed.sortedBy (indexed : map.Indexed) : map.SortedBy map.strings := by
  have lookups : ((List.range map.size.toNat).map fun place => UInt32.ofNat (place + 1)).map map.symbolOf =
      map.symbols.map some := by
    refine List.ext_getElem? fun place => ?_
    rw [List.map_map, List.getElem?_map, List.getElem?_map]
    by_cases inside : place < map.size.toNat
    · rw [List.getElem?_range inside, Option.map_some, Function.comp, symbolOf_ofNat inside,
        List.getElem?_eq_getElem (indexed.size ▸ inside), Option.map_some]
    · rw [List.getElem?_eq_none (by rw [List.length_range]; omega),
        List.getElem?_eq_none (by rw [indexed.size]; omega)]
      rfl
  have perm := (indexed.perm.map map.symbolOf).trans (.of_eq lookups)
  refine ⟨?_, indexed.order.imp fun less => (strcmp_neg _ _).mp less, ?_, indexed.size⟩
  · refine (map_some_filterMap fun id member => ?_).symm
    obtain ⟨symbol, _, same⟩ := List.mem_map.mp (perm.mem_iff.mp (List.mem_map_of_mem member))
    exact ⟨symbol, same.symm⟩
  · have strings := perm.filterMap id
    rw [List.filterMap_map, List.filterMap_map] at strings
    exact strings.trans (.of_eq List.filterMap_some)

/-- As long as its bounds are those of a part of the index, the loop reads inside of it, and has the result
that it has with bounds of any size. -/
theorem SortedBy.searchFrom (valid : map.SortedBy sorted) (sym : CString) {rounds : Nat} {lower upper : UInt32}
    (order : lower.toNat ≤ upper.toNat + 1) (inside : upper.toNat < map.size.toNat)
    (enough : upper.toNat + 1 - lower.toNat < rounds) (i : UInt32) :
    ∃ reads place exact, symapSearchFrom map sym rounds lower upper i = some (reads, place, exact) ∧
      (∀ read ∈ reads, read < map.size) ∧
      symapSearchLoop map sym lower.toNat upper.toNat i.toNat = some (place.toNat, exact) := by
  have bound := map.size.toNat_lt
  induction rounds generalizing lower upper i with
  | zero => omega
  | succ rounds ih =>
    rw [symapSearchFrom]
    by_cases ordered : upper ≥ lower
    · have ordered' : lower.toNat ≤ upper.toNat := UInt32.le_iff_toNat_le.mp ordered
      generalize half : lower + (upper - lower) / 2 = middle
      have halved : middle.toNat = lower.toNat + (upper.toNat - lower.toNat) / 2 := by
        subst half
        simp only [UInt32.toNat_add, UInt32.toNat_div, UInt32.toNat_sub_of_le _ _ ordered, UInt32.reduceToNat]
        omega
      have place : middle.toNat < sorted.length := by
        rw [valid.length_eq]
        omega
      have found : map.symbolAt middle.toNat = some sorted[middle.toNat] := by
        rw [valid.symbolAt_eq, List.getElem?_eq_getElem place]
      have read : middle < map.size := UInt32.lt_iff_toNat_lt.mpr (by omega)
      rw [if_pos ordered, symapSearchLoop_step _ ordered' halved found]
      dsimp only
      rw [found, Option.bind_eq_bind, Option.bind_some]
      by_cases equal : strcmp sorted[middle.toNat] sym = 0
      · rw [if_pos equal, if_pos equal]
        exact ⟨[middle], middle, true, rfl, List.forall_mem_singleton.mpr read, rfl⟩
      rw [if_neg equal, if_neg equal]
      by_cases greater : strcmp sorted[middle.toNat] sym > 0
      · rw [if_pos greater, if_pos greater]
        by_cases zero : middle = 0
        · have first : middle.toNat = 0 := congrArg UInt32.toNat zero
          rw [if_pos zero, if_pos first]
          exact ⟨[middle], middle, false, rfl, List.forall_mem_singleton.mpr read, rfl⟩
        · have positive : middle.toNat ≠ 0 := fun same => zero (UInt32.toNat_inj.mp same)
          have before : (middle - 1).toNat = middle.toNat - 1 := by
            simp only [UInt32.toNat_sub, UInt32.reduceToNat]
            omega
          obtain ⟨reads, last, exact', ran, others, same⟩ :=
            @ih lower (middle - 1) (by omega) (by omega) (by omega) middle
          rw [if_neg zero, if_neg positive, ran, ← before]
          exact ⟨middle :: reads, last, exact', rfl, List.forall_mem_cons.mpr ⟨read, others⟩, same⟩
      · have behind : (middle + 1).toNat = middle.toNat + 1 := by
          simp only [UInt32.toNat_add, UInt32.reduceToNat]
          omega
        obtain ⟨reads, last, exact', ran, others, same⟩ :=
          @ih (middle + 1) upper (by omega) inside (by omega) (middle + 1)
        rw [if_neg greater, if_neg greater, ran, ← behind]
        exact ⟨middle :: reads, last, exact', rfl, List.forall_mem_cons.mpr ⟨read, others⟩, same⟩
    · have crossed : ¬lower.toNat ≤ upper.toNat := fun less => ordered (UInt32.le_iff_toNat_le.mpr less)
      refine ⟨[], i, false, if_neg ordered, List.forall_mem_nil _, ?_⟩
      rw [symapSearchLoop, if_neg crossed]

theorem SortedBy.searchWithin (valid : map.SortedBy sorted) (sym : CString) :
    ∃ reads place exact, symapSearchWithin (map.size.toNat + 1) map sym = some (reads, place, exact) ∧
      (∀ read ∈ reads, read < map.size) ∧ symapSearch map sym = some (place.toNat, exact) := by
  have length := valid.length_eq
  rw [symapSearchWithin, symapSearch]
  by_cases empty : map.size = 0
  · rw [if_pos empty, if_pos empty]
    exact ⟨[], 0, false, rfl, List.forall_mem_nil _, rfl⟩
  · have positive : map.size.toNat ≠ 0 := fun zero => empty (UInt32.toNat_inj.mp zero)
    have bound := map.size.toNat_lt
    have last : (map.size - 1).toNat = map.size.toNat - 1 := by
      simp only [UInt32.toNat_sub, UInt32.reduceToNat]
      omega
    have inside : (map.size - 1).toNat < sorted.length := by omega
    have read : map.size - 1 < map.size := UInt32.lt_iff_toNat_lt.mpr (by omega)
    have found : map.symbolAt (map.size - 1).toNat = some sorted[(map.size - 1).toNat] := by
      rw [valid.symbolAt_eq, List.getElem?_eq_getElem inside]
    rw [if_neg empty, if_neg empty, found, Option.bind_eq_bind, Option.bind_some]
    dsimp only
    by_cases less : strcmp sorted[(map.size - 1).toNat] sym < 0
    · rw [if_pos less, if_pos less]
      exact ⟨[map.size - 1], map.size, false, rfl, List.forall_mem_singleton.mpr read, rfl⟩
    · obtain ⟨reads, place, exact', ran, others, same⟩ :=
        @SortedBy.searchFrom map sorted valid sym (map.size.toNat + 1) 0 (map.size - 1) (Nat.zero_le _) (by omega)
          (by rw [UInt32.toNat_zero]; omega) (map.size - 1)
      rw [if_neg less, if_neg less, ran]
      exact ⟨(map.size - 1) :: reads, place, exact', rfl, List.forall_mem_cons.mpr ⟨read, others⟩, same⟩

theorem SortedBy.sortedWith_iff (valid : map.SortedBy map.strings) {sym : CString} {place position : Nat}
    (splits : SplitsAt map.strings sym place) (bound : position ≤ map.size.toNat) :
    map.SortedWith sym position ↔ position = place := by
  have same : map.SortedWith sym position ↔
      (map.strings.take position ++ sym :: map.strings.drop position).Pairwise (· < ·) :=
    ⟨fun order => order.imp fun less => (strcmp_neg _ _).mp less,
      fun order => order.imp fun less => (strcmp_neg _ _).mpr less⟩
  rw [same]
  constructor
  · exact fun order => (splitsAt_of_sorted_insert (valid.length_eq.symm ▸ bound) order).unique splits
  · rintro rfl
    exact splits.sorted_insert valid.order

/-- The search ends, reads inside of the index, and finds the string or its place. -/
theorem symapSearch_finds (indexed : map.Indexed) (sym : CString) :
    ∃ reads place exact, symapSearchWithin (map.size.toNat + 1) map sym = some (reads, place, exact) ∧
      map.Finds sym reads place exact := by
  have valid := indexed.sortedBy
  obtain ⟨reads, place, exact', ran, inside, same⟩ := valid.searchWithin sym
  refine ⟨reads, place, exact', ran, ?_⟩
  rcases valid.search sym with ⟨other, found, here⟩ | ⟨other, missed, splits⟩
  · cases same.symm.trans found
    have member : sym ∈ map.symbols := valid.perm.mem_iff.mp (List.mem_of_getElem? here)
    exact ⟨inside, iff_of_true rfl member, fun _ => (valid.symbolAt_eq _).trans here,
      fun missed => absurd missed.symm Bool.false_ne_true⟩
  · cases same.symm.trans missed
    have absent : sym ∉ map.symbols := fun member => splits.notMem (valid.perm.mem_iff.mpr member)
    exact ⟨inside, iff_of_false Bool.false_ne_true absent, fun found => absurd found Bool.false_ne_true,
      fun _ _ bound => valid.sortedWith_iff splits bound⟩

def searchTestMap : Symap := ⟨[⟨[121], by decide⟩, ⟨[120], by decide⟩], [2, 1], 2⟩

theorem searchTestMap_indexed : searchTestMap.Indexed := ⟨rfl, by decide, by decide⟩

def searchTestString : CString := ⟨[120, 97], by decide⟩

theorem symapSearch_finds_test :
    ∃ reads, symapSearchWithin 3 searchTestMap searchTestString = some (reads, 1, false) ∧
      searchTestMap.Finds searchTestString reads 1 false := by
  obtain ⟨reads, place, exact', ran, finds⟩ := symapSearch_finds searchTestMap_indexed searchTestString
  have found : (symapSearchWithin 3 searchTestMap searchTestString).map (·.2) = some (1, false) := rfl
  cases found.symm.trans (congrArg (Option.map (·.2)) ran)
  exact ⟨reads, ran, finds⟩

end Symap

end Jalv
