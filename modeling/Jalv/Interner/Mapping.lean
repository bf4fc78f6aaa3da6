import Jalv.Interner.Search

/-! The interner numbers strings in the order in which they are first mapped. -/

set_option autoImplicit false

namespace Jalv

open Foundation

def idOf (symbols : List CString) (sym : CString) : UInt32 := UInt32.ofNat (symbols.idxOf sym + 1)

inductive SymapCall where
  | map : CString → SymapCall
  | tryMap : CString → SymapCall
  | unmap : UInt32 → SymapCall
  deriving DecidableEq

inductive SymapReply where
  | id : UInt32 → SymapReply
  | symbol : Option CString → SymapReply
  deriving DecidableEq

namespace SymapCall

def run (map : Symap) : SymapCall → Option (SymapReply × Symap)
  | .map sym => (symapMap .all map sym).map fun result => (.id result.1, result.2)
  | .tryMap sym => (symapTryMap map sym).map fun id => (.id id, map)
  | .unmap id => some (.symbol (symapUnmap map id), map)

def mapped (symbols : List CString) : SymapCall → List CString
  | .map sym => if sym ∈ symbols then symbols else symbols ++ [sym]
  | .tryMap _ | .unmap _ => symbols

def expected (symbols : List CString) : SymapCall → SymapReply
  | .map sym => .id (idOf (mapped symbols (.map sym)) sym)
  | .tryMap sym => .id (if sym ∈ symbols then idOf symbols sym else 0)
  | .unmap id => .symbol (if id = 0 then none else symbols[id.toNat - 1]?)

end SymapCall

def symapRun : List SymapCall → Symap → Option (List SymapReply × Symap)
  | [], map => some ([], map)
  | call :: rest, map => do
    let (reply, map) ← call.run map
    let (replies, map) ← symapRun rest map
    return (reply :: replies, map)

def mappedFrom (symbols : List CString) (calls : List SymapCall) : List CString :=
  calls.foldl SymapCall.mapped symbols

def distinctSymbols (calls : List SymapCall) : List CString := mappedFrom [] calls

def expectedReplies : List CString → List SymapCall → List SymapReply
  | _, [] => []
  | symbols, call :: rest => call.expected symbols :: expectedReplies (call.mapped symbols) rest

structure Interns (map : Symap) (symbols : List CString) : Prop where
  mapped : ∀ sym ∈ symbols, symapMap .all map sym = some (idOf symbols sym, map)
  tried : ∀ sym ∈ symbols, symapTryMap map sym = some (idOf symbols sym)
  absent : ∀ sym, sym ∉ symbols → symapTryMap map sym = some 0
  unmapped : ∀ sym ∈ symbols, symapUnmap map (idOf symbols sym) = some sym
  unmapZero : symapUnmap map 0 = none
  unmapUnused : ∀ id : UInt32, symbols.length < id.toNat → symapUnmap map id = none
  nonzero : ∀ sym ∈ symbols, idOf symbols sym ≠ 0
  injective : ∀ first ∈ symbols, ∀ second ∈ symbols,
    idOf symbols first = idOf symbols second → first = second
  dense : ∀ id : UInt32, 1 ≤ id.toNat → id.toNat ≤ symbols.length → ∃ sym ∈ symbols, idOf symbols sym = id

section Ids

variable {symbols : List CString} {sym : CString}

theorem toNat_idOf (member : sym ∈ symbols) (few : symbols.length < 2 ^ 32 - 1) :
    (idOf symbols sym).toNat = symbols.idxOf sym + 1 := by
  have inside := List.idxOf_lt_length_iff.mpr member
  rw [idOf, UInt32.toNat_ofNat', Nat.mod_eq_of_lt (by omega)]

theorem idOf_append (member : sym ∈ symbols) (others : List CString) :
    idOf (symbols ++ others) sym = idOf symbols sym := by
  rw [idOf, List.idxOf_append_of_mem member, idOf]

theorem idOf_new (absent : sym ∉ symbols) :
    idOf (symbols ++ [sym]) sym = UInt32.ofNat (symbols.length + 1) := by
  rw [idOf, List.idxOf_append_of_notMem absent]
  simp

end Ids

namespace Symap.SortedBy

variable {map : Symap} {sorted : List CString}

theorem nodup (valid : map.SortedBy sorted) : map.symbols.Nodup :=
  valid.perm.nodup_iff.mp (valid.order.imp fun less => ne_of_lt less)

theorem index_eq (valid : map.SortedBy sorted) {sym : CString} {place : Nat}
    (found : sorted[place]? = some sym) : map.index[place]? = some (idOf map.symbols sym) := by
  have symbol := valid.symbolAt_eq place
  rw [found, Symap.symbolAt, Option.bind_eq_some_iff] at symbol
  obtain ⟨id, index, symbol⟩ := symbol
  rw [Symap.symbolOf] at symbol
  obtain ⟨inside, value⟩ := List.getElem?_eq_some_iff.mp symbol
  have position : map.symbols.idxOf sym = (id - 1).toNat := by
    rw [← value]
    exact valid.nodup.idxOf_getElem _ inside
  rw [index, idOf, position, UInt32.ofNat_add, UInt32.ofNat_toNat]
  exact congrArg some (UInt32.sub_add_cancel id 1).symm

theorem tryMap_of_mem (valid : map.SortedBy sorted) {sym : CString} (member : sym ∈ map.symbols) :
    symapTryMap map sym = some (idOf map.symbols sym) := by
  rcases valid.search sym with ⟨place, result, found⟩ | ⟨_, _, splits⟩
  · simp [symapTryMap, result, valid.index_eq found]
  · exact absurd (valid.perm.mem_iff.mpr member) splits.notMem

theorem tryMap_of_notMem (valid : map.SortedBy sorted) {sym : CString} (absent : sym ∉ map.symbols) :
    symapTryMap map sym = some 0 := by
  rcases valid.search sym with ⟨_, _, found⟩ | ⟨place, result, _⟩
  · exact absurd (valid.perm.mem_iff.mp (List.mem_of_getElem? found)) absent
  · simp [symapTryMap, result]

theorem map_of_mem (valid : map.SortedBy sorted) {sym : CString} (member : sym ∈ map.symbols) :
    symapMap .all map sym = some (idOf map.symbols sym, map) := by
  rcases valid.search sym with ⟨place, result, found⟩ | ⟨_, _, splits⟩
  · simp [symapMap, result, valid.index_eq found]
  · exact absurd (valid.perm.mem_iff.mpr member) splits.notMem

theorem lookups_append (valid : map.SortedBy sorted) (sym : CString) (next : Symap)
    (symbols : next.symbols = map.symbols ++ [sym]) :
    map.index.map next.symbolOf = sorted.map some := by
  rw [← valid.lookups]
  apply List.map_congr_left
  intro id member
  have found : map.symbolOf id ∈ sorted.map some := valid.lookups ▸ List.mem_map_of_mem member
  obtain ⟨symbol, _, value⟩ := List.mem_map.mp found
  obtain ⟨inside, _⟩ := List.getElem?_eq_some_iff.mp value.symm
  rw [Symap.symbolOf, symbols, List.getElem?_append_left inside, Symap.symbolOf]

theorem map_of_notMem (valid : map.SortedBy sorted) {sym : CString} (absent : sym ∉ map.symbols)
    (few : map.size.toNat + 1 < 2 ^ 32) :
    ∃ next sorted', symapMap .all map sym = some (idOf (map.symbols ++ [sym]) sym, next) ∧
      next.symbols = map.symbols ++ [sym] ∧ next.SortedBy sorted' := by
  rcases valid.search sym with ⟨_, _, found⟩ | ⟨place, result, splits⟩
  · exact absurd (valid.perm.mem_iff.mp (List.mem_of_getElem? found)) absent
  -- The new ID is the new size, which does not overflow
  · have grown : (map.size + 1).toNat = map.size.toNat + 1 := by
      simp only [UInt32.toNat_add, UInt32.reduceToNat]
      omega
    have newest : idOf (map.symbols ++ [sym]) sym = map.size + 1 := by
      rw [idOf_new absent, valid.size, ← grown, UInt32.ofNat_toNat]
    let next : Symap :=
      ⟨map.symbols ++ [sym], map.index.take place ++ (map.size + 1) :: map.index.drop place, map.size + 1⟩
    have old := valid.lookups_append sym next rfl
    have new : next.symbolOf (map.size + 1) = some sym := by
      rw [Symap.symbolOf, UInt32.add_sub_cancel, ← valid.size]
      simp [next]
    refine ⟨next, sorted.take place ++ sym :: sorted.drop place, ?_, rfl, ?_, ?_, ?_, ?_⟩
    · rw [newest]
      simp [symapMap, result, SymapAllocations.all, next]
    · change (map.index.take place ++ (map.size + 1) :: map.index.drop place).map next.symbolOf = _
      rw [List.map_append, List.map_cons, List.map_take, List.map_drop, old, new]
      simp only [List.map_append, List.map_cons, List.map_take, List.map_drop]
    · exact splits.sorted_insert valid.order
    · exact (perm_insert sorted sym place).trans (valid.perm.append_right [sym])
    · simp only [next, List.length_append, List.length_singleton, valid.size, grown]

theorem unmap_eq (valid : map.SortedBy sorted) (id : UInt32) :
    symapUnmap map id = if id = 0 then none else map.symbols[id.toNat - 1]? := by
  unfold symapUnmap
  split
  · rfl
  · next nonzero =>
    have positive : id.toNat ≠ 0 := fun zero => nonzero (UInt32.toNat_inj.mp zero)
    have bound := id.toNat_lt
    have position : (id - 1).toNat = id.toNat - 1 := by
      simp only [UInt32.toNat_sub, UInt32.reduceToNat]
      omega
    split
    · rw [Symap.symbolOf, position]
    · next beyond =>
      have size := valid.size
      rw [UInt32.le_iff_toNat_le] at beyond
      exact (List.getElem?_eq_none (by omega)).symm

theorem interns (valid : map.SortedBy sorted) (few : map.symbols.length < 2 ^ 32 - 1) :
    Interns map map.symbols where
  mapped _ member := valid.map_of_mem member
  tried _ member := valid.tryMap_of_mem member
  absent _ notMember := valid.tryMap_of_notMem notMember
  nonzero sym member zero := by
    have value := toNat_idOf member few
    rw [zero] at value
    cases value
  unmapped sym member := by
    have value := toNat_idOf member few
    have nonzero : idOf map.symbols sym ≠ 0 := by
      intro zero
      rw [zero] at value
      cases value
    rw [valid.unmap_eq, if_neg nonzero, value, Nat.add_sub_cancel]
    exact List.getElem?_idxOf member
  unmapZero := rfl
  unmapUnused id beyond := by
    rw [valid.unmap_eq]
    split
    · rfl
    · exact List.getElem?_eq_none (by omega)
  injective first memberFirst second memberSecond same := by
    have values := congrArg UInt32.toNat same
    rw [toNat_idOf memberFirst few, toNat_idOf memberSecond few] at values
    exact (List.idxOf_inj memberFirst).mp (Nat.add_right_cancel values)
  -- An ID that has been given is the position of some symbol
  dense id positive bound := by
    have inside : id.toNat - 1 < map.symbols.length := by omega
    refine ⟨map.symbols[id.toNat - 1], List.getElem_mem inside, ?_⟩
    rw [idOf, valid.nodup.idxOf_getElem _ inside, Nat.sub_add_cancel positive, UInt32.ofNat_toNat]

end Symap.SortedBy

theorem sortedBy_symapNew : symapNew.SortedBy [] where
  lookups := rfl
  order := .nil
  perm := .nil
  size := rfl

theorem mappedFrom_of_subset (symbols : List CString) (calls : List SymapCall) :
    symbols <+: mappedFrom symbols calls := by
  -- Mapping only appends
  induction calls generalizing symbols with
  | nil => exact List.prefix_refl symbols
  | cons call rest ih =>
    refine List.IsPrefix.trans ?_ (ih (call.mapped symbols))
    cases call with
    | map sym =>
      rw [SymapCall.mapped]
      split
      · exact List.prefix_refl symbols
      · exact List.prefix_append symbols [sym]
    | tryMap => exact List.prefix_refl symbols
    | unmap => exact List.prefix_refl symbols

theorem mappedFrom_append (symbols : List CString) (before after : List SymapCall) :
    mappedFrom symbols (before ++ after) = mappedFrom (mappedFrom symbols before) after :=
  List.foldl_append

/-- One call replies as numbering by first mapping requires, and maps what it should. -/
theorem SymapCall.run_eq {map : Symap} {sorted : List CString} (valid : map.SortedBy sorted)
    (call : SymapCall) (few : (call.mapped map.symbols).length < 2 ^ 32 - 1) :
    ∃ next sorted', call.run map = some (call.expected map.symbols, next) ∧
      next.symbols = call.mapped map.symbols ∧ next.SortedBy sorted' := by
  cases call with
  | map sym =>
    by_cases member : sym ∈ map.symbols
    · refine ⟨map, sorted, ?_, ?_, valid⟩
      · simp [run, valid.map_of_mem member, expected, mapped, member]
      · simp [mapped, member]
    · simp only [mapped, member, if_false, List.length_append, List.length_singleton] at few
      obtain ⟨next, sorted', result, symbols, valid'⟩ :=
        valid.map_of_notMem member (by rw [← valid.size]; omega)
      refine ⟨next, sorted', ?_, ?_, valid'⟩
      · simp [run, result, expected, mapped, member]
      · simp [mapped, member, symbols]
  | tryMap sym =>
    refine ⟨map, sorted, ?_, rfl, valid⟩
    by_cases member : sym ∈ map.symbols
    · simp [run, valid.tryMap_of_mem member, expected, member]
    · simp [run, valid.tryMap_of_notMem member, expected, member]
  | unmap id =>
    refine ⟨map, sorted, ?_, rfl, valid⟩
    simp only [run, valid.unmap_eq, expected]

theorem symapRun_eq {map : Symap} {sorted : List CString} (valid : map.SortedBy sorted)
    (calls : List SymapCall) (few : (mappedFrom map.symbols calls).length < 2 ^ 32 - 1) :
    ∃ next sorted', symapRun calls map = some (expectedReplies map.symbols calls, next) ∧
      next.symbols = mappedFrom map.symbols calls ∧ next.SortedBy sorted' := by
  induction calls generalizing map sorted with
  | nil => exact ⟨map, sorted, rfl, rfl, valid⟩
  | cons call rest ih =>
    have fewNow : (call.mapped map.symbols).length < 2 ^ 32 - 1 :=
      Nat.lt_of_le_of_lt (mappedFrom_of_subset (call.mapped map.symbols) rest).length_le few
    obtain ⟨next, sorted', result, symbols, valid'⟩ := call.run_eq valid fewNow
    have later : mappedFrom next.symbols rest = mappedFrom map.symbols (call :: rest) := by
      rw [symbols]
      rfl
    obtain ⟨last, sortedLast, results, symbolsLast, validLast⟩ := ih valid' (later ▸ few)
    refine ⟨last, sortedLast, ?_, symbolsLast.trans later, validLast⟩
    simp [symapRun, result, results, symbols, expectedReplies]

/-- On a new map every sequence of calls is answered as the numbering of strings by
their first mapping requires. The numbering holds at the end, and no ID given
earlier in the sequence has changed. -/
theorem symapRun_numbers (calls : List SymapCall)
    (few : (distinctSymbols calls).length < 2 ^ 32 - 1) :
    ∃ map, symapRun calls symapNew = some (expectedReplies [] calls, map) ∧
      Interns map (distinctSymbols calls) ∧
      ∀ before after, calls = before ++ after → ∀ sym ∈ distinctSymbols before,
        idOf (distinctSymbols calls) sym = idOf (distinctSymbols before) sym := by
  obtain ⟨map, sorted, result, symbols, valid⟩ := symapRun_eq sortedBy_symapNew calls few
  refine ⟨map, result, ?_, ?_⟩
  · have all : map.symbols = distinctSymbols calls := symbols
    rw [← all] at few ⊢
    exact valid.interns few
  · rintro before after rfl sym member
    obtain ⟨others, same⟩ := mappedFrom_of_subset (distinctSymbols before) after
    rw [distinctSymbols, mappedFrom_append, ← distinctSymbols, ← same, idOf_append member]

-- The strings that `symap_test` maps: hello, bonjour, goodbye, aloha and salut.
def symapTestSymbols : List CString :=
  [⟨[104, 101, 108, 108, 111], by decide⟩, ⟨[98, 111, 110, 106, 111, 117, 114], by decide⟩,
    ⟨[103, 111, 111, 100, 98, 121, 101], by decide⟩, ⟨[97, 108, 111, 104, 97], by decide⟩,
    ⟨[115, 97, 108, 117, 116], by decide⟩]

def symapTestCalls : List SymapCall :=
  symapTestSymbols.flatMap fun sym => [.tryMap sym, .map sym, .map sym]

theorem symapRun_numbers_test :
    ∃ map, symapRun symapTestCalls symapNew = some (expectedReplies [] symapTestCalls, map) ∧
      Interns map (distinctSymbols symapTestCalls) ∧
      ∀ before after, symapTestCalls = before ++ after → ∀ sym ∈ distinctSymbols before,
        idOf (distinctSymbols symapTestCalls) sym = idOf (distinctSymbols before) sym :=
  symapRun_numbers symapTestCalls (by decide)

end Jalv
