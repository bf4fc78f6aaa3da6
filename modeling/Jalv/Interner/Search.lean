import Jalv.Foundation.SortedList
import Jalv.Interner.Symap
import Mathlib.Order.Lattice
import Mathlib.Data.List.Lex

/-! The binary search of the interner over a strictly sorted index. -/

set_option autoImplicit false

namespace Jalv

open Foundation

def CString.key (string : CString) : List Nat := string.bytes.map UInt8.toNat

theorem CString.key_injective : Function.Injective CString.key := by
  intro first second same
  cases first
  cases second
  congr 1
  exact List.map_injective_iff.mpr (fun _ _ equal => UInt8.toNat_inj.mp equal) same

instance : LinearOrder CString := LinearOrder.lift' CString.key CString.key_injective

theorem strcmpBytes_swap (first second : List Byte) :
    strcmpBytes second first = -strcmpBytes first second := by
  induction first generalizing second with
  | nil => cases second <;> simp [strcmpBytes]
  | cons byte rest ih =>
    cases second with
    | nil => simp [strcmpBytes]
    | cons other others =>
      simp only [strcmpBytes, eq_comm (a := other)]
      split
      · exact ih others
      · omega

theorem strcmpBytes_eq_zero {first second : List Byte} (firstNonzero : 0 ∉ first)
    (secondNonzero : 0 ∉ second) : strcmpBytes first second = 0 ↔ first = second := by
  induction first generalizing second with
  | nil =>
    cases second with
    | nil => simp [strcmpBytes]
    | cons other others =>
      -- The terminator differs from each byte of a string
      have nonzero : other ≠ 0 := fun zero => secondNonzero (by simp [zero])
      have value : other.toNat ≠ 0 := fun zero => nonzero (UInt8.toNat_inj.mp zero)
      simp only [strcmpBytes, reduceCtorEq, iff_false]
      omega
  | cons byte rest ih =>
    have nonzero : byte ≠ 0 := fun zero => firstNonzero (by simp [zero])
    have value : byte.toNat ≠ 0 := fun zero => nonzero (UInt8.toNat_inj.mp zero)
    cases second with
    | nil =>
      simp only [strcmpBytes, reduceCtorEq, iff_false]
      omega
    | cons other others =>
      simp only [strcmpBytes, List.cons.injEq]
      split
      · next same =>
        simp only [same, true_and]
        exact ih (fun member => firstNonzero (List.mem_cons_of_mem _ member))
          (fun member => secondNonzero (List.mem_cons_of_mem _ member))
      · next differ =>
        have values : byte.toNat ≠ other.toNat := fun same => differ (UInt8.toNat_inj.mp same)
        simp only [differ, false_and, iff_false]
        omega

theorem strcmpBytes_neg {first second : List Byte} (secondNonzero : 0 ∉ second) :
    strcmpBytes first second < 0 ↔ first.map UInt8.toNat < second.map UInt8.toNat := by
  induction first generalizing second with
  | nil =>
    cases second with
    | nil => simp [strcmpBytes]
    | cons other others =>
      have nonzero : other ≠ 0 := fun zero => secondNonzero (by simp [zero])
      have value : other.toNat ≠ 0 := fun zero => nonzero (UInt8.toNat_inj.mp zero)
      simp only [strcmpBytes, List.map_nil, List.map_cons, List.nil_lt_cons, iff_true]
      omega
  | cons byte rest ih =>
    cases second with
    | nil =>
      simp only [strcmpBytes, List.map_nil, List.map_cons, List.not_lt_nil, iff_false]
      omega
    | cons other others =>
      simp only [strcmpBytes, List.map_cons, List.cons_lt_cons_iff]
      split
      · next same =>
        subst same
        rw [ih fun member => secondNonzero (List.mem_cons_of_mem _ member)]
        simp
      · next differ =>
        have values : byte.toNat ≠ other.toNat := fun same => differ (UInt8.toNat_inj.mp same)
        simp only [values, false_and, or_false]
        omega

theorem strcmp_eq_zero (first second : CString) : strcmp first second = 0 ↔ first = second := by
  rw [strcmp, strcmpBytes_eq_zero first.terminated second.terminated]
  constructor
  · intro same
    cases first
    cases second
    congr
  · exact congrArg CString.bytes

theorem strcmp_neg (first second : CString) : strcmp first second < 0 ↔ first < second :=
  strcmpBytes_neg second.terminated

theorem strcmp_pos (first second : CString) : strcmp first second > 0 ↔ second < first := by
  rw [← strcmp_neg, strcmp, strcmp, strcmpBytes_swap]
  omega

theorem strcmp_le_iff (first second : CString) : strcmp first second ≤ 0 ↔ first ≤ second := by
  rw [← not_lt, ← not_lt, ← strcmp_pos]

theorem symapSearchLoop_step {map : Symap} {sym symbol : CString} {lower upper middle : Nat} (i : Nat)
    (ordered : lower ≤ upper) (halved : middle = lower + (upper - lower) / 2)
    (found : map.symbolAt middle = some symbol) :
    symapSearchLoop map sym lower upper i =
      if strcmp symbol sym = 0 then some (middle, true)
      else if strcmp symbol sym > 0 then
        if middle = 0 then some (middle, false) else symapSearchLoop map sym lower (middle - 1) middle
      else symapSearchLoop map sym (middle + 1) upper (middle + 1) := by
  subst halved
  rw [symapSearchLoop, if_pos ordered]
  simp only [found]

structure Symap.SortedBy (map : Symap) (sorted : List CString) : Prop where
  lookups : map.index.map map.symbolOf = sorted.map some
  order : sorted.Pairwise (· < ·)
  perm : sorted.Perm map.symbols
  size : map.symbols.length = map.size.toNat

namespace Symap.SortedBy

variable {map : Symap} {sorted : List CString}

theorem length_eq (valid : map.SortedBy sorted) : sorted.length = map.size.toNat := by
  rw [valid.perm.length_eq, valid.size]

theorem symbolAt_eq (valid : map.SortedBy sorted) (i : Nat) : map.symbolAt i = sorted[i]? := by
  have found := congrArg (·[i]?) valid.lookups
  simp only [List.getElem?_map] at found
  unfold Symap.symbolAt
  cases index : map.index[i]? with
  | none =>
    cases symbol : sorted[i]? with
    | none => rfl
    | some symbol' => simp [index, symbol] at found
  | some id =>
    cases symbol : sorted[i]? with
    | none => simp [index, symbol] at found
    | some symbol' => simpa [index, symbol] using found

/-- The loop finds the symbol or the place where it belongs. Where it ends without
finding it, `i` has reached `lower`. -/
theorem searchLoop (valid : map.SortedBy sorted) (sym : CString) (lower upper i : Nat)
    (bracket : Bracket sorted sym lower (upper + 1)) (reached : upper < lower → i = lower) :
    (∃ place, symapSearchLoop map sym lower upper i = some (place, true) ∧ sorted[place]? = some sym) ∨
    (∃ place, symapSearchLoop map sym lower upper i = some (place, false) ∧ SplitsAt sorted sym place) := by
  induction lower, upper, i using symapSearchLoop.induct map sym with
  -- The index has an element wherever the loop looks
  | case1 lower upper _ ordered middle missing =>
    have bound := bracket.bound
    rw [valid.symbolAt_eq, List.getElem?_eq_none_iff] at missing
    omega
  | case2 lower upper _ ordered middle symbol found cmp equal =>
    refine Or.inl ⟨middle, ?_, ?_⟩
    · rw [symapSearchLoop_step _ ordered rfl found, if_pos equal]
    · rw [← valid.symbolAt_eq, found, (strcmp_eq_zero symbol sym).mp equal]
  -- The middle is 0 here, so the bracket is empty below it
  | case3 lower upper _ ordered middle symbol found cmp unequal greater zero =>
    refine Or.inr ⟨middle, ?_, ?_⟩
    · rw [symapSearchLoop_step _ ordered rfl found, if_neg unequal, if_pos greater, if_pos zero]
    · rw [valid.symbolAt_eq] at found
      obtain ⟨inside, rfl⟩ := List.getElem?_eq_some_iff.mp found
      have first : lower = middle := by omega
      exact (first ▸ bracket.lowerHalf valid.order inside (by omega) ((strcmp_pos _ _).mp greater)).splitsAt
  | case4 lower upper _ ordered middle symbol found cmp unequal greater nonzero ih =>
    rw [symapSearchLoop_step _ ordered rfl found, if_neg unequal, if_pos greater, if_neg nonzero]
    rw [valid.symbolAt_eq] at found
    obtain ⟨inside, rfl⟩ := List.getElem?_eq_some_iff.mp found
    have half := bracket.lowerHalf valid.order inside (by omega) ((strcmp_pos _ _).mp greater)
    have whole : middle - 1 + 1 = middle := by omega
    exact ih (whole ▸ half) (by omega)
  | case5 lower upper _ ordered middle symbol found cmp unequal smaller ih =>
    rw [symapSearchLoop_step _ ordered rfl found, if_neg unequal, if_neg smaller]
    rw [valid.symbolAt_eq] at found
    obtain ⟨inside, rfl⟩ := List.getElem?_eq_some_iff.mp found
    have less : sorted[middle] < sym := by
      rw [← strcmp_neg]
      omega
    exact ih (bracket.upperHalf valid.order inside (by omega) less) (fun _ => rfl)
  -- The bounds have crossed, and `i` is where they did
  | case6 lower upper i crossed =>
    have order := bracket.order
    have met : upper + 1 = lower := by omega
    refine Or.inr ⟨lower, ?_, (met ▸ bracket).splitsAt⟩
    rw [symapSearchLoop, if_neg crossed, reached (by omega)]

theorem search (valid : map.SortedBy sorted) (sym : CString) :
    (∃ place, symapSearch map sym = some (place, true) ∧ sorted[place]? = some sym) ∨
    (∃ place, symapSearch map sym = some (place, false) ∧ SplitsAt sorted sym place) := by
  have length := valid.length_eq
  by_cases empty : map.size = 0
  · refine Or.inr ⟨0, by rw [symapSearch, if_pos empty], ?_⟩
    have nothing : sorted = [] := List.eq_nil_of_length_eq_zero (by rw [length, empty]; rfl)
    subst nothing
    exact (Bracket.whole [] sym).splitsAt
  · have positive : map.size.toNat ≠ 0 := fun zero => empty (UInt32.toNat_inj.mp zero)
    have bound := map.size.toNat_lt
    have last : (map.size - 1).toNat = map.size.toNat - 1 := by
      simp only [UInt32.toNat_sub, UInt32.reduceToNat]
      omega
    have inside : map.size.toNat - 1 < sorted.length := by omega
    have found : map.symbolAt (map.size - 1).toNat = some sorted[map.size.toNat - 1] := by
      rw [valid.symbolAt_eq, last, List.getElem?_eq_getElem inside]
    have whole : Bracket sorted sym 0 (map.size.toNat - 1 + 1) := by
      have same : map.size.toNat - 1 + 1 = sorted.length := by omega
      exact same ▸ Bracket.whole sorted sym
    rw [symapSearch, if_neg empty]
    simp only [found]
    split
    · next less =>
      -- Greater than the last element, append
      have smaller := (strcmp_neg _ _).mp less
      have behind := whole.upperHalf valid.order inside (Nat.lt_succ_self _) smaller
      exact Or.inr ⟨_, rfl, (by rwa [Nat.sub_add_cancel (by omega)] at behind : Bracket _ _ _ _).splitsAt⟩
    · rw [last]
      exact valid.searchLoop sym 0 _ _ whole (by omega)

end Symap.SortedBy

end Jalv
