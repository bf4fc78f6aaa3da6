import Mathlib.Data.List.Basic

/-! A heap of separately allocated blocks.

Passing a pointer that is neither null nor the start of a live block to `free`
or `realloc` has no defined result. An allocator may answer a request with any
address that is free at the time, or fail.
-/

set_option autoImplicit false

namespace Foundation

variable {A α : Type}

structure Heap (A α : Type) [Zero A] where
  block : A → Option (List α)
  nullDead : block 0 = none

namespace Heap

variable [Zero A]

def empty : Heap A α := ⟨fun _ => none, rfl⟩

@[ext] theorem ext {first second : Heap A α} (same : ∀ address, first.block address = second.block address) :
    first = second := by
  cases first
  cases second
  congr 1
  exact funext same

@[simp] theorem block_empty (address : A) : (empty : Heap A α).block address = none := rfl

-- Null or the start of a live block.
def Valid (heap : Heap A α) (address : A) : Prop := address = 0 ∨ (heap.block address).isSome

theorem valid_empty (address : A) : (empty : Heap A α).Valid address ↔ address = 0 := by
  simp [Valid]

variable [DecidableEq A]

def insert (heap : Heap A α) (address : A) (nonnull : address ≠ 0) (cells : List α) : Heap A α where
  block other := if other = address then some cells else heap.block other
  nullDead := by rw [if_neg (Ne.symm nonnull), heap.nullDead]

def erase (heap : Heap A α) (address : A) : Heap A α where
  block other := if other = address then none else heap.block other
  nullDead := by split <;> simp [heap.nullDead]

instance (heap : Heap A α) (address : A) : Decidable (heap.Valid address) :=
  inferInstanceAs (Decidable (_ ∨ _))

def free (heap : Heap A α) (address : A) : Option (Heap A α) :=
  if heap.Valid address then some (heap.erase address) else none

/-- An address that `realloc` can return for a block: not null, and not in use by another block. -/
def Usable (heap : Heap A α) (old new : A) : Prop := new ≠ 0 ∧ (new = old ∨ heap.block new = none)

instance (heap : Heap A α) (old new : A) : Decidable (heap.Usable old new) :=
  inferInstanceAs (Decidable (_ ∧ _))

/-- The contents of a resized block. Cells beyond the old contents have no specified value. -/
def resized [Inhabited α] (heap : Heap A α) (address : A) (size : Nat) : List α :=
  let old := (heap.block address).getD []
  old.take size ++ List.replicate (size - old.length) default

/-- Resize a block. The allocator proposes an address. It fails without a proposal
that can be used, and then the old block stays as it is. -/
def realloc [Inhabited α] (heap : Heap A α) (address : A) (size : Nat) (proposal : Option A) :
    Option (Option A × Heap A α) :=
  if heap.Valid address then
    match proposal with
    | none => some (none, heap)
    | some new =>
      if usable : heap.Usable address new then
        some (some new, (heap.erase address).insert new usable.1 (heap.resized address size))
      else some (none, heap)
  else none

def overwrite (heap : Heap A α) (address : A) (cells : List α) : Option (Heap A α) :=
  match found : heap.block address with
  | none => none
  | some old =>
    if cells.length ≤ old.length then
      some (heap.insert address (by rintro rfl; simp [heap.nullDead] at found)
        (cells ++ old.drop cells.length))
    else none

theorem block_insert (heap : Heap A α) (address other : A) (nonnull : address ≠ 0) (cells : List α) :
    (heap.insert address nonnull cells).block other = if other = address then some cells else heap.block other :=
  rfl

theorem block_erase (heap : Heap A α) (address other : A) :
    (heap.erase address).block other = if other = address then none else heap.block other := rfl

def single (address : A) (nonnull : address ≠ 0) (cells : List α) : Heap A α :=
  empty.insert address nonnull cells

variable {address : A} {nonnull : address ≠ 0} {cells : List α}

theorem erase_empty (address : A) : (empty : Heap A α).erase address = empty := by
  ext other : 1
  simp [block_erase]

theorem erase_single : (single address nonnull cells).erase address = empty := by
  ext other : 1
  rw [block_erase, single, block_insert]
  split <;> rfl

theorem block_single : (single address nonnull cells).block address = some cells := by
  simp [single, block_insert]

theorem valid_single : (single address nonnull cells).Valid address :=
  Or.inr (by rw [block_single]; rfl)

theorem free_single : (single address nonnull cells).free address = some empty := by
  rw [free, if_pos valid_single, erase_single]

theorem insert_single (other : List α) :
    (single address nonnull cells).insert address nonnull other = single address nonnull other := by
  ext place : 1
  rw [block_insert, single, single, block_insert, block_insert]
  split <;> rfl

theorem overwrite_single {first : List α} (fits : first.length ≤ cells.length) :
    (single address nonnull cells).overwrite address first =
      some (single address nonnull (first ++ cells.drop first.length)) := by
  unfold overwrite
  split
  · next missing => rw [block_single] at missing; cases missing
  · next old found =>
    rw [block_single, Option.some.injEq] at found
    subst found
    rw [if_pos fits, insert_single]

theorem overwrite_block {heap after : Heap A α} {first : List α} (written : heap.overwrite address first = some after) :
    ∃ rest, after.block address = some (first ++ rest) := by
  unfold overwrite at written
  split at written
  · cases written
  · split at written
    · cases written
      exact ⟨_, by rw [block_insert, if_pos rfl]⟩
    · cases written

theorem overwrite_self_iff {heap : Heap A α} {first : List α} :
    heap.overwrite address first = some heap ↔
      ∃ old, heap.block address = some old ∧ old.take first.length = first := by
  unfold overwrite
  split
  · next missing => simp [missing]
  · next old found =>
    simp only [found, Option.some.injEq, exists_eq_left']
    constructor
    · intro written
      split at written
      · have same := congrArg (Heap.block · address) (Option.some.inj written)
        simp only [block_insert, if_pos, found, Option.some.injEq] at same
        rw [← same, List.take_left']
        rfl
      · cases written
    · intro same
      have fits : first.length ≤ old.length := by
        have := congrArg List.length same
        rw [List.length_take] at this
        omega
      rw [if_pos fits, Option.some.injEq]
      ext other : 1
      rw [block_insert]
      split
      · next here =>
        conv_lhs => rw [← same, List.length_take, Nat.min_eq_left fits, List.take_append_drop]
        rw [here, found]
      · rfl

section

variable [Inhabited α]

omit [DecidableEq A] in
theorem length_resized (heap : Heap A α) (address : A) (size : Nat) :
    (heap.resized address size).length = size := by
  simp only [resized, List.length_append, List.length_take, List.length_replicate]
  omega

theorem realloc_invalid {heap : Heap A α} (invalid : ¬ heap.Valid address) (size : Nat)
    (proposal : Option A) : heap.realloc address size proposal = none := by
  rw [realloc.eq_def, if_neg invalid]

theorem realloc_none {heap after : Heap A α} {size : Nat} {proposal : Option A}
    (failed : heap.realloc address size proposal = some (none, after)) : after = heap := by
  rw [realloc.eq_def] at failed
  split at failed
  · cases proposal with
    | none =>
      cases failed
      rfl
    | some new =>
      simp only at failed
      split at failed
      · cases failed
      · cases failed
        rfl
  · cases failed

/-- Resizing a block fails and keeps the heap, or moves the block to an address that can be used. -/
theorem realloc_cases {heap : Heap A α} (valid : heap.Valid address) (size : Nat) (proposal : Option A) :
    heap.realloc address size proposal = some (none, heap) ∨
      ∃ (new : A) (usable : heap.Usable address new), heap.realloc address size proposal =
        some (some new, (heap.erase address).insert new usable.1 (heap.resized address size)) := by
  rw [realloc.eq_def, if_pos valid]
  cases proposal with
  | none => exact Or.inl rfl
  | some new =>
    by_cases usable : heap.Usable address new
    · exact Or.inr ⟨new, usable, dif_pos usable⟩
    · exact Or.inl (dif_neg usable)

theorem realloc_empty (size : Nat) (proposal : Option A) :
    (empty : Heap A α).realloc 0 size proposal = some (none, empty) ∨
      ∃ (new : A) (fresh : new ≠ 0) (cells : List α), cells.length = size ∧
        (empty : Heap A α).realloc 0 size proposal = some (some new, single new fresh cells) := by
  have valid : (empty : Heap A α).Valid 0 := (valid_empty 0).mpr rfl
  rcases realloc_cases valid size proposal with failed | ⟨new, usable, moved⟩
  · exact Or.inl failed
  · exact Or.inr ⟨new, usable.1, _, length_resized _ _ _, by rw [moved, erase_empty, single]⟩

theorem realloc_single (size : Nat) (proposal : Option A) :
    (single address nonnull cells).realloc address size proposal = some (none, single address nonnull cells) ∨
      ∃ (new : A) (fresh : new ≠ 0) (moved : List α), moved.length = size ∧
        (single address nonnull cells).realloc address size proposal = some (some new, single new fresh moved) := by
  have valid : (single address nonnull cells).Valid address := valid_single
  rcases realloc_cases valid size proposal with failed | ⟨new, usable, moved⟩
  · exact Or.inl failed
  · exact Or.inr ⟨new, usable.1, _, length_resized _ _ _, by rw [moved, erase_single]; rfl⟩

end

end Heap

end Foundation
