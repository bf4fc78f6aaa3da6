import Mathlib.Data.List.Basic

/-! A bounded FIFO between one writer and one reader.

A write appends all of its cells or none, and a read takes all that were asked
for or none. A transaction collects cells in several parts against the space
that was free when it began, and commits them at once. The reader can only free
more space in the meantime.
-/

set_option autoImplicit false

namespace Foundation

variable {α : Type}

structure Fifo (α : Type) where
  capacity : Nat
  content : List α
  bounded : content.length ≤ capacity

structure Transaction (α : Type) where
  space : Nat
  staged : List α

namespace Transaction

def amend (transaction : Transaction α) (cells : List α) : Option (Transaction α) :=
  if cells.length ≤ transaction.space then
    some ⟨transaction.space - cells.length, transaction.staged ++ cells⟩
  else none

def amendAll (transaction : Transaction α) (parts : List (List α)) : Option (Transaction α) :=
  parts.foldlM amend transaction

theorem amendAll_eq (transaction : Transaction α) (parts : List (List α)) :
    transaction.amendAll parts =
      if parts.flatten.length ≤ transaction.space then
        some ⟨transaction.space - parts.flatten.length, transaction.staged ++ parts.flatten⟩
      else none := by
  induction parts generalizing transaction with
  | nil => simp [amendAll]
  | cons cells rest ih =>
    simp only [amendAll] at ih
    simp only [amendAll, List.foldlM_cons, List.flatten_cons, List.length_append, amend]
    by_cases fits : cells.length ≤ transaction.space
    · rw [if_pos fits, Option.bind_eq_bind, Option.bind_some, ih]
      by_cases all : cells.length + rest.flatten.length ≤ transaction.space
      -- The rest has to fit into what the first part leaves
      · rw [if_pos all, if_pos (by change _ ≤ transaction.space - _; omega)]
        simp only [List.append_assoc, Nat.sub_sub]
      · rw [if_neg all, if_neg (by change ¬ _ ≤ transaction.space - _; omega)]
    · rw [if_neg fits, if_neg (by omega)]
      rfl

end Transaction

namespace Fifo

def empty (capacity : Nat) : Fifo α := ⟨capacity, [], Nat.zero_le _⟩

def readSpace (fifo : Fifo α) : Nat := fifo.content.length

def writeSpace (fifo : Fifo α) : Nat := fifo.capacity - fifo.content.length

-- The number of cells that were read is their length.
def read (fifo : Fifo α) (count : Nat) : List α × Fifo α :=
  if count ≤ fifo.content.length then
    (fifo.content.take count, ⟨fifo.capacity, fifo.content.drop count, by
      rw [List.length_drop]
      exact Nat.le_trans (Nat.sub_le _ _) fifo.bounded⟩)
  else ([], fifo)

def beginWrite (fifo : Fifo α) : Transaction α := ⟨fifo.writeSpace, []⟩

-- Commit what was staged, which fits unless the space came from another fifo.
def commit (fifo : Fifo α) (transaction : Transaction α) : Option (Fifo α) :=
  if fits : (fifo.content ++ transaction.staged).length ≤ fifo.capacity then
    some ⟨fifo.capacity, fifo.content ++ transaction.staged, fits⟩
  else none

/-- Append all cells or none. The number of cells written is their length or zero. -/
def write (fifo : Fifo α) (cells : List α) : Nat × Fifo α :=
  match (fifo.beginWrite.amend cells).bind fifo.commit with
  | some next => (cells.length, next)
  | none => (0, fifo)

@[ext] theorem ext {first second : Fifo α} (capacities : first.capacity = second.capacity)
    (contents : first.content = second.content) : first = second := by
  cases first
  cases second
  simp only at capacities contents
  subst capacities contents
  rfl

theorem read_short {fifo : Fifo α} {count : Nat} (short : fifo.content.length < count) :
    fifo.read count = ([], fifo) := by
  rw [read, if_neg (Nat.not_le_of_lt short)]

theorem read_prefix {fifo : Fifo α} {first rest : List α} {count : Nat} (length : first.length = count)
    (found : fifo.content = first ++ rest) :
    ∃ next : Fifo α, fifo.read count = (first, next) ∧ next.capacity = fifo.capacity ∧ next.content = rest := by
  have enough : count ≤ fifo.content.length := by
    rw [found, List.length_append]
    omega
  have taken : fifo.content.take count = first := by rw [found, List.take_left' length]
  have left : fifo.content.drop count = rest := by rw [found, List.drop_left' length]
  refine ⟨(fifo.read count).2, ?_, ?_, ?_⟩
  · rw [Fifo.read, if_pos enough, taken]
  · rw [Fifo.read, if_pos enough]
  · rw [Fifo.read, if_pos enough]
    exact left

theorem commit_eq_some {fifo next : Fifo α} {transaction : Transaction α}
    (committed : fifo.commit transaction = some next) :
    next.capacity = fifo.capacity ∧ next.content = fifo.content ++ transaction.staged := by
  unfold commit at committed
  split at committed
  · cases committed
    exact ⟨rfl, rfl⟩
  · cases committed

theorem commit_isSome {fifo : Fifo α} {transaction : Transaction α}
    (fits : fifo.content.length + transaction.staged.length ≤ fifo.capacity) :
    ∃ next, fifo.commit transaction = some next := by
  rw [← List.length_append] at fits
  exact ⟨_, dif_pos fits⟩

def writeAll (fifo : Fifo α) (parts : List (List α)) : Option (Fifo α) :=
  (fifo.beginWrite.amendAll parts).bind fifo.commit

theorem writeAll_eq_some_iff {fifo next : Fifo α} {parts : List (List α)} :
    fifo.writeAll parts = some next ↔
      parts.flatten.length ≤ fifo.writeSpace ∧
        next.capacity = fifo.capacity ∧ next.content = fifo.content ++ parts.flatten := by
  have bounded := fifo.bounded
  simp only [writeAll, Transaction.amendAll_eq, beginWrite, List.nil_append]
  constructor
  · intro written
    split at written
    · next fits => exact ⟨fits, commit_eq_some written⟩
    · cases written
  · rintro ⟨fits, capacity, content⟩
    rw [if_pos fits, Option.bind_some]
    have room : fifo.content.length + parts.flatten.length ≤ fifo.capacity := by
      simp only [writeSpace] at fits
      omega
    have whole : ∃ next, fifo.commit ⟨fifo.writeSpace - parts.flatten.length, parts.flatten⟩ = some next :=
      commit_isSome room
    obtain ⟨committed, found⟩ := whole
    obtain ⟨sameCapacity, sameContent⟩ := commit_eq_some found
    rw [found]
    exact congrArg some (ext (sameCapacity.trans capacity.symm) (sameContent.trans content.symm))

theorem writeAll_eq_none_iff {fifo : Fifo α} {parts : List (List α)} :
    fifo.writeAll parts = none ↔ fifo.writeSpace < parts.flatten.length := by
  rw [← Nat.not_le]
  constructor
  · intro failed fits
    have bounded := fifo.bounded
    have room : (fifo.content ++ parts.flatten).length ≤ fifo.capacity := by
      simp only [writeSpace] at fits
      rw [List.length_append]
      omega
    have written : fifo.writeAll parts = some ⟨fifo.capacity, fifo.content ++ parts.flatten, room⟩ :=
      writeAll_eq_some_iff.mpr ⟨fits, rfl, rfl⟩
    rw [failed] at written
    cases written
  · intro large
    cases written : fifo.writeAll parts with
    | none => rfl
    | some next => exact absurd (writeAll_eq_some_iff.mp written).1 large

end Fifo

end Foundation
