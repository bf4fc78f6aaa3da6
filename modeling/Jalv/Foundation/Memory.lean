import Mathlib.Data.List.Basic
import Mathlib.Tactic.Ring

/-! Flat memories: cells at natural-number addresses, read and written in runs.

The cell type is arbitrary. The two laws that matter are that a run reads back
what was stored in it, and that a store outside a run leaves it alone.
-/

set_option autoImplicit false

namespace Foundation

variable {α : Type}

abbrev Memory (α : Type) := Nat → α

namespace Memory

def load (memory : Memory α) (start : Nat) : Nat → List α
  | 0 => []
  | count + 1 => memory start :: load memory (start + 1) count

def store (memory : Memory α) (start : Nat) (cells : List α) : Memory α := fun address =>
  if start ≤ address then (cells[address - start]?).getD (memory address) else memory address

@[simp] theorem length_load (memory : Memory α) (start count : Nat) :
    (memory.load start count).length = count := by
  induction count generalizing start with
  | zero => rfl
  | succ count ih => simp [load, ih]

theorem load_congr {first second : Memory α} (start count : Nat)
    (same : ∀ address, start ≤ address → address < start + count → first address = second address) :
    first.load start count = second.load start count := by
  induction count generalizing start with
  | zero => rfl
  | succ count ih =>
    have head := same start (Nat.le_refl start) (by omega)
    have tail := ih (start + 1) fun address above below => same address (by omega) (by omega)
    simp only [load, head, tail]

theorem load_append (memory : Memory α) (start first second : Nat) :
    memory.load start (first + second) =
      memory.load start first ++ memory.load (start + first) second := by
  induction first generalizing start with
  | zero => simp [load]
  | succ first ih =>
    rw [Nat.add_right_comm first 1 second]
    simp only [load, ih, List.cons_append]
    rw [Nat.add_right_comm start 1 first, Nat.add_assoc start first 1]

theorem load_const (cell : α) (start count : Nat) :
    load (fun _ => cell) start count = List.replicate count cell := by
  induction count generalizing start with
  | zero => rfl
  | succ count ih => rw [load, ih, List.replicate_succ]

theorem store_outside (memory : Memory α) (start : Nat) {address : Nat} {cells : List α}
    (outside : address < start ∨ start + cells.length ≤ address) :
    memory.store start cells address = memory address := by
  unfold store
  split
  · next above =>
    rcases outside with below | beyond
    · omega
    · rw [List.getElem?_eq_none (by omega), Option.getD_none]
  · rfl

theorem store_inside {memory : Memory α} {start offset : Nat} {cells : List α}
    (inside : offset < cells.length) :
    memory.store start cells (start + offset) = cells[offset] := by
  simp [store, List.getElem?_eq_getElem inside]

@[simp] theorem store_nil (memory : Memory α) (start : Nat) : memory.store start [] = memory := by
  funext address
  exact store_outside memory start (by simp only [List.length_nil]; omega)

theorem load_store_disjoint (memory : Memory α) {start at' count : Nat} {cells : List α}
    (disjoint : at' + count ≤ start ∨ start + cells.length ≤ at') :
    (memory.store start cells).load at' count = memory.load at' count :=
  load_congr at' count fun _ _ _ => store_outside memory start (by omega)

theorem store_cons (memory : Memory α) (start : Nat) (cell : α) (cells : List α) :
    memory.store start (cell :: cells) = (memory.store start [cell]).store (start + 1) cells := by
  funext address
  rcases Nat.lt_trichotomy address start with below | same | above
  · rw [store_outside memory start (Or.inl below), store_outside _ (start + 1) (Or.inl (by omega)),
      store_outside memory start (Or.inl below)]
  · subst same
    rw [store_outside _ (address + 1) (Or.inl (by omega))]
    simp [store]
  · obtain ⟨distance, rfl⟩ : ∃ distance, address = start + 1 + distance := ⟨address - start - 1, by omega⟩
    by_cases inside : distance < cells.length
    · rw [store_inside inside, Nat.add_assoc, Nat.add_comm 1 distance,
        store_inside (by simpa using inside)]
      rfl
    · have behind : start + (cell :: cells).length ≤ start + 1 + distance := by
        simp only [List.length_cons]; omega
      have single : start + [cell].length ≤ start + 1 + distance := by
        simp only [List.length_singleton]; omega
      rw [store_outside _ (start + 1) (Or.inr (by omega)), store_outside memory start (Or.inr single),
        store_outside memory start (Or.inr behind)]

@[simp] theorem load_store (memory : Memory α) (start : Nat) (cells : List α) :
    (memory.store start cells).load start cells.length = cells := by
  induction cells generalizing memory start with
  | nil => rfl
  | cons cell cells ih =>
    rw [store_cons, List.length_cons, load, ih, store_outside _ (start + 1) (Or.inl (by omega))]
    simp [store]

theorem store_load (memory : Memory α) (start count : Nat) : memory.store start (memory.load start count) = memory := by
  induction count generalizing start with
  | zero => exact store_nil memory start
  | succ count ih =>
    have first : memory.store start [memory start] = memory := by
      funext address
      by_cases same : address = start
      · subst same
        simp [store]
      · exact store_outside memory start (by rw [List.length_singleton]; omega)
    rw [load, store_cons, first, ih]

theorem store_append (memory : Memory α) (start : Nat) (first second : List α) :
    memory.store start (first ++ second) =
      (memory.store start first).store (start + first.length) second := by
  induction first generalizing memory start with
  | nil => simp
  | cons cell first ih =>
    rw [List.cons_append, store_cons, ih, ← store_cons, List.length_cons]
    congr 1
    omega

theorem load_store_part (memory : Memory α) (start : Nat) (before cells behind : List α) :
    (memory.store start (before ++ cells ++ behind)).load (start + before.length) cells.length = cells := by
  rw [store_append, store_append, load_store_disjoint _ (Or.inl ?_), load_store]
  rw [List.length_append, Nat.add_assoc]

def shift (memory : Memory α) (start : Nat) : Memory α := fun address => memory (start + address)

theorem load_shift (memory : Memory α) (offset start count : Nat) :
    (memory.shift offset).load start count = memory.load (offset + start) count := by
  induction count generalizing start with
  | zero => rfl
  | succ count ih =>
    rw [load, load, ih, shift]
    rfl

end Memory

end Foundation
