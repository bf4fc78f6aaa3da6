import Mathlib.Algebra.BigOperators.Group.List.Basic
import Mathlib.Algebra.Order.Ring.Nat
import Mathlib.Data.List.Count
import Mathlib.Data.List.Induction

/-! Requests that are made when enough has been counted.

Amounts are added up, and a request is made when the sum is beyond a threshold. The
sum then begins at zero again, whatever was counted beyond the threshold.
-/

set_option autoImplicit false

namespace Foundation

/-- What was counted since the last request, and for each amount whether it led to one. -/
structure Pacing where
  pending : Nat
  requests : List Bool
  deriving DecidableEq

namespace Pacing

def start : Pacing := ⟨0, []⟩

def count (threshold : Nat) (pacing : Pacing) (amount : Nat) : Pacing :=
  if pacing.pending + amount > threshold then ⟨0, pacing.requests ++ [true]⟩
  else ⟨pacing.pending + amount, pacing.requests ++ [false]⟩

def run (threshold : Nat) (amounts : List Nat) : Pacing := amounts.foldl (count threshold) start

variable {threshold : Nat}

theorem run_concat (amounts : List Nat) (amount : Nat) :
    run threshold (amounts ++ [amount]) = count threshold (run threshold amounts) amount := by
  rw [run, List.foldl_append]
  rfl

theorem pending_le (amounts : List Nat) : (run threshold amounts).pending ≤ threshold := by
  induction amounts using List.reverseRecOn with
  | nil => exact Nat.zero_le _
  | append_singleton amounts amount ih =>
    rw [run_concat, count]
    split <;> simp only <;> omega

/-- No request is made before more than the threshold was counted. -/
theorem requests_le (amounts : List Nat) :
    (run threshold amounts).requests.count true * (threshold + 1) + (run threshold amounts).pending ≤ amounts.sum := by
  induction amounts using List.reverseRecOn with
  | nil => exact Nat.le_of_eq (Nat.zero_mul _)
  | append_singleton amounts amount ih =>
    rw [run_concat, count, List.sum_append, List.sum_singleton]
    split
    · simp only [List.count_append, List.count_singleton_self, Nat.add_mul, Nat.one_mul]
      omega
    · simp only [List.count_append, show [false].count true = 0 from rfl, Nat.add_zero]
      omega

/-- A request is late by less than the amount that leads to it. -/
theorem le_requests (amounts : List Nat) {bound : Nat} (bounded : ∀ amount ∈ amounts, amount ≤ bound) :
    amounts.sum ≤ (run threshold amounts).requests.count true * (threshold + bound) +
      (run threshold amounts).pending := by
  induction amounts using List.reverseRecOn with
  | nil => exact Nat.zero_le _
  | append_singleton amounts amount ih =>
    have earlier := ih fun other member => bounded other (List.mem_append_left _ member)
    have last := bounded amount (List.mem_append_right _ (List.mem_singleton.mpr rfl))
    have kept := @pending_le threshold amounts
    rw [run_concat, count, List.sum_append, List.sum_singleton]
    split
    · simp only [List.count_append, List.count_singleton_self, Nat.add_mul, Nat.one_mul]
      omega
    · simp only [List.count_append, show [false].count true = 0 from rfl, Nat.add_zero]
      omega

/-- Of equal amounts, every one leads to a request whose number is a multiple of as many as
are needed to come beyond the threshold. -/
theorem run_replicate {amount : Nat} (positive : 0 < amount) (times : Nat) :
    run threshold (List.replicate times amount) =
      ⟨times % (threshold / amount + 1) * amount,
        (List.range times).map fun index => (index + 1) % (threshold / amount + 1) = 0⟩ := by
  induction times with
  | zero => simp [run, start]
  | succ times ih =>
    have below : times % (threshold / amount + 1) < threshold / amount + 1 := Nat.mod_lt _ (Nat.succ_pos _)
    have parts := Nat.div_add_mod threshold amount
    have part := Nat.mod_lt threshold positive
    have step : (times + 1) % (threshold / amount + 1) =
        (times % (threshold / amount + 1) + 1) % (threshold / amount + 1) := (Nat.mod_add_mod times _ 1).symm
    rw [List.replicate_succ', run_concat, ih, count, List.range_succ, List.map_append, step]
    by_cases last : times % (threshold / amount + 1) = threshold / amount
    · have due : times % (threshold / amount + 1) * amount + amount > threshold := by
        rw [last, Nat.mul_comm]
        omega
      rw [if_pos due, last, Nat.mod_self, Nat.zero_mul, List.map_singleton, step, last, Nat.mod_self]
      simp
    · have short : times % (threshold / amount + 1) + 1 ≤ threshold / amount := by omega
      have kept : ¬ times % (threshold / amount + 1) * amount + amount > threshold := by
        have room := Nat.mul_le_mul_left amount short
        rw [Nat.mul_add, Nat.mul_one, Nat.mul_comm] at room
        omega
      have small : times % (threshold / amount + 1) + 1 < threshold / amount + 1 := by omega
      rw [if_neg kept, Nat.mod_eq_of_lt small, List.map_singleton, step, Nat.mod_eq_of_lt small, Nat.add_mul, Nat.one_mul]
      simp

end Pacing

end Foundation
