import Mathlib.Data.List.Basic
import Mathlib.Order.Lattice

/-! Strictly sorted lists and the place at which a new key belongs. -/

set_option autoImplicit false

namespace Foundation

variable {κ : Type} [LinearOrder κ]

structure SplitsAt (keys : List κ) (key : κ) (place : Nat) : Prop where
  bound : place ≤ keys.length
  below : ∀ other ∈ keys.take place, other < key
  above : ∀ other ∈ keys.drop place, key < other

theorem SplitsAt.notMem {keys : List κ} {key : κ} {place : Nat} (splits : SplitsAt keys key place) :
    key ∉ keys := by
  intro member
  rw [← List.take_append_drop place keys, List.mem_append] at member
  rcases member with before | behind
  · exact lt_irrefl key (splits.below key before)
  · exact lt_irrefl key (splits.above key behind)

theorem SplitsAt.sorted_insert {keys : List κ} {key : κ} {place : Nat}
    (splits : SplitsAt keys key place) (sorted : keys.Pairwise (· < ·)) :
    (keys.take place ++ key :: keys.drop place).Pairwise (· < ·) := by
  rw [← List.take_append_drop place keys, List.pairwise_append] at sorted
  obtain ⟨before, behind, across⟩ := sorted
  refine List.pairwise_append.mpr ⟨before, List.pairwise_cons.mpr ⟨splits.above, behind⟩, ?_⟩
  intro smaller left other right
  rcases List.mem_cons.mp right with same | member
  · exact same ▸ splits.below smaller left
  · exact across smaller left other member

theorem splitsAt_of_sorted_insert {keys : List κ} {key : κ} {place : Nat} (bound : place ≤ keys.length)
    (sorted : (keys.take place ++ key :: keys.drop place).Pairwise (· < ·)) : SplitsAt keys key place := by
  obtain ⟨_, behind, across⟩ := List.pairwise_append.mp sorted
  exact ⟨bound, fun other before => across other before key List.mem_cons_self, (List.pairwise_cons.mp behind).1⟩

theorem SplitsAt.unique {keys : List κ} {key : κ} {place other : Nat} (splits : SplitsAt keys key place)
    (others : SplitsAt keys key other) : place = other := by
  have between {low high : Nat} (lower : SplitsAt keys key low) (upper : SplitsAt keys key high) : high ≤ low := by
    by_contra less
    have inside : low < keys.length := Nat.lt_of_lt_of_le (Nat.not_le.mp less) upper.bound
    have above := lower.above keys[low] (List.mem_drop_iff_getElem.mpr ⟨0, by omega, by simp⟩)
    have below := upper.below keys[low] (List.mem_take_iff_getElem.mpr ⟨low, by omega, rfl⟩)
    exact lt_asymm above below
  exact Nat.le_antisymm (between others splits) (between splits others)

omit [LinearOrder κ] in
theorem perm_insert (keys : List κ) (key : κ) (place : Nat) :
    (keys.take place ++ key :: keys.drop place).Perm (keys ++ [key]) := by
  have moved : (keys.take place ++ key :: keys.drop place).Perm
      (key :: (keys.take place ++ keys.drop place)) := List.perm_middle
  rw [List.take_append_drop] at moved
  exact moved.trans (List.perm_append_singleton key keys).symm

/-- The bounds that a binary search maintains: everything before `lower` is smaller
than the key, everything from `upper` on is greater. -/
structure Bracket (keys : List κ) (key : κ) (lower upper : Nat) : Prop where
  order : lower ≤ upper
  bound : upper ≤ keys.length
  below : ∀ (position : Nat) (inside : position < keys.length), position < lower → keys[position] < key
  above : ∀ (position : Nat) (inside : position < keys.length), upper ≤ position → key < keys[position]

namespace Bracket

variable {keys : List κ} {key : κ} {lower upper : Nat}

theorem whole (keys : List κ) (key : κ) : Bracket keys key 0 keys.length where
  order := Nat.zero_le _
  bound := Nat.le_refl _
  below := by intro _ _ before; omega
  above := by intro _ inside beyond; omega

theorem lowerHalf (bracket : Bracket keys key lower upper) (sorted : keys.Pairwise (· < ·))
    {middle : Nat} (inside : middle < keys.length) (reached : lower ≤ middle)
    (greater : key < keys[middle]) : Bracket keys key lower middle where
  order := reached
  bound := Nat.le_of_lt inside
  below := bracket.below
  above position bound beyond := by
    rcases Nat.eq_or_lt_of_le beyond with same | later
    · subst same
      exact greater
    · exact greater.trans (List.pairwise_iff_getElem.mp sorted middle position inside bound later)

theorem upperHalf (bracket : Bracket keys key lower upper) (sorted : keys.Pairwise (· < ·))
    {middle : Nat} (inside : middle < keys.length) (before : middle < upper)
    (smaller : keys[middle] < key) : Bracket keys key (middle + 1) upper where
  order := before
  bound := bracket.bound
  below position bound earlier := by
    rcases Nat.eq_or_lt_of_le (Nat.le_of_lt_succ earlier) with same | further
    · subst same
      exact smaller
    · exact (List.pairwise_iff_getElem.mp sorted position middle bound inside further).trans smaller
  above := bracket.above

theorem splitsAt (bracket : Bracket keys key lower lower) : SplitsAt keys key lower where
  bound := bracket.bound
  below other member := by
    obtain ⟨position, inside, rfl⟩ := List.mem_take_iff_getElem.mp member
    exact bracket.below position (by omega) (by omega)
  above other member := by
    obtain ⟨position, inside, rfl⟩ := List.mem_drop_iff_getElem.mp member
    exact bracket.above (lower + position) (by omega) (Nat.le_add_right _ _)

end Bracket

end Foundation
