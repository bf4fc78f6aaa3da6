import Mathlib.Data.List.Basic

/-! Lists as lines, each of which is ended by a terminator, and what follows the last one. -/

set_option autoImplicit false

namespace Foundation

variable {α : Type} {newline : α}

def terminated (newline : α) (lines : List (List α)) : List α := lines.flatMap (· ++ [newline])

structure Lines (newline : α) (text : List α) (lines : List (List α)) (rest : List α) : Prop where
  whole : text = terminated newline lines ++ rest
  plain : ∀ line ∈ lines, newline ∉ line
  unfinished : newline ∉ rest

theorem terminated_cons (line : List α) (lines : List (List α)) :
    terminated newline (line :: lines) = line ++ newline :: terminated newline lines := by
  rw [terminated, List.flatMap_cons, List.append_assoc, List.singleton_append, terminated]

theorem terminated_concat (lines : List (List α)) (line : List α) :
    terminated newline (lines ++ [line]) = terminated newline lines ++ (line ++ [newline]) := by
  rw [terminated, List.flatMap_append, List.flatMap_singleton, terminated]

theorem exists_lines [DecidableEq α] (newline : α) (text : List α) : ∃ lines rest, Lines newline text lines rest := by
  induction text with
  | nil => exact ⟨[], [], rfl, nofun, List.not_mem_nil⟩
  | cons char text ih =>
    obtain ⟨lines, rest, rfl, plain, unfinished⟩ := ih
    by_cases ends : char = newline
    · refine ⟨[] :: lines, rest, by rw [terminated_cons, ends]; rfl, ?_, unfinished⟩
      exact List.forall_mem_cons.mpr ⟨List.not_mem_nil, plain⟩
    -- The character begins the first line, or the rest if there is none
    · have other : newline ≠ char := fun same => ends same.symm
      cases lines with
      | nil => exact ⟨[], char :: rest, rfl, nofun, List.not_mem_cons_of_ne_of_not_mem other unfinished⟩
      | cons line lines =>
        refine ⟨(char :: line) :: lines, rest, by rw [terminated_cons, terminated_cons]; rfl, ?_, unfinished⟩
        obtain ⟨first, others⟩ := List.forall_mem_cons.mp plain
        exact List.forall_mem_cons.mpr ⟨List.not_mem_cons_of_ne_of_not_mem other first, others⟩

/-- What has no terminator yet is the beginning of the first line. -/
theorem begins_of_append {begun more line behind : List α} (unfinished : newline ∉ begun)
    (same : begun ++ more = line ++ newline :: behind) :
    ∃ tail, line = begun ++ tail ∧ more = tail ++ newline :: behind := by
  rcases List.append_eq_append_iff.mp same with ⟨tail, rfl, split⟩ | ⟨tail, rfl, split⟩
  · exact ⟨tail, rfl, split⟩
  · cases tail with
    | nil => exact ⟨[], by simp, by simpa using split.symm⟩
    | cons char tail =>
      cases (List.cons.inj split).1
      exact absurd (List.mem_append_right _ List.mem_cons_self) unfinished

end Foundation
