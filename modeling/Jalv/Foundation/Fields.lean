import Mathlib.Data.List.Basic
import Mathlib.Data.List.Chain

/-! The fields of a text, which single separators divide, and its runs, which any number of
separators divide. -/

set_option autoImplicit false

namespace Foundation

variable {α : Type} (blank : α → Bool)

def runs (text : List α) : List (List α) := (text.splitOnP blank).filter fun field => !field.isEmpty

structure SingleSpaced (text : List α) : Prop where
  begins : ∃ first ∈ text.head?, blank first = false
  ends : ∀ last ∈ text.getLast?, blank last = false
  apart : text.IsChain fun first next => blank first = false ∨ blank next = false

variable {blank}

theorem splitOnP_cons_blank {char : α} (isBlank : blank char = true) (text : List α) :
    (char :: text).splitOnP blank = [] :: text.splitOnP blank := by
  rw [List.splitOnP_cons_eq_if_modifyHead, if_pos isBlank]

theorem splitOnP_cons_solid {char : α} (solid : blank char = false) (text : List α) :
    ∃ field fields, text.splitOnP blank = field :: fields ∧
      (char :: text).splitOnP blank = (char :: field) :: fields := by
  obtain ⟨field, fields, split⟩ := List.exists_cons_of_ne_nil (List.splitOnP_ne_nil blank text)
  refine ⟨field, fields, split, ?_⟩
  rw [List.splitOnP_cons_eq_if_modifyHead, if_neg (by simp [solid]), split, List.modifyHead_cons]

/-- The fields of a text are not empty, or those behind its first one, exactly as far as its blanks are single. -/
theorem fields_nonempty (text : List α) :
    ([] ∉ text.splitOnP blank ↔ SingleSpaced blank text) ∧
      ([] ∉ (text.splitOnP blank).tail ↔ (∀ last ∈ text.getLast?, blank last = false) ∧
        text.IsChain fun first next => blank first = false ∨ blank next = false) := by
  induction text with
  | nil =>
    refine ⟨iff_of_false (by simp) fun spaced => ?_, by simp⟩
    obtain ⟨first, begins, _⟩ := spaced.begins
    cases begins
  | cons char rest ih =>
    cases solid : blank char with
    | true =>
      rw [splitOnP_cons_blank solid, List.tail_cons, ih.1]
      refine ⟨iff_of_false (by simp) fun spaced => ?_, ?_⟩
      · obtain ⟨first, begins, other⟩ := spaced.begins
        cases begins
        cases solid.symm.trans other
      · cases rest with
        | nil =>
          refine iff_of_false (fun spaced => ?_) fun edges => ?_
          · obtain ⟨first, begins, _⟩ := spaced.begins
            cases begins
          · cases solid.symm.trans (edges.1 char rfl)
        | cons next rest =>
          rw [List.getLast?_cons_cons, List.isChain_cons_cons, solid]
          constructor
          · rintro ⟨⟨first, begins, first_solid⟩, ends, apart⟩
            cases begins
            exact ⟨ends, Or.inr first_solid, apart⟩
          · rintro ⟨ends, first_solid, apart⟩
            exact ⟨⟨next, rfl, first_solid.resolve_left (by decide)⟩, ends, apart⟩
    | false =>
      obtain ⟨field, fields, split, whole⟩ := splitOnP_cons_solid solid rest
      have inner := ih.2
      rw [split, List.tail_cons] at inner
      -- A first character that is not blank does not matter for the others
      have edges : ((∀ last ∈ (char :: rest).getLast?, blank last = false) ∧
          (char :: rest).IsChain fun first next => blank first = false ∨ blank next = false) ↔
          (∀ last ∈ rest.getLast?, blank last = false) ∧
            rest.IsChain fun first next => blank first = false ∨ blank next = false := by
        cases rest with
        | nil => simp [solid]
        | cons next rest => rw [List.getLast?_cons_cons, List.isChain_cons_cons, and_iff_right (Or.inl solid)]
      rw [whole, List.tail_cons, edges]
      refine ⟨?_, inner⟩
      rw [List.mem_cons, not_or, and_iff_right (List.cons_ne_nil _ _).symm, inner, ← edges]
      exact ⟨fun both => ⟨⟨char, rfl, solid⟩, both.1, both.2⟩, fun spaced => ⟨spaced.ends, spaced.apart⟩⟩

theorem runs_eq_iff (text : List α) : text.splitOnP blank = runs blank text ↔ SingleSpaced blank text := by
  rw [← (fields_nonempty text).1, runs, eq_comm, List.filter_eq_self]
  constructor
  · intro all empty
    simpa using all [] empty
  · intro none field member
    cases field with
    | nil => exact absurd member none
    | cons => rfl

end Foundation
