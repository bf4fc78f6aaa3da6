import Mathlib.Data.List.DropRight
import Mathlib.Data.List.TakeWhile

/-! The words of a text, which blank characters separate. -/

set_option autoImplicit false

namespace Foundation

variable {α : Type} (blank : α → Bool)

section

variable (keep : α → Bool) (text : List α)

theorem take_length_takeWhile : text.take (text.takeWhile keep).length = text.takeWhile keep :=
  (List.prefix_iff_eq_take.mp (List.takeWhile_prefix keep)).symm

theorem drop_length_takeWhile : text.drop (text.takeWhile keep).length = text.dropWhile keep := by
  have whole := @List.takeWhile_append_dropWhile _ keep text
  nth_rewrite 2 [← whole]
  exact List.drop_left

end

/-- The first word of a text, which is empty if the text begins with a blank, and what follows
it from the next word on. -/
def nextWord (text : List α) : List α × List α :=
  (text.takeWhile (!blank ·), (text.dropWhile (!blank ·)).dropWhile blank)

theorem nextWord_append {first : List α} (solid : ∀ char ∈ first, blank char = false) (text : List α) :
    nextWord blank (first ++ text) = (first ++ (nextWord blank text).1, (nextWord blank text).2) := by
  have word (char : α) (member : char ∈ first) : (!blank char) = true := by rw [solid char member, Bool.not_false]
  rw [nextWord, List.takeWhile_append_of_pos word, List.dropWhile_append_of_pos word]
  rfl

theorem take_length_nextWord (text : List α) :
    text.take (nextWord blank text).1.length = (nextWord blank text).1 := take_length_takeWhile _ _

theorem nextWord_prefix (text : List α) : (nextWord blank text).1 <+: text := List.takeWhile_prefix _

variable {blank}

theorem nextWord_of_blank {text : List α} (begins : (nextWord blank text).1 = []) :
    (nextWord blank text).2 = text.dropWhile blank := by
  have none : text.dropWhile (!blank ·) = text := by
    have whole := @List.takeWhile_append_dropWhile _ (!blank ·) text
    rwa [show text.takeWhile (!blank ·) = [] from begins, List.nil_append] at whole
  rw [nextWord, none]

theorem nextWord_fst_eq_nil_iff {text : List α} :
    (nextWord blank text).1 = [] ↔ ∀ char, text.head? = some char → blank char = true := by
  cases text with
  | nil => simp [nextWord]
  | cons head rest => cases solid : blank head <;> simp [nextWord, solid]

theorem head?_nextWord_fst {text : List α} {char : α} (begins : (nextWord blank text).1.head? = some char) :
    text.head? = some char := by
  obtain ⟨rest, whole⟩ := nextWord_prefix blank text
  rw [← whole, List.head?_append, begins, Option.some_or]

theorem dropWhile_of_word {text : List α} (begins : (nextWord blank text).1 ≠ []) : text.dropWhile blank = text := by
  cases text with
  | nil => rfl
  | cons head rest =>
    cases solid : blank head with
    | false => simp [solid]
    | true => simp [nextWord, solid] at begins

theorem nextWord_snd_eq_nil_iff {text : List α} :
    (nextWord blank text).2 = [] ↔ ∀ char ∈ text.dropWhile (!blank ·), blank char = true :=
  List.dropWhile_eq_nil_iff

theorem nextWord_eq_nil_iff {text : List α} :
    ((nextWord blank text).1 = [] ∧ (nextWord blank text).2 = []) ↔ ∀ char ∈ text, blank char = true := by
  constructor
  · rintro ⟨begins, ends⟩
    rwa [nextWord_of_blank begins, List.dropWhile_eq_nil_iff] at ends
  · intro all
    have begins : (nextWord blank text).1 = [] :=
      nextWord_fst_eq_nil_iff.mpr fun char head => all char (List.mem_of_head? head)
    exact ⟨begins, by rwa [nextWord_of_blank begins, List.dropWhile_eq_nil_iff]⟩

-- Characters of a kind that includes no blanks, from the start of a text on, are part of its first
-- word, and are all of it if the word has only such characters.
theorem nextWord_takeWhile {kind : α → Bool} (solid : ∀ char, kind char = true → blank char = false) (text : List α) :
    let next := nextWord blank (text.dropWhile kind)
    nextWord blank text = (text.takeWhile kind ++ next.1, next.2) ∧
      ((nextWord blank text).1.all kind = true ↔ next.1 = []) := by
  have whole : nextWord blank text = (text.takeWhile kind ++ (nextWord blank (text.dropWhile kind)).1,
      (nextWord blank (text.dropWhile kind)).2) := by
    have split := @List.takeWhile_append_dropWhile _ kind text
    nth_rewrite 1 [← split]
    exact nextWord_append blank (fun char member => solid char (List.mem_takeWhile_imp member)) _
  refine ⟨whole, ?_⟩
  rw [whole, List.all_append, List.all_takeWhile, Bool.true_and]
  constructor
  · intro all
    by_contra more
    obtain ⟨char, rest, begins⟩ := List.exists_cons_of_ne_nil more
    have head : (text.dropWhile kind).head? = some char := head?_nextWord_fst (by rw [begins]; rfl)
    have other := List.head?_dropWhile_not kind text
    rw [head] at other
    rw [begins, List.all_cons, Bool.and_eq_true] at all
    cases all.1.symm.trans other
  · intro none
    rw [none, List.all_nil]

end Foundation
